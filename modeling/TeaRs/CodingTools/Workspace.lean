import TeaRs.CodingTools.HostFiles
import TeaRs.CodingTools.WorkspacePath

/-!
# The workspace as a capability

A workspace is a canonical directory of the host (`tea-coding-tools/src/workspace.rs`). A path that
a model names is resolved below it, either as the path of something that exists or as the target of
a mutation that may still be missing. For a missing target the nearest ancestor that exists is
resolved, and the rest of the path is appended to it.

## Main definitions

* `WorkspaceRoot`, `WorkspaceRoot.resolveExisting`, `WorkspaceRoot.resolveMutation`,
  `WorkspaceRoot.resolveProspective`.
* `WorkspaceRoot.Confined`: a mutation path that stays in the workspace.
* `WorkspaceRoot.Overlooks`: a target that exists, but that the host does not tell of.

## Main results

* `WorkspaceRoot.resolve_confined_iff`: every path that is resolved stays in the workspace, passes
  no link, and names a missing target exactly if the target is not overlooked.
-/

namespace TeaRs

open StateError FileTree Host ValidatedRelativePath HostState List

/-- `ResolvedExistingPath`. -/
structure ResolvedExistingPath where
  displayPath : String
  hostPath : List FileName
  workspaceRoot : List FileName
  identity : Nat
  deriving DecidableEq, Repr

/-- `ResolvedMutationPath`. -/
structure ResolvedMutationPath where
  displayPath : String
  hostPath : List FileName
  workspaceRoot : List FileName
  targetExisted : Bool
  anchorPath : List FileName
  anchorIdentity : Nat
  deriving DecidableEq, Repr

/-- `WorkspaceRoot`. -/
structure WorkspaceRoot where
  hostPath : List FileName
  identity : Nat
  deriving DecidableEq, Repr

/-- What the tools do on the host, with the errors of the workspace. -/
abbrev WorkspaceM := EStateM WorkspacePathErrorCode HostState

namespace WorkspaceRoot

/-- `verify_root`. -/
def verifyRoot (host : Host) (root : WorkspaceRoot) : WorkspaceM Unit := do
  let current ← mapErr (host.canonicalize root.hostPath) fun _ => .filesystemFailure
  let metadata ← mapErr (host.metadata current) fun _ => .filesystemFailure
  ensure (current == root.hostPath && metadata.isDirectory && metadata.identity == root.identity)
    .pathChanged

/-- `require_contained`. -/
def requireContained (root : WorkspaceRoot) (path : List FileName) : WorkspaceM Unit :=
  ensure (root.hostPath.isPrefixOf path) .outsideWorkspace

/-- `resolve_existing`. -/
def resolveExisting (host : Host) (root : WorkspaceRoot) (path : String) :
    WorkspaceM ResolvedExistingPath := do
  root.verifyRoot host
  let relative ← propagate (parse path)
  let candidate := root.hostPath ++ relative.components
  let hostPath ← mapErr (host.canonicalize candidate) fun
    | .notFound => .targetNotFound
    | _ => .unresolvableTarget
  root.requireContained hostPath
  let metadata ← mapErr (host.metadata hostPath) fun _ => .unresolvableTarget
  return {
    displayPath := relative.display
    hostPath
    workspaceRoot := root.hostPath
    identity := metadata.identity }

/-- The ancestor that exists: it is resolved, and the rest of the candidate is appended. -/
def anchorAt (host : Host) (root : WorkspaceRoot) (relative : ValidatedRelativePath)
    (candidate : List FileName) (depth : Nat) (found : FileNode FileName FileData) :
    WorkspaceM ResolvedMutationPath := do
  let anchorPath ← mapErr (host.canonicalize (candidate.take depth)) fun _ => .unresolvableTarget
  root.requireContained anchorPath
  let followed ← mapErr (host.metadata anchorPath) fun _ => .unresolvableTarget
  ensure followed.isDirectory .parentNotDirectory
  return {
    displayPath := relative.display
    hostPath := anchorPath ++ candidate.drop depth
    workspaceRoot := root.hostPath
    targetExisted := false
    anchorPath
    anchorIdentity := found.identity }

/-- The loop of `resolve_prospective`, at the ancestor of the given depth. -/
def climb (host : Host) (root : WorkspaceRoot) (relative : ValidatedRelativePath)
    (candidate : List FileName) (depth : Nat) : WorkspaceM ResolvedMutationPath := do
  match ← host.symlinkMetadata (candidate.take depth) with
  | .ok found => root.anchorAt host relative candidate depth found
  | .error .notFound =>
    match depth with
    | 0 => throw .unresolvableTarget
    | depth + 1 => climb host root relative candidate depth
  | .error _ => throw .filesystemFailure

/-- `resolve_prospective`. -/
def resolveProspective (host : Host) (root : WorkspaceRoot) (relative : ValidatedRelativePath)
    (candidate : List FileName) : WorkspaceM ResolvedMutationPath := do
  ensure (!candidate.isEmpty) .invalidPath
  root.climb host relative candidate (candidate.length - 1)

/-- `resolve_mutation`. -/
def resolveMutation (host : Host) (root : WorkspaceRoot) (path : String) :
    WorkspaceM ResolvedMutationPath := do
  root.verifyRoot host
  let relative ← propagate (parse path)
  ensure (relative.display != ".") .workspaceRootMutation
  let candidate := root.hostPath ++ relative.components
  match ← host.canonicalize candidate with
  | .ok hostPath =>
    root.requireContained hostPath
    let metadata ← mapErr (host.metadata hostPath) fun _ => .unresolvableTarget
    return {
      displayPath := relative.display
      hostPath
      workspaceRoot := root.hostPath
      targetExisted := true
      anchorPath := hostPath
      anchorIdentity := metadata.identity }
  | .error _ =>
    match ← host.symlinkMetadata candidate with
    | .ok _ => throw .unresolvableTarget
    | .error _ => root.resolveProspective host relative candidate

/-- `revalidate_existing`. -/
def revalidateExisting (host : Host) (root : WorkspaceRoot) (target : ResolvedExistingPath) :
    WorkspaceM Unit := do
  ensure (target.workspaceRoot == root.hostPath) .capabilityMismatch
  let current ← convert (fun
    | .targetNotFound => .pathChanged
    | .unresolvableTarget => .pathChanged
    | error => error) (root.resolveExisting host target.displayPath)
  ensure (current.hostPath == target.hostPath && current.identity == target.identity) .pathChanged

/-- `verify_opened_existing`. -/
def verifyOpenedExisting (host : Host) (root : WorkspaceRoot) (target : ResolvedExistingPath)
    (metadata : FileNode FileName FileData) : WorkspaceM Unit := do
  ensure (target.workspaceRoot == root.hostPath) .capabilityMismatch
  root.verifyRoot host
  ensure (metadata.identity == target.identity) .pathChanged

/-- `revalidate_mutation`. -/
def revalidateMutation (host : Host) (root : WorkspaceRoot) (target : ResolvedMutationPath) :
    WorkspaceM Unit := do
  ensure (target.workspaceRoot == root.hostPath) .capabilityMismatch
  let current ← root.resolveMutation host target.displayPath
  ensure (current.hostPath == target.hostPath && current.targetExisted == target.targetExisted &&
    current.anchorPath == target.anchorPath && current.anchorIdentity == target.anchorIdentity)
    .pathChanged

/-! ### Resolution leaves the tree -/

section

variable (host : Host) (root : WorkspaceRoot)

theorem frame_verifyRoot : Frame tree (root.verifyRoot host) :=
  ((host.frame_ask _ _).mapErr _).bind fun _ => ((host.frame_ask _ _).mapErr _).bind fun _ =>
    .ensure _ _

theorem frame_resolveExisting (path : String) :
    Frame tree (root.resolveExisting host path) :=
  (root.frame_verifyRoot host).bind fun _ => (Frame.propagate _).bind fun _ =>
    ((host.frame_ask _ _).mapErr _).bind fun _ => (Frame.ensure _ _).bind fun _ =>
    ((host.frame_ask _ _).mapErr _).bind fun _ => .pure _

theorem frame_anchorAt (relative : ValidatedRelativePath) (candidate : List FileName) (depth : Nat)
    (found : FileNode FileName FileData) :
    Frame tree (root.anchorAt host relative candidate depth found) :=
  ((host.frame_ask _ _).mapErr _).bind fun _ => (Frame.ensure _ _).bind fun _ =>
    ((host.frame_ask _ _).mapErr _).bind fun _ => (Frame.ensure _ _).bind fun _ => .pure _

theorem frame_climb (relative : ValidatedRelativePath) (candidate : List FileName) (depth : Nat) :
    Frame tree (root.climb host relative candidate depth) := by
  induction depth with
  | zero =>
    rw [climb]
    refine (host.frame_ask _ _).bind fun answer => ?_
    rcases answer with (_ | _ | _) | node
    · exact .throw _
    · exact .throw _
    · exact .throw _
    · exact root.frame_anchorAt host _ _ _ _
  | succ depth ih =>
    rw [climb]
    refine (host.frame_ask _ _).bind fun answer => ?_
    rcases answer with (_ | _ | _) | node
    · exact ih
    · exact .throw _
    · exact .throw _
    · exact root.frame_anchorAt host _ _ _ _

theorem frame_resolveMutation (path : String) :
    Frame tree (root.resolveMutation host path) := by
  refine (root.frame_verifyRoot host).bind fun _ => (Frame.propagate _).bind fun relative =>
    (Frame.ensure _ _).bind fun _ => (host.frame_ask _ _).bind fun answer => ?_
  cases answer with
  | ok place =>
    exact (Frame.ensure _ _).bind fun _ => ((host.frame_ask _ _).mapErr _).bind fun _ => .pure _
  | error =>
    refine (host.frame_ask _ _).bind fun seen => ?_
    cases seen with
    | ok => exact .throw _
    | error => exact (Frame.ensure _ _).bind fun _ => root.frame_climb host _ _ _

theorem frame_revalidateExisting (target : ResolvedExistingPath) :
    Frame tree (root.revalidateExisting host target) :=
  (Frame.ensure _ _).bind fun _ => ((root.frame_resolveExisting host _).convert _).bind fun _ =>
    .ensure _ _

theorem frame_verifyOpenedExisting (target : ResolvedExistingPath)
    (metadata : FileNode FileName FileData) :
    Frame tree (root.verifyOpenedExisting host target metadata) :=
  (Frame.ensure _ _).bind fun _ => (root.frame_verifyRoot host).bind fun _ => .ensure _ _

theorem frame_revalidateMutation (target : ResolvedMutationPath) :
    Frame tree (root.revalidateMutation host target) :=
  (Frame.ensure _ _).bind fun _ => (root.frame_resolveMutation host _).bind fun _ => .ensure _ _

end

/-! ### What a successful resolution found -/

section

variable {host : Host} {root : WorkspaceRoot} {state state' : HostState} {path : String}
  {relative : ValidatedRelativePath} {candidate : List FileName} {u : Unit}
  {place names : List FileName} {depth start : Nat} {node : FileNode FileName FileData}
  {name : FileName} {tree : HostTree}

theorem of_verifyRoot (ok : root.verifyRoot host state = .ok u state') :
    state' = state.after 2 ∧ state.tree.isDirectory root.hostPath := by
  simp only [verifyRoot, canonicalize, metadata, bind_eq_ok, mapErr_ask_eq_ok,
    ensure_eq_ok, Bool.and_eq_true, beq_iff_eq] at ok
  obtain ⟨_, _, ⟨-, found, rfl⟩, node, _, ⟨-, known, rfl⟩, ⟨⟨rfl, directory⟩, -⟩, rfl⟩ := ok
  obtain ⟨place, same, some⟩ := lookupNode_eq_ok.mp known
  cases (host.lookup_of_isReal (isReal_of_lookup found)).symm.trans same
  refine ⟨rfl, ?_⟩
  rw [isDirectory, ← tree_after state 1, some]
  exact directory

theorem requireContained_eq_ok :
    root.requireContained place state = .ok u state' ↔ root.hostPath <+: place ∧ state = state' :=
    by
  rw [requireContained, ensure_eq_ok, isPrefixOf_iff_prefix]

/-- What `resolve_existing` found: the real path that the candidate leads to. -/
structure FindsExisting (host : Host) (root : WorkspaceRoot) (tree : HostTree) (path : String)
    (target : ResolvedExistingPath) : Prop where
  parsed : ∃ relative, parse path = .ok relative ∧
    host.lookup (root.hostPath ++ relative.components) tree = .ok target.hostPath ∧
    target.displayPath = relative.display
  within : root.hostPath <+: target.hostPath
  owned : target.workspaceRoot = root.hostPath
  known : ∃ node, tree.node target.hostPath = some node ∧ target.identity = node.identity

theorem of_resolveExisting {target : ResolvedExistingPath}
    (ok : root.resolveExisting host path state = .ok target state') :
    state' = state.after 4 ∧ FindsExisting host root state.tree path target := by
  simp only [resolveExisting, canonicalize, metadata, bind_eq_ok, mapErr_ask_eq_ok,
    propagate_eq_ok, requireContained_eq_ok, pure_run, EStateM.Result.ok.injEq] at ok
  obtain ⟨_, _, verified, relative, _, ⟨parsed, rfl⟩, place, _, ⟨-, found, rfl⟩, _, _,
    ⟨within, rfl⟩, node, _, ⟨-, known, rfl⟩, rfl, rfl⟩ := ok
  obtain ⟨rfl, -⟩ := of_verifyRoot verified
  obtain ⟨_, same, some⟩ := lookupNode_eq_ok.mp known
  cases (host.lookup_of_isReal (isReal_of_lookup found)).symm.trans same
  exact ⟨by simp, ⟨relative, parsed, found, rfl⟩, within, rfl, node, some, rfl⟩

/-- What the walk to the nearest ancestor found, from some depth up: the ancestor leads to a
directory of the workspace, and the ancestors below it are missing. -/
structure FindsAnchor (host : Host) (root : WorkspaceRoot) (tree : HostTree)
    (candidate : List FileName) (start depth : Nat) (target : ResolvedMutationPath) : Prop where
  le : depth ≤ start
  found : host.lookup (candidate.take depth) tree = .ok target.anchorPath
  directory : tree.isDirectory target.anchorPath
  within : root.hostPath <+: target.anchorPath
  hostPath : target.hostPath = target.anchorPath ++ candidate.drop depth
  missing : target.targetExisted = false
  below : ∀ lower, depth < lower → lower ≤ start →
    tree.entry host.links (candidate.take lower) = .error .notFound

variable {target : ResolvedMutationPath}

theorem of_anchorAt
    (ok : root.anchorAt host relative candidate depth node state = .ok target state') :
    state'.tree = state.tree ∧ target.displayPath = relative.display ∧
      FindsAnchor host root state.tree candidate depth depth target := by
  simp only [anchorAt, canonicalize, metadata, bind_eq_ok, mapErr_ask_eq_ok,
    requireContained_eq_ok, ensure_eq_ok, pure_run, EStateM.Result.ok.injEq] at ok
  obtain ⟨place, _, ⟨-, found, rfl⟩, _, _, ⟨within, rfl⟩, followed, _, ⟨-, known, rfl⟩, _, _,
    ⟨directory, rfl⟩, rfl, rfl⟩ := ok
  obtain ⟨_, same, some⟩ := lookupNode_eq_ok.mp known
  cases (host.lookup_of_isReal (isReal_of_lookup found)).symm.trans same
  refine ⟨rfl, rfl, le_rfl, found, ?_, within, rfl, rfl, by omega⟩
  rw [isDirectory, ← tree_after state 1, some]
  exact directory

theorem entry_of_symlinkMetadata (missing : host.symlinkMetadata place state =
      (.ok (.error .notFound) state' : EStateM.Result WorkspacePathErrorCode _ _)) :
    state.tree.entry host.links place = .error .notFound := by
  obtain ⟨missing, -⟩ := ask_eq_ok.mp missing
  split at missing
  · cases missing
  · rcases entry : state.tree.entry host.links place with (_ | _ | _) | _ <;>
      simp [entry, Except.mapError, LookupError.kind] at missing ⊢

/-- The walk finds an ancestor or fails: each step goes up by one. -/
theorem of_climb (ok : root.climb host relative candidate depth state = .ok target state') :
    state'.tree = state.tree ∧ target.displayPath = relative.display ∧
      ∃ place, FindsAnchor host root state.tree candidate depth place target := by
  induction depth generalizing state with
  | zero =>
    rw [climb, bind_eq_ok] at ok
    obtain ⟨answer, _, asked, ok⟩ := ok
    obtain ⟨-, rfl⟩ := ask_eq_ok.mp asked
    rcases answer with (_ | _ | _) | node
    · cases ok
    · cases ok
    · cases ok
    · obtain ⟨same, display, finds⟩ := of_anchorAt ok
      exact ⟨same, display, 0, finds⟩
  | succ depth ih =>
    rw [climb, bind_eq_ok] at ok
    obtain ⟨answer, _, asked, ok⟩ := ok
    obtain ⟨-, rfl⟩ := ask_eq_ok.mp asked
    rcases answer with (_ | _ | _) | node
    · obtain ⟨same, display, place, finds⟩ := ih ok
      refine ⟨same, display, place, { finds with le := finds.le.trans (by omega), below := ?_ }⟩
      intro lower above le
      rcases Nat.lt_or_eq_of_le le with lt | rfl
      · exact finds.below lower above (by omega)
      · exact entry_of_symlinkMetadata asked
    · cases ok
    · cases ok
    · obtain ⟨same, display, finds⟩ := of_anchorAt ok
      exact ⟨same, display, depth + 1, finds⟩

/-- What `resolve_mutation` found: the real path that the candidate leads to, or the anchor of a
candidate of which neither `canonicalize` nor `symlink_metadata` told anything. -/
inductive FindsMutation (host : Host) (root : WorkspaceRoot) (state : HostState)
    (candidate : List FileName) (target : ResolvedMutationPath) : Prop where
  | existing (existed : target.targetExisted = true)
      (found : host.lookup candidate state.tree = .ok target.hostPath)
      (answered : host.refuses (state.calls + 2) .canonicalize = false)
      (within : root.hostPath <+: target.hostPath)
  | prospective (depth : Nat)
      (unresolved : host.refuses (state.calls + 2) .canonicalize = true ∨
        ∀ place, host.lookup candidate state.tree ≠ .ok place)
      (unseen : host.refuses (state.calls + 3) .symlinkMetadata = true ∨
        ∀ node, state.tree.entry host.links candidate ≠ .ok node)
      (anchor : FindsAnchor host root state.tree candidate (candidate.length - 1) depth target)

theorem of_resolveMutation (ok : root.resolveMutation host path state = .ok target state') :
    state'.tree = state.tree ∧ state.tree.isDirectory root.hostPath ∧
      ∃ relative, parse path = .ok relative ∧ relative.components ≠ [] ∧
        target.displayPath = relative.display ∧
        FindsMutation host root state (root.hostPath ++ relative.components) target := by
  simp only [resolveMutation, bind_eq_ok, propagate_eq_ok, ensure_eq_ok] at ok
  obtain ⟨_, _, verified, relative, _, ⟨parsed, rfl⟩, _, _, ⟨named, rfl⟩, answer, _, asked, ok⟩ := ok
  obtain ⟨rfl, directory⟩ := of_verifyRoot verified
  obtain ⟨answered, rfl⟩ := ask_eq_ok.mp asked
  have nonempty : relative.components ≠ [] := mt (display_eq_dot_iff relative).mpr (by simpa using named)
  cases answer with
  | ok place =>
    simp only [metadata, bind_eq_ok, mapErr_ask_eq_ok, requireContained_eq_ok, pure_run,
      EStateM.Result.ok.injEq] at ok
    obtain ⟨_, _, ⟨within, rfl⟩, _, _, ⟨-, -, rfl⟩, rfl, rfl⟩ := ok
    split at answered
    · cases answered
    · rename_i open_
      exact ⟨rfl, directory, relative, parsed, nonempty, rfl,
        .existing rfl answered (by simpa using open_) within⟩
  | error kind =>
    simp only [bind_eq_ok] at ok
    obtain ⟨seen, _, asked, ok⟩ := ok
    obtain ⟨unseen, rfl⟩ := ask_eq_ok.mp asked
    cases seen with
    | ok => cases ok
    | error =>
      simp only [resolveProspective, bind_eq_ok, ensure_eq_ok] at ok
      obtain ⟨_, _, ⟨-, rfl⟩, ok⟩ := ok
      obtain ⟨same, display, depth, anchor⟩ := of_climb ok
      refine ⟨same, directory, relative, parsed, nonempty, display, .prospective depth
        (refused_or_of_ask answered) ?_ anchor⟩
      exact (refused_or_of_ask unseen).imp_right fun missing node found =>
        missing node (mapError_eq_ok.mpr found)

/-! ### The walk ends -/

theorem calls_anchorAt (depth : Nat) (node : FileNode FileName FileData) :
    Host.CallsAtMost 2 (root.anchorAt host relative candidate depth node) := by
  rw [anchorAt]
  have resolves : Host.CallsAtMost 1 (mapErr (host.canonicalize (candidate.take depth))
      fun _ => WorkspacePathErrorCode.unresolvableTarget) := (Host.CallsAtMost.ask _ _ _).mapErr _
  have follows (place : List FileName) : Host.CallsAtMost 1 (mapErr (host.metadata place)
      fun _ => WorkspacePathErrorCode.unresolvableTarget) := (Host.CallsAtMost.ask _ _ _).mapErr _
  exact resolves.bind fun place => (Host.CallsAtMost.of_frame (.ensure _ _)).bind fun _ =>
    (follows place).bind fun _ => .of_frame (.bind (.ensure _ _) fun _ => .pure _)

/-- The walk asks for each ancestor at most once. -/
theorem calls_climb (depth : Nat) :
    Host.CallsAtMost (1 + (depth + 2)) (root.climb host relative candidate depth) := by
  have fails (error : WorkspacePathErrorCode) (count : Nat) : Host.CallsAtMost count
      (throw error : WorkspaceM ResolvedMutationPath) :=
    (Host.CallsAtMost.of_frame (.throw _)).mono (Nat.zero_le _)
  induction depth with
  | zero =>
    rw [climb]
    refine (Host.CallsAtMost.ask _ _ _).bind fun answer => ?_
    rcases answer with (_ | _ | _) | node
    · exact fails _ _
    · exact fails _ _
    · exact fails _ _
    · exact calls_anchorAt 0 node
  | succ depth ih =>
    rw [climb]
    refine (Host.CallsAtMost.ask _ _ _).bind fun answer => ?_
    rcases answer with (_ | _ | _) | node
    · exact ih.mono (by omega)
    · exact fails _ _
    · exact fails _ _
    · exact (calls_anchorAt (depth + 1) node).mono (by omega)

theorem calls_resolveProspective (relative : ValidatedRelativePath) (candidate : List FileName) :
    Host.CallsAtMost (candidate.length + 3) (root.resolveProspective host relative candidate) := by
  rw [resolveProspective]
  exact ((Host.CallsAtMost.of_frame (.ensure _ _)).bind fun _ => calls_climb _).mono (by omega)

/-! ### Confinement -/

/-- A name that stands for an entry of a directory, not for a directory itself or the one above. -/
def IsNormalName (name : FileName) : Prop :=
  name ≠ [] ∧ '/' ∉ name ∧ name ≠ ['.'] ∧ name ≠ ['.', '.']

/-- A mutation path that stays in the workspace: a target that exists has no link on its path, and
one that is missing lies under names that do not exist in a directory of the workspace. -/
structure Confined (root : WorkspaceRoot) (tree : HostTree) (target : ResolvedMutationPath) :
    Prop where
  within : root.hostPath <+: target.hostPath
  existing : target.targetExisted = true → tree.LinkFree target.hostPath
  missing : target.targetExisted = false → ∃ names, names ≠ [] ∧
    target.hostPath = target.anchorPath ++ names ∧ root.hostPath <+: target.anchorPath ∧
    tree.LinkFree target.anchorPath ∧ tree.isDirectory target.anchorPath ∧
    (∀ name ∈ names, IsNormalName name) ∧
    ∀ front, front ≠ [] → front <+: names → tree.node (target.anchorPath ++ front) = none

/-- The target exists, but neither the third nor the fourth call of `resolve_mutation`, which look
the candidate up, tells of it: the link at its end or a refusal stops `canonicalize`, and
`symlink_metadata` is refused. -/
def Overlooks (host : Host) (root : WorkspaceRoot) (path : String) (state : HostState) : Prop :=
  ∃ relative, parse path = .ok relative ∧
    (host.refuses (state.calls + 2) .canonicalize = true ∨
      ∀ place, host.lookup (root.hostPath ++ relative.components) state.tree ≠ .ok place) ∧
    host.refuses (state.calls + 3) .symlinkMetadata = true ∧
    ∃ node, state.tree.entry host.links (root.hostPath ++ relative.components) = .ok node

theorem isNormalName_of_parse (parsed : parse path = .ok relative)
    (mem : name ∈ relative.components) : IsNormalName name := by
  obtain ⟨nonempty, plain⟩ := relative.proper name mem
  refine ⟨nonempty, plain, ?_, ?_⟩
  · rintro rfl
    exact relative.named mem
  · rintro rfl
    exact parent_notMem_of_parse parsed mem

theorem FindsAnchor.length_le
    (anchor : FindsAnchor host root tree (root.hostPath ++ names) start depth target)
    (directory : tree.isDirectory root.hostPath) (below : root.hostPath.length ≤ start) :
    root.hostPath.length ≤ depth := by
  by_contra above
  have missing := anchor.below root.hostPath.length (by omega) below
  rw [take_left] at missing
  obtain ⟨node, found⟩ := exists_entry_of_resolve <| lookup_eq_ok.mp <|
    host.lookup_of_isReal (isReal_of_isDirectory directory)
  rw [found] at missing
  cases missing

/-- A missing target is confined exactly if the first name below its anchor does not exist. -/
theorem FindsAnchor.confined_iff (anchor : FindsAnchor host root tree candidate start depth target)
    (split : candidate.drop depth = name :: names)
    (normal : ∀ each ∈ name :: names, IsNormalName each) :
    root.Confined tree target ↔ tree.node (target.anchorPath ++ [name]) = none := by
  have hostPath := anchor.hostPath
  rw [split] at hostPath
  constructor
  · intro confined
    obtain ⟨names', -, same, -, -, -, -, absent⟩ := confined.missing anchor.missing
    cases append_cancel_left (hostPath.symm.trans same)
    exact absent [name] (by simp) ⟨names, rfl⟩
  · intro absent
    refine ⟨?_, fun existed => ?_, fun _ => ⟨name :: names, by simp, hostPath, anchor.within,
      (isReal_of_isDirectory anchor.directory).linkFree, anchor.directory, normal, ?_⟩⟩
    · rw [hostPath]
      exact anchor.within.trans (prefix_append _ _)
    · simp [anchor.missing] at existed
    · rintro (_ | ⟨first, front⟩) nonempty ⟨rest, joined⟩
      · exact absurd rfl nonempty
      · obtain ⟨rfl, -⟩ := cons.inj joined
        rw [append_cons]
        exact node_append_eq_none absent front

theorem FindsAnchor.node_eq_none {next : FileName}
    (anchor : FindsAnchor host root tree candidate (candidate.length - 1) depth target)
    (split : candidate.drop depth = name :: next :: names) :
    tree.node (target.anchorPath ++ [name]) = none := by
  have count := congrArg length split
  simp only [length_drop, length_cons] at count
  have missing := anchor.below (depth + 1) (by omega) (by omega)
  have joined : candidate.take (depth + 1) = candidate.take depth ++ [name] := by
    rw [take_add, split]
    rfl
  rw [joined] at missing
  exact node_eq_none_of_entry missing (lookup_eq_ok.mp anchor.found) anchor.directory

theorem FindsAnchor.node_eq_none_iff
    (anchor : FindsAnchor host root tree candidate (candidate.length - 1) depth target)
    (split : candidate.drop depth = name :: names) :
    tree.node (target.anchorPath ++ [name]) = none ↔
      ∀ node, tree.entry host.links candidate ≠ .ok node := by
  have joined : candidate = candidate.take depth ++ name :: names := by
    rw [← split, take_append_drop]
  have length : (candidate.take depth).length = depth := by
    have := anchor.le
    have := congrArg length split
    simp only [length_drop, length_cons] at this
    rw [length_take]
    omega
  cases names with
  | nil =>
    -- the anchor is the parent, so the candidate's entry is the node below the anchor
    have entry (node) : tree.entry host.links candidate = .ok node ↔
        tree.node (target.anchorPath ++ [name]) = some node := by
      rw [joined, entry_append_eq_ok, lookup_eq_ok.mp anchor.found]
      simp [anchor.directory]
    rw [Option.eq_none_iff_forall_ne_some]
    exact forall_congr' fun node => not_congr (entry node).symm
  | cons next names =>
    have count := congrArg List.length joined
    simp only [length_append, length, length_cons] at count
    refine iff_of_true (anchor.node_eq_none split) fun node found => ?_
    -- a candidate with an entry has a parent that is resolved, which is missing here
    obtain ⟨front, last, rfl⟩ := eq_nil_or_concat candidate |>.resolve_left
      (by rintro rfl; simp at count)
    rw [concat_eq_append] at *
    obtain ⟨parent, resolved, -⟩ := entry_append_eq_ok.mp found
    obtain ⟨node, parentEntry⟩ := exists_entry_of_resolve resolved
    have absent := anchor.below front.length (by simp at count; omega) (by simp)
    rw [take_left, parentEntry] at absent
    cases absent

/-- The place that a path names for a write: where the path leads to, or the place of its last name
if nothing is there or the host does not tell of it. -/
inductive IsTarget (host : Host) (tree : HostTree) (candidate place : List FileName) : Prop where
  | followed (found : host.lookup candidate tree = .ok place)
  | created (found : host.lookupPlace candidate tree = .ok place)
      (unseen : tree.node place = none ∨ ∃ calls, host.refuses calls .symlinkMetadata = true)

theorem FindsAnchor.exists_split
    (anchor : FindsAnchor host root tree candidate (candidate.length - 1) depth target)
    (nonempty : candidate ≠ []) : ∃ name names, candidate.drop depth = name :: names := by
  have := anchor.le
  have := length_pos_iff.mpr nonempty
  exact exists_cons_of_ne_nil (by simp; omega)

theorem FindsMutation.parent_isDirectory
    (finds : FindsMutation host root state candidate target) (nonempty : candidate ≠ [])
    (parent : host.lookupNode target.hostPath.dropLast state.tree = .ok node)
    (directory : node.isDirectory) : state.tree.isDirectory target.hostPath.dropLast := by
  obtain ⟨place, found, some⟩ := lookupNode_eq_ok.mp parent
  have real : state.tree.IsReal target.hostPath.dropLast := by
    cases finds with
    | existing existed leads =>
      obtain ⟨rest, joined⟩ := dropLast_prefix target.hostPath
      have real := isReal_of_lookup leads
      rw [← joined] at real
      exact real.of_append
    | prospective depth unresolved unseen anchor =>
      obtain ⟨name, names, split⟩ := anchor.exists_split nonempty
      have hostPath := anchor.hostPath
      rw [split] at hostPath
      cases names with
      | nil =>
        rw [hostPath, dropLast_concat]
        exact isReal_of_isDirectory anchor.directory
      | cons next names =>
        -- the path to the parent passes a name that does not exist
        rw [hostPath, append_cons, dropLast_append_of_ne_nil (by simp),
          lookup_eq_ok, map_append] at found
        obtain ⟨middle, front, -⟩ := resolve_append found
        rw [map_append] at front
        obtain ⟨middle', front, last⟩ := resolve_append front
        rw [resolve_map_name (isReal_of_isDirectory anchor.directory)] at front
        cases front
        have exists_ := (resolve_singleton last).2
        simp [anchor.node_eq_none split] at exists_
  rw [host.lookup_of_isReal real] at found
  cases found
  rw [isDirectory, some]
  exact directory

theorem FindsMutation.isTarget (finds : FindsMutation host root state candidate target)
    (nonempty : candidate ≠ []) (directory : state.tree.isDirectory target.hostPath.dropLast) :
    IsTarget host state.tree candidate target.hostPath := by
  cases finds with
  | existing existed found => exact .followed found
  | prospective depth unresolved unseen anchor =>
    obtain ⟨name, names, split⟩ := anchor.exists_split nonempty
    have hostPath := anchor.hostPath
    rw [split] at hostPath
    cases names with
    | nil =>
      have joined : candidate = candidate.take depth ++ [name] := by
        rw [← split, take_append_drop]
      refine .created ?_ ?_
      · rw [joined, lookupPlace, getLast?_concat, dropLast_concat, anchor.found,
          hostPath]
        exact if_pos anchor.directory
      · rw [hostPath]
        exact unseen.symm.imp (anchor.node_eq_none_iff split).mpr fun refused => ⟨_, refused⟩
    | cons next names =>
      have missing := node_append_eq_none (anchor.node_eq_none split)
        (next :: names).dropLast
      rw [hostPath, append_cons, dropLast_append_of_ne_nil (by simp),
        isDirectory, missing] at directory
      cases directory

theorem confined_iff_not_overlooks (ok : root.resolveMutation host path state = .ok target state') :
    root.Confined state.tree target ↔ ¬ root.Overlooks host path state := by
  obtain ⟨-, directory, relative, parsed, nonempty, -, finds⟩ := of_resolveMutation ok
  have overlooks : root.Overlooks host path state ↔
      (host.refuses (state.calls + 2) .canonicalize = true ∨
        ∀ place, host.lookup (root.hostPath ++ relative.components) state.tree ≠ .ok place) ∧
      host.refuses (state.calls + 3) .symlinkMetadata = true ∧
      ∃ node, state.tree.entry host.links (root.hostPath ++ relative.components) = .ok node := by
    constructor
    · rintro ⟨relative', parsed', rest⟩
      cases parsed.symm.trans parsed'
      exact rest
    · exact fun rest => ⟨relative, parsed, rest⟩
  rw [overlooks]
  cases finds with
  | existing existed found answered within =>
    refine iff_of_true ⟨within, fun _ => (isReal_of_lookup found).linkFree, fun missing => ?_⟩ ?_
    · simp [existed] at missing
    · rintro ⟨refused | unresolved, -⟩
      · simp [answered] at refused
      · exact unresolved _ found
  | prospective depth unresolved unseen anchor =>
    have count : 0 < relative.components.length := length_pos_iff.mpr nonempty
    have lower := anchor.length_le directory (by simp; omega)
    have upper := anchor.le
    obtain ⟨name, names, split⟩ : ∃ name names,
        (root.hostPath ++ relative.components).drop depth = name :: names :=
      exists_cons_of_ne_nil (by simp at upper ⊢; omega)
    have normal : ∀ each ∈ name :: names, IsNormalName each := by
      intro each mem
      rw [← split, drop_append, drop_of_length_le lower, nil_append] at mem
      exact isNormalName_of_parse parsed (mem_of_mem_drop mem)
    rw [anchor.confined_iff split normal, anchor.node_eq_none_iff split]
    constructor
    · rintro missing ⟨-, -, node, found⟩
      exact missing node found
    · intro noticed node found
      refine noticed ⟨unresolved, ?_, node, found⟩
      exact unseen.resolve_right fun missing => missing node found

/-- Every path that is resolved lies in the workspace and passes no link. A missing target is a new
name in a directory of the workspace, exactly if the host does not hide a target that exists. The
walk to the nearest ancestor ends after one call for each ancestor at most. -/
theorem resolve_confined_iff (host : Host) (root : WorkspaceRoot) (path : String)
    (state : HostState) :
    (∀ target state', root.resolveExisting host path state = .ok target state' →
      root.hostPath <+: target.hostPath ∧ state.tree.LinkFree root.hostPath ∧
        state.tree.LinkFree target.hostPath) ∧
    (∀ target state', root.resolveMutation host path state = .ok target state' →
      state.tree.LinkFree root.hostPath ∧
        (root.Confined state.tree target ↔ ¬ root.Overlooks host path state)) ∧
    ∀ relative candidate, Host.CallsAtMost (candidate.length + 3)
      (root.resolveProspective host relative candidate) := by
  refine ⟨fun target state' ok => ?_, fun target state' ok => ?_, calls_resolveProspective⟩
  · obtain ⟨-, finds⟩ := of_resolveExisting ok
    obtain ⟨relative, -, found, -⟩ := finds.parsed
    have real := isReal_of_lookup found
    refine ⟨finds.within, ?_, real.linkFree⟩
    obtain ⟨rest, joined⟩ := finds.within
    rw [← joined] at real
    exact real.of_append.linkFree
  · obtain ⟨-, directory, -⟩ := of_resolveMutation ok
    exact ⟨(isReal_of_isDirectory directory).linkFree, confined_iff_not_overlooks ok⟩

end

/-- A workspace `/w` with a file `d/x` and a link `l` to the directory `d`. -/
def linkedTree : HostTree :=
  (((bare 0).set ["w".toList] (some (.directory 1))).set ["w".toList, "d".toList]
      (some (.directory 2))
    |>.set ["w".toList, "d".toList, "x".toList] (some (.file 3 ⟨"old".toUTF8, 0o644⟩))).set
    ["w".toList, "l".toList] (some (.link 4 false [.name "d".toList]))

/-- The state with that tree, before any call. -/
def linkedState : HostState where
  tree := linkedTree
  calls := 0
  nextTempId := 0

/-- The capability of that workspace. -/
def linkedRoot : WorkspaceRoot where
  hostPath := ["w".toList]
  identity := 1

/-- A host that refuses the given calls. -/
def refusingHost (refuses : Nat → FileCall → Bool) : Host where
  refuses
  links := 40
  identity := (· + 100)
  process := 7

/-- A new name under a link is a new name in the directory that the link leads to. -/
theorem resolve_confined_iff_link :
    ∃ target, resultValue? (linkedRoot.resolveMutation (refusingHost fun _ _ => false) "l/new"
        linkedState) = some target ∧
      target.hostPath = ["w".toList, "d".toList, "new".toList] ∧
      linkedRoot.Confined linkedTree target := by
  have run : resultValue? (linkedRoot.resolveMutation (refusingHost fun _ _ => false) "l/new"
      linkedState) = some ⟨"l/new", ["w".toList, "d".toList, "new".toList], ["w".toList], false,
        ["w".toList, "d".toList], 4⟩ := by decide +kernel
  refine ⟨_, run, rfl, ?_⟩
  refine (((resolve_confined_iff _ _ _ linkedState).2.1 _ _ (eq_ok_of_resultValue? run)).2).mpr ?_
  rintro ⟨-, -, -, refused, -⟩
  cases refused

/-- The directory `d` may not be searched, so both calls that look `d/x` up are refused. The file is
taken for a missing one, and the path that is returned for a new file names it. -/
theorem resolveMutation_overlooks : ∃ target, resultValue? (linkedRoot.resolveMutation
        (refusingHost fun calls _ => calls == 2 || calls == 3) "d/x" linkedState) = some target ∧
      target.targetExisted = false ∧ target.anchorPath = ["w".toList, "d".toList] ∧
      target.hostPath = target.anchorPath ++ ["x".toList] ∧
      (linkedTree.node target.hostPath).isSome ∧ ¬ linkedRoot.Confined linkedTree target := by
  refine ⟨⟨"d/x", ["w".toList, "d".toList, "x".toList], ["w".toList], false,
    ["w".toList, "d".toList], 2⟩, by decide +kernel, rfl, rfl, rfl, by decide +kernel, ?_⟩
  intro confined
  obtain ⟨names, -, joined, -, -, -, -, absent⟩ := confined.missing rfl
  have joined : ["w".toList, "d".toList] ++ ["x".toList] = ["w".toList, "d".toList] ++ names := joined
  cases append_cancel_left joined
  have missing := absent ["x".toList] (by simp) (prefix_refl _)
  revert missing
  decide +kernel

end WorkspaceRoot

end TeaRs
