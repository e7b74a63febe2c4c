import TeaRs.CodingTools.Output
import TeaRs.CodingTools.Workspace
import TeaRs.Lib.Replace

/-!
# Reading, editing and writing files

The tools that change files write a temporary file next to the target and rename it over the target
(`tea-coding-tools/src/file.rs`, `edit.rs` and `write.rs`). Every check comes before the rename, and
a failure before it removes the temporary file, so a call either changes the one target or nothing.

## Main definitions

* `readBoundedUtf8`, `atomicWriteInner`.
* `EditTool.run`, `WriteTool.run`.
* `Staged`: the tree while the temporary file exists.
* `Replaced`: the tree with the content of one file replaced.

## Main results

* `ends_atomicWriteInner`: the target is replaced, or the tree is as it was.
* `edit_write_all_or_nothing`: the same for whole calls of the two tools, with the content that the
  target gets.
-/

namespace TeaRs

open StateError WorkspaceRoot ValidatedRelativePath Value List

/-- What the file tools do on the host. -/
abbrev FileToolM := EStateM FileToolErrorCode HostState

/-- `MAX_WRITE_BYTES`. -/
def maxWriteBytes : Nat := 192 * 1024

/-- The error of a call that failed. -/
def fileCallFailed (_ : IoErrorKind) : FileToolErrorCode := .filesystemFailure

/-- `read_bounded_utf8`. -/
def readBoundedUtf8 (host : Host) (workspace : WorkspaceRoot) (target : ResolvedExistingPath)
    (maxBytes : Nat) : FileToolM String := do
  convert .ofWorkspace (workspace.revalidateExisting host target)
  let metadata ← mapErr (host.metadata target.hostPath) fileCallFailed
  ensure metadata.isFile .notAFile
  ensure (fileLen metadata ≤ maxBytes) .tooLarge
  let file ← mapErr (host.openFile target.hostPath) fileCallFailed
  let opened ← mapErr (host.openedMetadata file) fileCallFailed
  convert .ofWorkspace (workspace.verifyOpenedExisting host target opened)
  let bytes ← mapErr (host.readToEnd file (maxBytes + 1)) fileCallFailed
  ensure (bytes.size ≤ maxBytes) .tooLarge
  ensure (!bytes.data.contains 0) .binaryFile
  okOr (String.fromUTF8? bytes) .invalidUtf8

/-- `TemporaryFile`. -/
structure TemporaryFile where
  path : List FileName
  file : List FileName

/-- The name of a temporary file. -/
def temporaryName (process id : Nat) : FileName :=
  (".tea-tmp-" ++ process.repr ++ "-" ++ id.repr).toList

/-- `NEXT_TEMP_ID.fetch_add(1)`. -/
def nextTempId : FileToolM Nat := fun state =>
  .ok state.nextTempId { state with nextTempId := (state.nextTempId + 1) % 2 ^ 64 }

/-- `create_temporary`, with the attempts that are left. -/
def createTemporary (host : Host) (parent : List FileName) : (attempts : Nat) → FileToolM TemporaryFile
  | 0 => throw .filesystemFailure
  | attempts + 1 => do
    let id ← nextTempId
    let path := parent ++ [temporaryName host.process id]
    match ← host.createNew path 0o600 with
    | .ok file => return { path, file }
    | .error .alreadyExists => createTemporary host parent attempts
    | .error _ => throw .filesystemFailure

/-- `sync_parent`. -/
def syncParent (host : Host) (parent : List FileName) : FileToolM Unit := do
  match ← host.openFile parent with
  | .ok _ => ignore host.syncAll
  | .error _ => pure ()

/-- The permissions of a target that exists are copied to the temporary file. -/
def copyPermissions (host : Host) (target : ResolvedMutationPath) (temporary : TemporaryFile) :
    FileToolM Unit := do
  if target.targetExisted then
    let metadata ← mapErr (host.metadata target.hostPath) fileCallFailed
    mapErr (host.setPermissions temporary.file (filePermissions metadata)) fileCallFailed

/-- The file has to hold what was read from it before. -/
def verifyUnchanged (host : Host) (workspace : WorkspaceRoot)
    (expected : Option (ResolvedExistingPath × String)) : FileToolM Unit := do
  match expected with
  | none => pure ()
  | some (existing, expected) =>
    let current ← readBoundedUtf8 host workspace existing maxWriteBytes
    ensure (current == expected) .pathChanged

/-- `write_and_commit`. -/
def writeAndCommit (host : Host) (workspace : WorkspaceRoot) (target : ResolvedMutationPath)
    (temporary : TemporaryFile) (content : ByteArray)
    (expected : Option (ResolvedExistingPath × String)) : FileToolM Unit := do
  copyPermissions host target temporary
  mapErr (host.writeAll temporary.file content) fileCallFailed
  mapErr host.syncAll fileCallFailed
  verifyUnchanged host workspace expected
  convert .ofWorkspace (workspace.revalidateMutation host target)
  mapErr (host.rename temporary.path target.hostPath) fun _ => .atomicCommitFailed
  syncParent host target.hostPath.dropLast

/-- A target that exists has to be a file. -/
def verifyIsFile (host : Host) (target : ResolvedMutationPath) : FileToolM Unit := do
  if target.targetExisted then
    let metadata ← mapErr (host.metadata target.hostPath) fileCallFailed
    ensure metadata.isFile .notAFile

/-- `atomic_write_inner`; `atomic_write` expects nothing, and `atomic_write_if_unchanged` what was
read. -/
def atomicWriteInner (host : Host) (workspace : WorkspaceRoot) (target : ResolvedMutationPath)
    (content : ByteArray) (expected : Option (ResolvedExistingPath × String)) :
    FileToolM Unit := do
  ensure (content.size ≤ maxWriteBytes) .tooLarge
  ensure (!target.hostPath.isEmpty) .invalidPath
  ensure (← host.isDir target.hostPath.dropLast) .notFound
  verifyIsFile host target
  let temporary ← createTemporary host target.hostPath.dropLast 32
  onError (writeAndCommit host workspace target temporary content expected)
    (ignore (host.removeFile temporary.path))

/-- The presentation of a change is attached to a result; anything else is an internal error. -/
def presented (event : ToolExecutionEvent) (change : Option CodeChange) :
    FileToolM ToolExecutionEvent :=
  match event with
  | .finished result =>
    match change with
    | some change => return .finished (result.withPresentation (.codeChange change))
    | none => return .finished result
  | _ => throw .internal

/-- `str::replace`. -/
def replaceText (source oldText newText : String) : String :=
  String.ofList (Scan.splice source.toList oldText.toList.length newText.toList 0
    (Scan.matchIndices oldText.toList 0 source.toList))

/-- `EditTool::run`, on the arguments of the invocation. -/
def EditTool.run (host : Host) (differ : String → String → TextDiff) (workspace : WorkspaceRoot)
    (arguments : Value) : FileToolM ToolExecutionEvent := do
  let path ← propagate (stringArgument arguments "path")
  let oldText ← propagate (stringArgument arguments "oldText")
  let newText ← propagate (stringArgument arguments "newText")
  let expected ← propagate (integerArgument arguments "expectedReplacements")
  let existing ← convert .ofWorkspace (workspace.resolveExisting host path)
  let source ← readBoundedUtf8 host workspace existing maxWriteBytes
  let count := (Scan.matchIndices oldText.toList 0 source.toList).length
  ensure (count != 0) .noMatch
  ensure (count == expected.getD 1) .matchCountMismatch
  let result := replaceText source oldText newText
  ensure (result.utf8ByteSize ≤ maxWriteBytes) .tooLarge
  let change ← propagate (codeChange differ existing.displayPath source result .update)
  let mutation ← convert .ofWorkspace (workspace.resolveMutation host path)
  atomicWriteInner host workspace mutation result.toUTF8 (some (existing, source))
  presented (success
    ("replaced " ++ count.repr ++ " match(es) in " ++ existing.displayPath)
    (.object [("path", .string existing.displayPath), ("replacements", .ofNat count),
      ("writtenBytes", .ofNat result.utf8ByteSize)])) (some change)

/-- What `WriteTool::run` knows of the text that it replaces. -/
def existingText (host : Host) (workspace : WorkspaceRoot) (path : String)
    (target : ResolvedMutationPath) : FileToolM (Option (ResolvedExistingPath × String)) := do
  if target.targetExisted then
    let existing ← convert .ofWorkspace (workspace.resolveExisting host path)
    recover (do return some (existing, ← readBoundedUtf8 host workspace existing maxWriteBytes)) fun
      | .binaryFile | .invalidUtf8 | .tooLarge => some none
      | _ => none
  else return none

/-- The presentation of a write. A file whose text could not be read has none. -/
def writeChange (differ : String → String → TextDiff) (target : ResolvedMutationPath)
    (existing : Option (ResolvedExistingPath × String)) (content : String) :
    Except FileToolErrorCode (Option CodeChange) :=
  match existing with
  | some (existing, source) =>
    some <$> codeChange differ existing.displayPath source content .update
  | none =>
    if target.targetExisted then .ok none
    else some <$> codeChange differ target.displayPath "" content .create

/-- `WriteTool::run`, on the arguments of the invocation. -/
def WriteTool.run (host : Host) (differ : String → String → TextDiff) (workspace : WorkspaceRoot)
    (arguments : Value) : FileToolM ToolExecutionEvent := do
  let path ← propagate (stringArgument arguments "path")
  let content ← propagate (stringArgument arguments "content")
  ensure (content.utf8ByteSize ≤ maxWriteBytes) .tooLarge
  let target ← convert .ofWorkspace (workspace.resolveMutation host path)
  let existing ← existingText host workspace path target
  let change ← propagate (writeChange differ target existing content)
  atomicWriteInner host workspace target content.toUTF8 existing
  presented (success
    ("wrote " ++ content.utf8ByteSize.repr ++ " bytes to " ++ target.displayPath)
    (.object [("created", .bool (!target.targetExisted)), ("path", .string target.displayPath),
      ("writtenBytes", .ofNat content.utf8ByteSize)])) change

/-! ### What is read -/

section

variable {host : Host} {workspace : WorkspaceRoot} {state state' : HostState}

theorem frame_readBoundedUtf8 (target : ResolvedExistingPath) (maxBytes : Nat) :
    Frame HostState.tree (readBoundedUtf8 host workspace target maxBytes) :=
  ((workspace.frame_revalidateExisting host _).convert _).bind fun _ =>
    ((host.frame_ask _ _).mapErr _).bind fun _ => (Frame.ensure _ _).bind fun _ =>
    (Frame.ensure _ _).bind fun _ => ((host.frame_ask _ _).mapErr _).bind fun _ =>
    ((host.frame_ask _ _).mapErr _).bind fun _ =>
    ((workspace.frame_verifyOpenedExisting host _ _).convert _).bind fun _ =>
    ((host.frame_ask _ _).mapErr _).bind fun _ => (Frame.ensure _ _).bind fun _ =>
    (Frame.ensure _ _).bind fun _ => .okOr _ _

theorem toUTF8_of_fromUTF8? {bytes : ByteArray} {text : String}
    (decoded : String.fromUTF8? bytes = some text) : text.toUTF8 = bytes := by
  rw [String.fromUTF8?] at decoded
  split at decoded
  · cases decoded
    rfl
  · cases decoded

/-- What is read from a real path is all that the file there holds. -/
theorem of_readBoundedUtf8 {target : ResolvedExistingPath} {maxBytes : Nat} {source : String}
    (real : state.tree.IsReal target.hostPath)
    (ok : readBoundedUtf8 host workspace target maxBytes state = .ok source state') :
    ∃ identity permissions, state.tree.node target.hostPath =
        some (.file identity ⟨source.toUTF8, permissions⟩) ∧ source.utf8ByteSize ≤ maxBytes := by
  simp only [readBoundedUtf8, Host.metadata, Host.openFile, Host.openedMetadata, Host.readToEnd,
    bind_eq_ok, convert_eq_ok, Host.mapErr_ask_eq_ok, ensure_eq_ok, okOr_eq_ok] at ok
  obtain ⟨_, first, valid, node, _, ⟨-, known, rfl⟩, _, _, ⟨file, rfl⟩, _, _, ⟨short, rfl⟩, place,
    _, ⟨-, opened, rfl⟩, _, _, ⟨-, -, rfl⟩, _, second, verified, bytes, _, ⟨-, read, rfl⟩, _, _,
    ⟨fits, rfl⟩, _, _, ⟨-, rfl⟩, decoded, rfl⟩ := ok
  have same : first.tree = state.tree :=
    ((workspace.frame_revalidateExisting host target).of_ok valid)
  have same' : second.tree = first.tree := by
    simpa using (workspace.frame_verifyOpenedExisting host target _).of_ok verified
  rw [HostState.tree_after, same, host.lookup_of_isReal real] at opened
  cases opened
  rw [same] at known
  obtain ⟨_, found, some⟩ := Host.lookupNode_eq_ok.mp known
  cases (host.lookup_of_isReal real).symm.trans found
  rw [same', same, some] at read
  cases node with
  | directory | link => simp [FileNode.isFile] at file
  | file identity data =>
    have short : data.bytes.size ≤ maxBytes := of_decide_eq_true short
    have whole : data.bytes.extract 0 (maxBytes + 1) = data.bytes := by
      apply ByteArray.ext
      rw [ByteArray.data_extract]
      exact Array.extract_eq_self_of_le (Nat.le_succ_of_le short)
    simp only [FileNode.data?, Option.bind_some, whole, Except.ok.injEq] at read
    subst read
    have bytes := toUTF8_of_fromUTF8? decoded
    refine ⟨identity, data.permissions, by rw [some, bytes], ?_⟩
    rwa [← bytes] at short

/-! ### The temporary file -/

/-- The tree while a temporary file is in it, which was missing in the tree before. -/
structure Staged (before : HostTree) (place : List FileName) (bytes : ByteArray)
    (tree : HostTree) : Prop where
  leaf : before.IsLeaf place
  missing : before.node place = none
  staged : ∃ identity permissions,
    tree = before.set place (some (.file identity ⟨bytes, permissions⟩))

variable {before : HostTree} {directory : List FileName} {name : FileName} {bytes : ByteArray}
  {tree : HostTree} {place : List FileName} {α : Type} {temporary : TemporaryFile}
  {content : ByteArray} {expected : Option (ResolvedExistingPath × String)} {display : String}
  {x : FileToolM α}

theorem Staged.isDirectory
    (staged : Staged before (directory ++ [name]) bytes tree) : tree.isDirectory directory := by
  obtain ⟨identity, permissions, rfl⟩ := staged.staged
  rw [FileTree.isDirectory_set_of_ne (by simp)]
  simpa using staged.leaf.2.1

theorem Staged.node (staged : Staged before place bytes tree) :
    ∃ identity permissions, tree = before.set place (some (.file identity ⟨bytes, permissions⟩)) ∧
      tree.node place = some (.file identity ⟨bytes, permissions⟩) := by
  obtain ⟨identity, permissions, rfl⟩ := staged.staged
  refine ⟨identity, permissions, rfl, ?_⟩
  rw [FileTree.node_set staged.leaf, Function.update_self]

theorem Staged.removeFile (staged : Staged before (directory ++ [name]) bytes state.tree)
    (removes : ∀ calls, host.refuses calls .removeFile = false) :
    (resultState ((ignore (host.removeFile (directory ++ [name])) : FileToolM Unit) state)).tree =
      before := by
  obtain ⟨identity, permissions, tree, node⟩ := staged.node
  have removed : (host.removeFile (directory ++ [name]) : FileToolM _) state =
      .ok (.ok ()) { state.after 1 with tree := before } := by
    simp only [Host.removeFile, Host.change, removes, Bool.false_eq_true, if_false,
      host.lookupPlace_of_isDirectory staged.isDirectory, bind, Except.bind, node,
      FileNode.isDirectory]
    rw [tree, FileTree.set_set staged.leaf rfl,
      FileTree.set_none_of_missing staged.leaf staged.missing]
  rw [ignore, bind_run_of_ok removed]
  rfl

theorem ends_createTemporary (attempts : Nat) (isDirectory : before.isDirectory directory)
    (same : state.tree = before) :
    Ends (fun temporary state' => ∃ name, temporary.path = directory ++ [name] ∧
        temporary.file = directory ++ [name] ∧
        Staged before (directory ++ [name]) ByteArray.empty state'.tree)
      (fun _ state' => state'.tree = before) (createTemporary host directory attempts state) := by
  induction attempts generalizing state with
  | zero => exact same
  | succ attempts ih =>
    rw [createTemporary]
    have frame : Frame HostState.tree nextTempId := fun _ => rfl
    refine ((Ends.of_frame frame state).mono (fun _ _ h => h) fun _ _ h => h.trans same).bind ?_
    rintro id reached ⟨-, unchanged⟩
    have same := unchanged.trans same
    refine Host.ends_change.bind ?_
    rintro result reached' (⟨kind, rfl, unchanged⟩ | ⟨place, identity, rfl, created⟩)
    · cases kind with
      | alreadyExists => exact ih (unchanged.trans same)
      | notFound | other => exact unchanged.trans same
    · rw [same, host.lookupPlace_of_isDirectory isDirectory, except_bind_eq_ok] at created
      obtain ⟨_, found, created⟩ := created
      cases found
      split at created
      · cases created
      · rename_i missing
        obtain ⟨rfl, tree⟩ := Prod.mk.inj (Except.ok.inj created)
        have missing := Option.not_isSome_iff_eq_none.mp missing
        refine ⟨_, rfl, rfl, ⟨by simp, by simpa using isDirectory, ?_⟩, missing, identity, 0o600,
          tree.symm⟩
        rw [FileTree.isDirectory, missing]
        rfl

theorem ends_changeData {call : FileCall} {change : FileData → FileData}
    {bytes' : ByteArray} (staged : Staged before place bytes state.tree)
    (changes : ∀ permissions, (change ⟨bytes, permissions⟩).bytes = bytes') :
    Ends (fun _ state' => Staged before place bytes' state'.tree)
      (fun _ state' => Staged before place bytes state'.tree)
      ((mapErr (host.changeData call place change) fileCallFailed : FileToolM Unit) state) := by
  refine Host.ends_mapErr_change.mono ?_ ?_
  · rintro ⟨⟩ reached ⟨_, changed⟩
    obtain ⟨identity, permissions, tree, node⟩ := staged.node
    rw [node] at changed
    obtain ⟨-, changed⟩ := Prod.mk.inj (Except.ok.inj changed)
    refine ⟨staged.leaf, staged.missing, identity, (change ⟨bytes, permissions⟩).permissions, ?_⟩
    rw [← changed, tree, FileTree.set_set staged.leaf rfl, ← changes permissions]
  · intro _ reached same
    rwa [same]

/-- The content of one file is replaced, or the file is created, and nothing else changed. -/
def Replaced (before : HostTree) (place : List FileName) (bytes : ByteArray) (tree : HostTree) :
    Prop :=
  ∃ identity permissions, tree.node =
    Function.update before.node place (some (.file identity ⟨bytes, permissions⟩))

/-- Renaming the temporary file replaces the target in one step. -/
theorem ends_rename {target : FileName}
    (staged : Staged before (directory ++ [name]) bytes state.tree) :
    Ends (fun _ state' => Replaced before (directory ++ [target]) bytes state'.tree)
      (fun _ state' => Staged before (directory ++ [name]) bytes state'.tree)
      ((mapErr (host.rename (directory ++ [name]) (directory ++ [target]))
        fun _ => .atomicCommitFailed : FileToolM Unit) state) := by
  refine Host.ends_mapErr_change.mono ?_ ?_
  · rintro ⟨⟩ reached ⟨_, renamed⟩
    obtain ⟨identity, permissions, tree, node⟩ := staged.node
    rw [host.lookupPlace_of_isDirectory staged.isDirectory,
      host.lookupPlace_of_isDirectory staged.isDirectory] at renamed
    simp only [bind, Except.bind, node, FileNode.isDirectory, Bool.false_or] at renamed
    refine ⟨identity, permissions, ?_⟩
    split_ifs at renamed with isDirectory same
    · -- the target has the name of the temporary file
      obtain ⟨-, renamed⟩ := Prod.mk.inj (Except.ok.inj renamed)
      rw [← renamed, tree, ← same, FileTree.node_set staged.leaf]
    · obtain ⟨-, renamed⟩ := Prod.mk.inj (Except.ok.inj renamed)
      have leaf : state.tree.IsLeaf (directory ++ [target]) :=
        ⟨by simp, by simpa using staged.isDirectory, by simpa using isDirectory⟩
      rw [tree] at leaf renamed
      rw [← renamed]
      exact FileTree.node_move staged.leaf staged.missing rfl same leaf (by simp)
  · intro _ reached same
    rwa [same]

/-! ### Atomic writes -/

theorem frame_verifyUnchanged (expected : Option (ResolvedExistingPath × String)) :
    Frame HostState.tree (verifyUnchanged host workspace expected) := by
  cases expected with
  | none => exact .pure _
  | some pair => exact (frame_readBoundedUtf8 _ _).bind fun _ => .ensure _ _

/-- What goes wrong when the directory is synced is ignored. -/
theorem ends_syncParent {parent : List FileName} {E : FileToolErrorCode → HostState → Prop} :
    Ends (fun _ state' => state'.tree = state.tree) E (syncParent host parent state) := by
  rw [syncParent]
  refine Host.ends_ask.bind fun opened reached same => ?_
  cases opened with
  | ok | error => exact same

theorem frame_verifyIsFile (target : ResolvedMutationPath) :
    Frame HostState.tree (verifyIsFile host target) := by
  rw [verifyIsFile]
  split
  · exact ((host.frame_ask _ _).mapErr _).bind fun _ => .ensure _ _
  · exact .pure _

theorem frame_isDir (path : List FileName) :
    Frame HostState.tree (host.isDir path : FileToolM Bool) := by
  refine (host.frame_ask _ _).bind fun answer => ?_
  cases answer <;> exact .pure _

theorem Staged.ends_of_frame
    (staged : Staged before place bytes state.tree) (frame : Frame HostState.tree x) :
    Ends (fun _ state' => Staged before place bytes state'.tree)
      (fun _ state' => Staged before place bytes state'.tree) (x state) := by
  refine (Ends.of_frame frame state).mono ?_ ?_
  · rintro _ reached ⟨-, same⟩
    rwa [same]
  · intro _ reached same
    rwa [same]

theorem Staged.ends_copyPermissions {target : ResolvedMutationPath}
    (staged : Staged before temporary.file bytes state.tree) :
    Ends (fun _ state' => Staged before temporary.file bytes state'.tree)
      (fun _ state' => Staged before temporary.file bytes state'.tree)
      (copyPermissions host target temporary state) := by
  rw [copyPermissions]
  split
  · exact (staged.ends_of_frame ((host.frame_ask _ _).mapErr _)).bind fun _ _ staged =>
      ends_changeData staged fun _ => rfl
  · exact staged

theorem Staged.ends_writeAndCommit {target : ResolvedMutationPath} {last : FileName}
    (path : temporary.path = directory ++ [name]) (file : temporary.file = directory ++ [name])
    (hostPath : target.hostPath = directory ++ [last])
    (staged : Staged before temporary.file ByteArray.empty state.tree) :
    Ends (fun _ state' => Replaced before target.hostPath content state'.tree)
      (fun _ state' => ∃ bytes, Staged before temporary.path bytes state'.tree)
      (writeAndCommit host workspace target temporary content expected state) := by
  have bare (permissions : Nat) : (⟨ByteArray.empty, permissions⟩ : FileData).bytes ++ content = content :=
    ByteArray.empty_append
  have weaken {bytes : ByteArray} (reached : HostState)
      (staged : Staged before temporary.file bytes reached.tree) :
      ∃ bytes, Staged before temporary.path bytes reached.tree := ⟨bytes, by rwa [path, ← file]⟩
  rw [writeAndCommit]
  refine (staged.ends_copyPermissions.mono (fun _ _ h => h) fun _ => weaken).bind ?_
  intro _ _ staged
  refine ((ends_changeData staged bare).mono (fun _ _ h => h) fun _ => weaken).bind ?_
  intro _ _ staged
  refine ((staged.ends_of_frame ((host.frame_ask _ _).mapErr _)).mono (fun _ _ h => h)
    fun _ => weaken).bind ?_
  intro _ _ staged
  refine ((staged.ends_of_frame (frame_verifyUnchanged _)).mono (fun _ _ h => h)
    fun _ => weaken).bind ?_
  intro _ _ staged
  refine ((staged.ends_of_frame ((workspace.frame_revalidateMutation host _).convert _)).mono
    (fun _ _ h => h) fun _ => weaken).bind ?_
  intro _ _ staged
  rw [file] at staged
  rw [path, hostPath]
  refine ((ends_rename staged).mono (fun _ _ h => h) fun _ _ staged => ⟨content, staged⟩).bind ?_
  intro _ reached replaced
  refine ends_syncParent.mono (fun _ _ same => ?_) fun _ _ h => h
  rwa [same]

theorem ends_of_frame (frame : Frame HostState.tree x) (same : state.tree = before) :
    Ends (fun a state' => x state = .ok a state' ∧ state'.tree = before)
      (fun _ state' => state'.tree = before) (x state) :=
  (Ends.of_frame frame state).mono (fun _ _ h => ⟨h.1, h.2.trans same⟩) fun _ _ h => h.trans same

/-- The target is replaced, or the tree is as it was. -/
theorem ends_atomicWriteInner {target : ResolvedMutationPath} {candidate : List FileName}
    (removes : ∀ calls, host.refuses calls .removeFile = false)
    {found : HostState} (finds : FindsMutation host workspace found candidate target)
    (nonempty : candidate ≠ []) (same : state.tree = found.tree) :
    Ends (fun _ state' => IsTarget host found.tree candidate target.hostPath ∧
        Replaced found.tree target.hostPath content state'.tree)
      (fun _ state' => state'.tree = found.tree)
      (atomicWriteInner host workspace target content expected state) := by
  rw [atomicWriteInner]
  refine (ends_of_frame (.ensure _ _) same).bind fun _ _ ⟨_, same⟩ => ?_
  refine (ends_of_frame (.ensure _ _) same).bind fun _ _ ⟨named, same⟩ => ?_
  refine (ends_of_frame (frame_isDir _) same).bind fun isDir reached ⟨asked, same'⟩ => ?_
  refine (ends_of_frame (.ensure _ _) same').bind fun _ _ ⟨checked, same'⟩ => ?_
  obtain ⟨rfl, rfl⟩ := ensure_eq_ok.mp checked
  obtain ⟨named, rfl⟩ := ensure_eq_ok.mp named
  obtain ⟨node, parent, isDirectory⟩ := Host.of_isDir asked
  rw [same] at parent
  have directory := finds.parent_isDirectory nonempty parent isDirectory
  refine (ends_of_frame (frame_verifyIsFile target) same').bind fun _ _ ⟨_, same⟩ => ?_
  refine (ends_createTemporary 32 directory same).bind ?_
  rintro temporary reached' ⟨name, path, file, staged⟩
  obtain ⟨last, joined⟩ : ∃ last, target.hostPath = target.hostPath.dropLast ++ [last] :=
    ⟨_, (dropLast_append_getLast (by simpa using named)).symm⟩
  rw [← file] at staged
  refine ((staged.ends_writeAndCommit path file joined).onError ?_).mono
    (fun _ _ replaced => ⟨finds.isTarget nonempty directory, replaced⟩) fun _ _ h => h
  rintro _ failed ⟨bytes, staged⟩
  rw [path] at staged ⊢
  exact staged.removeFile removes

/-! ### Results of the tools -/

theorem utf8ByteSize_repr_count {n : Nat} (bound : n ≤ maxWriteBytes + 1) :
    n.repr.utf8ByteSize ≤ 80 :=
  utf8ByteSize_repr_le (by simp only [maxWriteBytes] at bound; omega)

/-- The display form of a path that a result may name. -/
structure IsDisplayPath (display : String) : Prop where
  short : display.utf8ByteSize ≤ 4096
  plain : display.toList.any isControl = false

theorem isDisplayPath_of_parse {path : String} {relative : ValidatedRelativePath}
    (parsed : parse path = .ok relative) : IsDisplayPath relative.display :=
  ⟨(display_of_parse parsed).2.1,
    (display_of_parse parsed).2.2⟩

theorem exists_success_edit (path : IsDisplayPath display) {count bytes : Nat}
    (few : count ≤ maxWriteBytes + 1) (small : bytes ≤ maxWriteBytes) :
    ∃ result, success ("replaced " ++ count.repr ++ " match(es) in " ++ display)
      (.object [("path", .string display), ("replacements", .ofNat count),
        ("writtenBytes", .ofNat bytes)]) = .finished result := by
  have encoded := encodedStringLength_le path.plain
  have short := path.short
  have digits := utf8ByteSize_repr_count few
  have digits' := utf8ByteSize_repr_count (small.trans (Nat.le_succ _))
  refine success_eq_finished (isBoundedText_of_plain ?_ ?_ ?_) ?_
  · intro none
    simpa using congrArg String.length none
  · simp only [String.toList_append, any_append, plain_repr, path.plain, Bool.or_false]
    decide
  · simp only [String.utf8ByteSize_append, maxTextBlockBytes]
    have : "replaced ".utf8ByteSize = 9 := by decide
    have : " match(es) in ".utf8ByteSize = 14 := by decide
    omega
  · have : encodedStringLength "path" = 6 := by decide
    have : encodedStringLength "replacements" = 14 := by decide
    have : encodedStringLength "writtenBytes" = 14 := by decide
    simp only [isInvocationArguments, isObject, encodedLength, fieldsLength,
      ofNat, presentedDepth, fieldsPresentedDepth, Bool.and_eq_true,
      decide_eq_true_eq]
    exact ⟨⟨trivial, by omega⟩, by omega⟩

theorem exists_success_write (path : IsDisplayPath display) {bytes : Nat}
    (small : bytes ≤ maxWriteBytes) (created : Bool) :
    ∃ result, success ("wrote " ++ bytes.repr ++ " bytes to " ++ display)
      (.object [("created", .bool created), ("path", .string display),
        ("writtenBytes", .ofNat bytes)]) = .finished result := by
  have encoded := encodedStringLength_le path.plain
  have short := path.short
  have digits := utf8ByteSize_repr_count (small.trans (Nat.le_succ _))
  refine success_eq_finished (isBoundedText_of_plain ?_ ?_ ?_) ?_
  · intro none
    simpa using congrArg String.length none
  · simp only [String.toList_append, any_append, plain_repr, path.plain, Bool.or_false]
    decide
  · simp only [String.utf8ByteSize_append, maxTextBlockBytes]
    have : "wrote ".utf8ByteSize = 6 := by decide
    have : " bytes to ".utf8ByteSize = 10 := by decide
    omega
  · have : encodedStringLength "path" = 6 := by decide
    have : encodedStringLength "created" = 9 := by decide
    have : encodedStringLength "writtenBytes" = 14 := by decide
    have : (if created = true then 4 else 5) ≤ 5 := by split <;> omega
    simp only [isInvocationArguments, isObject, encodedLength, fieldsLength,
      ofNat, presentedDepth, fieldsPresentedDepth, Bool.and_eq_true,
      decide_eq_true_eq]
    exact ⟨⟨trivial, by omega⟩, by omega⟩

/-! ### All or nothing -/

/-- The path leads to a file with this text. -/
def HoldsText (host : Host) (tree : HostTree) (path : List FileName) (text : String) : Prop :=
  ∃ place identity permissions, host.lookup path tree = .ok place ∧
    tree.node place = some (.file identity ⟨text.toUTF8, permissions⟩)

/-- What an edit did: each occurrence of the old text, taken from left to right, is replaced, and
there are as many as expected. Nothing else in the tree changed. -/
def FileEdited (host : Host) (workspace : WorkspaceRoot) (arguments : Value) (before after : HostTree) :
    Prop :=
  ∃ path oldText newText expected relative source place starts,
    stringArgument arguments "path" = .ok path ∧ stringArgument arguments "oldText" = .ok oldText ∧
    stringArgument arguments "newText" = .ok newText ∧
    integerArgument arguments "expectedReplacements" = .ok expected ∧
    parse path = .ok relative ∧
    HoldsText host before (workspace.hostPath ++ relative.components) source ∧
    IsTarget host before (workspace.hostPath ++ relative.components) place ∧
    Scan.LeftToRight oldText.toList source.toList 0 starts ∧ starts.length = expected.getD 1 ∧
    Replaced before place (String.ofList (Scan.splice source.toList oldText.toList.length
      newText.toList 0 starts)).toUTF8 after

/-- What a write did: the target holds the content, and nothing else in the tree changed. -/
def FileWritten (host : Host) (workspace : WorkspaceRoot) (arguments : Value) (before after : HostTree) :
    Prop :=
  ∃ path content relative place, stringArgument arguments "path" = .ok path ∧
    stringArgument arguments "content" = .ok content ∧
    parse path = .ok relative ∧
    IsTarget host before (workspace.hostPath ++ relative.components) place ∧
    Replaced before place content.toUTF8 after

/-- An event that is a result comes with the work done, any other event with the tree as it was. -/
def EventOutcome (work : HostTree → HostTree → Prop) (before : HostTree) :
    ToolExecutionEvent → HostTree → Prop
  | .finished _, after => work before after
  | .progress _, after => after = before
  | .failed _, after => after = before

/-- A call did its work if it ended with a result, and nothing if it ended otherwise. -/
def AllOrNothing (work : HostTree → HostTree → Prop) (before : HostTree)
    (result : EStateM.Result FileToolErrorCode HostState ToolExecutionEvent) : Prop :=
  Ends (fun event state => EventOutcome work before event state.tree)
    (fun _ state => state.tree = before) result

variable {differ : String → String → TextDiff} {arguments : Value}

theorem allOrNothing_edit (removes : ∀ calls, host.refuses calls .removeFile = false) :
    AllOrNothing (FileEdited host workspace arguments) state.tree
      (EditTool.run host differ workspace arguments state) := by
  rw [EditTool.run]
  refine (ends_of_frame (.propagate _) rfl).bind ?_
  rintro path _ ⟨run, same⟩
  obtain ⟨pathArgument, -⟩ := propagate_eq_ok.mp run
  refine (ends_of_frame (.propagate _) same).bind ?_
  rintro oldText _ ⟨run, same⟩
  obtain ⟨oldArgument, -⟩ := propagate_eq_ok.mp run
  refine (ends_of_frame (.propagate _) same).bind ?_
  rintro newText _ ⟨run, same⟩
  obtain ⟨newArgument, -⟩ := propagate_eq_ok.mp run
  refine (ends_of_frame (.propagate _) same).bind ?_
  rintro expected _ ⟨run, same⟩
  obtain ⟨expectedArgument, -⟩ := propagate_eq_ok.mp run
  refine (ends_of_frame ((workspace.frame_resolveExisting host path).convert _) same).bind ?_
  rintro existing _ ⟨run, same'⟩
  obtain ⟨-, finds⟩ := of_resolveExisting (convert_eq_ok.mp run)
  rw [same] at finds
  obtain ⟨relative, parsed, found, display⟩ := finds.parsed
  refine (ends_of_frame (frame_readBoundedUtf8 existing _) same').bind ?_
  rintro source _ ⟨run, same⟩
  obtain ⟨identity, permissions, node, bounded⟩ := of_readBoundedUtf8
    (by rw [same']; exact Host.isReal_of_lookup found) run
  rw [same'] at node
  refine (ends_of_frame (.ensure _ _) same).bind ?_
  rintro _ _ ⟨_, same⟩
  refine (ends_of_frame (.ensure _ _) same).bind ?_
  rintro _ _ ⟨run, same⟩
  have count : (Scan.matchIndices oldText.toList 0 source.toList).length = expected.getD 1 := by
    simpa using (ensure_eq_ok.mp run).1
  refine (ends_of_frame (.ensure _ _) same).bind ?_
  rintro _ _ ⟨run, same⟩
  have small : (replaceText source oldText newText).utf8ByteSize ≤ maxWriteBytes := by
    simpa using (ensure_eq_ok.mp run).1
  refine (ends_of_frame (.propagate _) same).bind ?_
  rintro change _ ⟨_, same⟩
  refine (ends_of_frame ((workspace.frame_resolveMutation host path).convert _) same).bind ?_
  rintro mutation _ ⟨run, same'⟩
  obtain ⟨-, -, relative', parsed', nonempty, -, finds'⟩ :=
    of_resolveMutation (convert_eq_ok.mp run)
  cases parsed.symm.trans parsed'
  refine ((ends_atomicWriteInner removes finds' (by simp [nonempty]) (same'.trans same.symm)).mono
    (fun _ _ h => h) fun _ _ h => h.trans same).bind ?_
  rintro _ reached ⟨target, replaced⟩
  rw [same] at target replaced
  have few := (Scan.length_matchIndices_le oldText.toList source.toList 0).trans
    (Nat.succ_le_succ ((length_le_utf8ByteSize source).trans bounded))
  obtain ⟨result, finished⟩ := exists_success_edit (isDisplayPath_of_parse parsed) few small
  rw [display, finished]
  exact ⟨path, oldText, newText, expected, relative, source, mutation.hostPath, _, pathArgument,
    oldArgument, newArgument, expectedArgument, parsed, ⟨_, identity, permissions, found, node⟩,
    target, Scan.leftToRight_matchIndices _ _ _, count, replaced⟩

theorem frame_existingText (path : String) (target : ResolvedMutationPath) :
    Frame HostState.tree (existingText host workspace path target) := by
  rw [existingText]
  split
  · exact ((workspace.frame_resolveExisting host path).convert _).bind fun existing =>
      ((frame_readBoundedUtf8 existing maxWriteBytes).bind fun _ => .pure _).recover _
  · exact .pure _

theorem allOrNothing_write (removes : ∀ calls, host.refuses calls .removeFile = false) :
    AllOrNothing (FileWritten host workspace arguments) state.tree
      (WriteTool.run host differ workspace arguments state) := by
  rw [AllOrNothing, WriteTool.run]
  refine (ends_of_frame (.propagate _) rfl).bind fun path _ ⟨run, same⟩ => ?_
  obtain ⟨pathArgument, -⟩ := propagate_eq_ok.mp run
  refine (ends_of_frame (.propagate _) same).bind fun content _ ⟨run, same⟩ => ?_
  obtain ⟨contentArgument, -⟩ := propagate_eq_ok.mp run
  refine (ends_of_frame (.ensure _ _) same).bind fun _ _ ⟨run, same⟩ => ?_
  have small : content.utf8ByteSize ≤ maxWriteBytes := by simpa using (ensure_eq_ok.mp run).1
  refine (ends_of_frame ((workspace.frame_resolveMutation host path).convert _) same).bind
    fun target _ ⟨run, same'⟩ => ?_
  obtain ⟨-, -, relative, parsed, nonempty, display, finds⟩ :=
    of_resolveMutation (convert_eq_ok.mp run)
  refine (ends_of_frame (frame_existingText path target) same').bind fun existing _ ⟨_, same'⟩ => ?_
  refine (ends_of_frame (.propagate _) same').bind fun change _ ⟨_, same'⟩ => ?_
  refine ((ends_atomicWriteInner removes finds (by simp [nonempty]) (same'.trans same.symm)).mono
    (fun _ _ h => h) fun _ _ h => h.trans same).bind fun _ reached ⟨isTarget, replaced⟩ => ?_
  rw [same] at isTarget replaced
  obtain ⟨result, finished⟩ := exists_success_write (isDisplayPath_of_parse parsed) small
    (!target.targetExisted)
  rw [display, finished]
  have written : FileWritten host workspace arguments state.tree reached.tree :=
    ⟨path, content, relative, target.hostPath, pathArgument, contentArgument, parsed, isTarget,
      replaced⟩
  cases change with
  | none | some => exact written

end

/-- A call of the edit or of the write tool does all of its work if it ends with a result, and
leaves the tree as it was if it ends with an error or a failure. -/
theorem edit_write_all_or_nothing (host : Host)
    (removes : ∀ calls, host.refuses calls .removeFile = false)
    (differ : String → String → TextDiff) (workspace : WorkspaceRoot) (arguments : Value)
    (state : HostState) :
    AllOrNothing (FileEdited host workspace arguments) state.tree
        (EditTool.run host differ workspace arguments state) ∧
      AllOrNothing (FileWritten host workspace arguments) state.tree
        (WriteTool.run host differ workspace arguments state) :=
  ⟨allOrNothing_edit removes, allOrNothing_write removes⟩

/-- A differ that reports no lines. -/
def silentDiffer (_ _ : String) : TextDiff where
  groups := []
  unified _ := ""

/-- The arguments of an edit of the file `d/x` through the link `l`. -/
def linkedEdit : Value :=
  .object [("newText", .string "new"), ("oldText", .string "o"), ("path", .string "l/x")]

/-- The event of a call is a result. -/
def isFinished : EStateM.Result FileToolErrorCode HostState ToolExecutionEvent → Bool
  | .ok (.finished _) _ => true
  | _ => false

theorem exists_ok_of_isFinished
    {result : EStateM.Result FileToolErrorCode HostState ToolExecutionEvent}
    (finished : isFinished result = true) : ∃ output state, result = .ok (.finished output) state :=
  match result with
  | .ok (.finished output) state => ⟨output, state, rfl⟩
  | .ok (.progress _) _ | .ok (.failed _) _ | .error _ _ => nomatch finished

/-- An edit through a link that succeeds. -/
theorem edit_write_all_or_nothing_linked :
    ∃ result state', EditTool.run (refusingHost fun _ _ => false) silentDiffer linkedRoot linkedEdit
        linkedState = .ok (.finished result) state' ∧
      FileEdited (refusingHost fun _ _ => false) linkedRoot linkedEdit linkedTree state'.tree := by
  have finished : isFinished (EditTool.run (refusingHost fun _ _ => false) silentDiffer linkedRoot
      linkedEdit linkedState) = true := by decide +kernel
  obtain ⟨result, state', run⟩ := exists_ok_of_isFinished finished
  have outcome := (edit_write_all_or_nothing (refusingHost fun _ _ => false) (fun _ => rfl)
    silentDiffer linkedRoot linkedEdit linkedState).1
  rw [run] at outcome
  exact ⟨result, state', run, outcome⟩

/-! ### Unambiguous edits -/

/-- The number of bytes of a text. -/
def byteLength (text : List Char) : Nat := (text.map Char.utf8Size).sum

/-- The old text stands at this byte position of the source. -/
def OccursAt (oldText source : List Char) (position : Nat) : Prop :=
  ∃ front back, source = front ++ oldText ++ back ∧ byteLength front = position

theorem byteLength_append (front back : List Char) :
    byteLength (front ++ back) = byteLength front + byteLength back := by
  simp [byteLength]

theorem byteLength_pos {text : List Char} (nonempty : text ≠ []) : 0 < byteLength text := by
  obtain ⟨c, rest, rfl⟩ := exists_cons_of_ne_nil nonempty
  have positive := c.utf8Size_pos
  rw [byteLength, map_cons, sum_cons]
  omega

/-- Where reading from left to right takes one occurrence, it is the only one exactly if no two
occurrences overlap. -/
theorem existsUnique_occursAt_iff {oldText source : List Char} {start : Nat}
    (taken : Scan.LeftToRight oldText source 0 [start]) :
    (∃! position, OccursAt oldText source position) ↔
      ∀ p q, OccursAt oldText source p → OccursAt oldText source q → p < q →
        p + byteLength oldText ≤ q := by
  constructor
  · rintro ⟨only, -, unique⟩ p q hp hq lt
    rw [unique p hp, unique q hq] at lt
    exact absurd lt (lt_irrefl only)
  intro apart
  obtain ⟨⟨back, split⟩, bound, -⟩ := (taken.mem_iff start).mp (mem_singleton_self _)
  have first : source = source.take start ++ oldText ++ back := by
    rw [append_assoc, split, take_append_drop]
  refine ⟨_, ⟨_, back, first, rfl⟩, ?_⟩
  rintro _ ⟨front, rest, other, rfl⟩
  suffices same : front.length = start by
    rw [← same, other, append_assoc, take_left]
  refine mem_singleton.mp ((taken.mem_iff _).mpr ⟨⟨rest, ?_⟩, ?_, Nat.zero_le _, ?_⟩)
  · rw [other, append_assoc, drop_left]
  · simp only [other, length_append]
    omega
  -- A later occurrence inside the one that is taken would start a proper beginning of the old text.
  intro earlier mem lt
  obtain rfl := mem_singleton.mp mem
  have length : (source.take earlier).length = earlier := length_take_of_le bound
  obtain ⟨middle, rfl⟩ : source.take earlier <+: front :=
    prefix_of_prefix_length_le (List.take_prefix _ _)
      ⟨oldText ++ rest, by rw [← append_assoc, other]⟩ (by omega)
  rw [length_append, length] at lt ⊢
  have follow : oldText ++ back = middle ++ (oldText ++ rest) := by
    rw [← append_right_inj (source.take earlier), ← append_assoc, ← first]
    simpa only [append_assoc] using other
  have nonempty : middle ≠ [] := fun empty => by simp [empty] at lt
  have positions := apart _ _ ⟨_, back, first, rfl⟩ ⟨_, rest, other, rfl⟩
  rw [byteLength_append] at positions
  have behind := positions (Nat.lt_add_of_pos_right (byteLength_pos nonempty))
  by_contra inside
  obtain ⟨tail, rfl⟩ : middle <+: oldText := prefix_of_prefix_length_le
    ⟨oldText ++ rest, follow.symm⟩ (prefix_append _ _) (by omega)
  rw [byteLength_append] at behind
  have empty : tail = [] := by
    by_contra some
    have positive := byteLength_pos some
    omega
  exact inside (by simp [empty])

theorem toUTF8_inj {text text' : String} (same : text.toUTF8 = text'.toUTF8) : text = text' :=
  String.toByteArray_inj.mp same

section

variable {host : Host} {differ : String → String → TextDiff} {workspace : WorkspaceRoot}
  {arguments : Value} {state state' : HostState} {event : ToolExecutionEvent}

/-- An edit that succeeds without an expected number of replacements has one match, counted without
overlaps. It is unambiguous exactly if no two occurrences of the old text overlap. -/
theorem edit_unambiguous_iff
    (run : EditTool.run host differ workspace arguments state = .ok event state')
    (unset : integerArgument arguments "expectedReplacements" = .ok none)
    {path oldText source : String} {relative : ValidatedRelativePath}
    (oldArgument : stringArgument arguments "oldText" = .ok oldText)
    (pathArgument : stringArgument arguments "path" = .ok path)
    (parsed : parse path = .ok relative)
    (content : HoldsText host state.tree (workspace.hostPath ++ relative.components) source) :
    (∃! position, OccursAt oldText.toList source.toList position) ↔
      ∀ p q, OccursAt oldText.toList source.toList p → OccursAt oldText.toList source.toList q →
        p < q → p + byteLength oldText.toList ≤ q := by
  simp only [EditTool.run, bind_eq_ok, propagate_eq_ok, convert_eq_ok, ensure_eq_ok] at run
  obtain ⟨_, _, ⟨hpath, rfl⟩, _, _, ⟨hold, rfl⟩, _, _, ⟨-, rfl⟩, _, _, ⟨hexpected, rfl⟩, existing, _,
    resolved, text, _, read, _, _, ⟨-, rfl⟩, _, _, ⟨counted, rfl⟩, -⟩ := run
  cases pathArgument.symm.trans hpath
  cases oldArgument.symm.trans hold
  cases unset.symm.trans hexpected
  obtain ⟨rfl, finds⟩ := of_resolveExisting resolved
  obtain ⟨_, parsed', found, -⟩ := finds.parsed
  cases parsed.symm.trans parsed'
  obtain ⟨_, _, node, -⟩ := of_readBoundedUtf8
    (by rw [HostState.tree_after]; exact Host.isReal_of_lookup found) read
  rw [HostState.tree_after] at node
  obtain ⟨place, _, _, found', node'⟩ := content
  cases found.symm.trans found'
  have same := node.symm.trans node'
  simp only [Option.some.injEq, FileNode.file.injEq, FileData.mk.injEq] at same
  obtain rfl := toUTF8_inj same.2.1
  obtain ⟨start, starts⟩ := length_eq_one_iff.mp (beq_iff_eq.mp counted)
  exact existsUnique_occursAt_iff (starts ▸ Scan.leftToRight_matchIndices _ _ 0)

end

/-- The state with another text in the file `d/x`. -/
def textState (text : String) : HostState where
  tree := linkedTree.set ["w".toList, "d".toList, "x".toList]
    (some (.file 3 ⟨text.toUTF8, 0o644⟩))
  calls := 0
  nextTempId := 0

/-- The arguments of an edit of the file `d/x` that looks for `aa`. -/
def pairEdit : Value :=
  .object [("newText", .string "b"), ("oldText", .string "aa"), ("path", .string "d/x")]

/-- In `aaa` the text `aa` stands at two positions, and the edit is done. -/
theorem edit_ambiguous : isFinished (EditTool.run (refusingHost fun _ _ => false)
      silentDiffer linkedRoot pairEdit (textState "aaa")) = true ∧
    OccursAt "aa".toList "aaa".toList 0 ∧ OccursAt "aa".toList "aaa".toList 1 :=
  ⟨by decide +kernel, ⟨[], ['a'], by decide, rfl⟩, ['a'], [], by decide, rfl⟩

/-- In `aa` it stands at one position. -/
theorem edit_unambiguous_iff_once : isFinished (EditTool.run (refusingHost fun _ _ => false)
      silentDiffer linkedRoot pairEdit (textState "aa")) = true ∧
    ∃! position, OccursAt "aa".toList "aa".toList position := by
  have finished : isFinished (EditTool.run (refusingHost fun _ _ => false) silentDiffer linkedRoot
      pairEdit (textState "aa")) = true := by decide +kernel
  obtain ⟨result, state', run⟩ := exists_ok_of_isFinished finished
  have parsed : parse "d/x" =
    .ok ⟨["d".toList, "x".toList], by decide, by decide⟩ := rfl
  refine ⟨finished, (edit_unambiguous_iff run rfl rfl rfl parsed
    ⟨["w".toList, "d".toList, "x".toList], 3, 0o644, by decide +kernel, rfl⟩).mpr ?_⟩
  rintro _ _ ⟨front, back, whole, rfl⟩ ⟨front', back', whole', rfl⟩ lt
  have lengths := congrArg length whole'
  simp only [length_append, String.length_toList] at lengths
  have empty : front' = [] := eq_nil_of_length_eq_zero (by omega)
  rw [empty] at lt
  exact absurd lt (Nat.not_lt_zero _)

end TeaRs
