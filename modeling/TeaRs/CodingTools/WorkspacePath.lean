import TeaRs.Lib.Segments
import TeaRs.Lib.StateError
import TeaRs.Tools.Registry

/-!
# Workspace paths

The paths that a model names are relative to the workspace (`tea-coding-tools/src/path.rs`). A path
is checked and normalized component by component before it becomes the locator of a resource, so two
locators name the same place only if they are the same text.

## Main definitions

* `ValidatedRelativePath`, `ValidatedRelativePath.parse`.
* `resolveWorkspaceFile`: the resources of a tool with a `path` argument.
* `ToolResource.IsWorkspacePath`: a path of the workspace in normal form.

## Main results

* `ToolRegistry.validate_workspaceFile`: a validated call of a file tool uses the workspace path
  that was checked.
-/

namespace TeaRs

open List

/-- `WorkspacePathErrorCode`. Parsing raises the first five. -/
inductive WorkspacePathErrorCode where
  | absolutePath | parentTraversal | invalidPath | pathTooLong | tooManyComponents
  | workspaceNotFound | workspaceNotDirectory | targetNotFound | workspaceRootMutation
  | outsideWorkspace | parentNotDirectory | unresolvableTarget | pathChanged
  | capabilityMismatch | filesystemFailure
  deriving DecidableEq, Repr

/-- `MAX_WORKSPACE_PATH_BYTES`. -/
def maxWorkspacePathBytes : Nat := 4096

/-- `MAX_WORKSPACE_PATH_COMPONENTS`. -/
def maxWorkspacePathComponents : Nat := 256

/-- `looks_like_windows_prefix`. -/
def looksLikeWindowsPrefix (input : List Char) : Bool :=
  (match input with
    | drive :: ':' :: _ => drive.isAlpha
    | _ => false) || input.contains '\\'

/-- `ValidatedRelativePath`, by its components. -/
structure ValidatedRelativePath where
  components : List (List Char)
  proper : ∀ component ∈ components, component ≠ [] ∧ '/' ∉ component
  named : ['.'] ∉ components

namespace ValidatedRelativePath

/-- `Path::components` of a relative path, without the current directory. -/
def pathComponents (input : List Char) : List (List Char) :=
  (segments '/' input).filter (· != ['.'])

/-- The checks of the loop over the components. -/
def checkComponents : (seen : Nat) → List (List Char) → Except WorkspacePathErrorCode Unit
  | _, [] => .ok ()
  | seen, component :: rest =>
    if component = ['.', '.'] then .error .parentTraversal
    else if seen = maxWorkspacePathComponents then .error .tooManyComponents
    else if component.contains '\\' then .error .invalidPath
    else checkComponents (seen + 1) rest

/-- `ValidatedRelativePath::parse`. -/
def parse (input : String) : Except WorkspacePathErrorCode ValidatedRelativePath := do
  if input.isEmpty || input.toList.any isControl || looksLikeWindowsPrefix input.toList then
    throw .invalidPath
  if maxWorkspacePathBytes < input.utf8ByteSize then throw .pathTooLong
  if input.toList.head? = some '/' then throw .absolutePath
  checkComponents 0 (pathComponents input.toList)
  return {
    components := pathComponents input.toList
    proper := fun _ h => proper_of_mem_segments (mem_of_mem_filter h)
    named := by simp [pathComponents] }

theorem parent_notMem_of_checkComponents {seen : Nat} {components : List (List Char)}
    (ok : checkComponents seen components = .ok ()) : ['.', '.'] ∉ components := by
  induction components generalizing seen with
  | nil => simp
  | cons component rest ih =>
    rw [checkComponents] at ok
    split_ifs at ok with up
    simp [Ne.symm up, ih ok]

theorem of_parse {input : String} {path : ValidatedRelativePath} (ok : parse input = .ok path) :
    input.toList.any isControl = false ∧ input.utf8ByteSize ≤ maxWorkspacePathBytes ∧
      path.components = pathComponents input.toList ∧ ['.', '.'] ∉ path.components := by
  rw [parse] at ok
  -- only the branch on which no check throws returns a path
  split_ifs at ok <;> try contradiction
  rename_i invalid absolute long
  obtain ⟨checked, passes, ok⟩ := StateError.except_bind_eq_ok.mp ok
  cases ok
  simp only [Bool.or_eq_true, not_or, Bool.not_eq_true] at invalid
  exact ⟨invalid.1.2, Nat.le_of_not_lt long, rfl, parent_notMem_of_checkComponents passes⟩

theorem parent_notMem_of_parse {input : String} {path : ValidatedRelativePath}
    (ok : parse input = .ok path) : ['.', '.'] ∉ path.components := (of_parse ok).2.2.2

/-- `display`. -/
def display (path : ValidatedRelativePath) : String :=
  if path.components.isEmpty then "."
  else String.ofList (['/'].intercalate path.components)

end ValidatedRelativePath

theorem ValidatedRelativePath.display_of_parse {input : String} {path : ValidatedRelativePath}
    (ok : parse input = .ok path) : path.display ≠ "" ∧
      path.display.utf8ByteSize ≤ maxWorkspacePathBytes ∧
      path.display.toList.any isControl = false := by
  obtain ⟨plain, short, components, -⟩ := of_parse ok
  rw [display]
  split_ifs with empty
  · exact ⟨by decide, by decide, by decide⟩
  · have sublist : (['/'].intercalate path.components).Sublist input.toList := by
      rw [components, pathComponents, segments]
      have joined : ['/'].intercalate (input.toList.splitOn '/') = input.toList :=
        intercalate_splitOn '/'
      conv_rhs => rw [← joined]
      exact intercalate_sublist (filter_sublist.trans filter_sublist)
    refine ⟨fun none => ?_, (utf8ByteSize_le_of_sublist ?_).trans short, ?_⟩
    · have joined : ['/'].intercalate path.components = [] := by simpa using congrArg String.toList none
      obtain ⟨part, parts, split⟩ := exists_cons_of_ne_nil (by simpa using empty)
      have within : (['/'].intercalate [part]).Sublist (['/'].intercalate ([part] ++ parts)) :=
        intercalate_sublist (sublist_append_left _ _)
      rw [singleton_append, ← split, joined] at within
      exact (path.proper part (by simp [split])).1 (by simpa [intercalate] using within)
    · rwa [String.toList_ofList]
    · rw [String.toList_ofList, any_eq_false]
      exact fun c mem => any_eq_false.mp plain c (sublist.subset mem)

/-! ### Resources -/

/-- A file resource whose locator is a path of the workspace in normal form. -/
def ToolResource.IsWorkspacePath (resource : ToolResource) : Prop :=
  resource.scheme = "file" ∧ IsNormal '/' resource.locator.toList ∧
    ["workspace".toList] <+: segments '/' resource.locator.toList

instance (resource : ToolResource) : Decidable resource.IsWorkspacePath :=
  inferInstanceAs (Decidable (_ ∧ _ ∧ _))

theorem display_eq_dot_iff (path : ValidatedRelativePath) :
    path.display = "." ↔ path.components = [] := by
  rw [ValidatedRelativePath.display]
  split_ifs with empty
  · simpa using empty
  · refine iff_of_false (fun dot => ?_) (by simpa using empty)
    have dot : ['/'].intercalate path.components = ['.'] := by
      rw [← String.toList_ofList (l := ['/'].intercalate path.components), dot]
      rfl
    have named := path.named
    have proper := path.proper
    cases components : path.components with
    | nil => simp [components] at empty
    | cons part parts =>
      rw [components] at dot named proper
      cases parts with
      | nil => exact named (by simp [intercalate] at dot; simp [dot])
      | cons next parts =>
        have nonempty := (proper part mem_cons_self).1
        have length := congrArg length dot
        simp only [intercalate, intersperse_cons_cons, flatten_cons,
          length_append, length_cons, length_nil] at length
        have := length_pos_iff.mpr nonempty
        omega

/-- The locator of a workspace path. -/
def workspaceLocator (path : ValidatedRelativePath) : String :=
  if path.display = "." then "/workspace" else "/workspace/" ++ path.display

/-- `WorkspaceFileResourceResolver::resolve`. -/
def resolveWorkspaceFile (accesses : List ToolResourceAccess) : ToolResourceResolver :=
  fun _ arguments =>
    match ValidatedRelativePath.parse ((arguments.getStr? "path").getD ".") with
    | .error _ => .error .unresolved
    | .ok path => accesses.mapM (ToolResource.new "file" (workspaceLocator path))

theorem toList_workspaceLocator (path : ValidatedRelativePath) : (workspaceLocator path).toList =
    ("workspace".toList :: path.components).flatMap fun part => '/' :: part := by
  rw [workspaceLocator, flatMap_cons]
  split_ifs with dot
  · rw [(display_eq_dot_iff path).mp dot]
    rfl
  · obtain ⟨part, parts, split⟩ := exists_cons_of_ne_nil (mt (display_eq_dot_iff path).mpr dot)
    rw [ValidatedRelativePath.display, split, String.toList_append]
    simp [intercalate_cons]

theorem segments_workspaceLocator (path : ValidatedRelativePath) :
    segments '/' (workspaceLocator path).toList = "workspace".toList :: path.components := by
  rw [toList_workspaceLocator, segments_flatMap]
  exact forall_mem_cons.mpr ⟨by decide +kernel, path.proper⟩

theorem isWorkspacePath_of_locator {resource : ToolResource} {path : ValidatedRelativePath}
    (file : resource.scheme = "file") (locator : resource.locator = workspaceLocator path) :
    resource.IsWorkspacePath := by
  rw [ToolResource.IsWorkspacePath, IsNormal, locator, segments_workspaceLocator]
  exact ⟨file, (toList_workspaceLocator path).symm, path.components, rfl⟩

theorem of_resolveWorkspaceFile {accesses : List ToolResourceAccess} {name : ToolName}
    {arguments : Value} {resources : List ToolResource}
    (ok : resolveWorkspaceFile accesses name arguments = .ok resources) :
    ∃ path, ValidatedRelativePath.parse ((arguments.getStr? "path").getD ".") = .ok path ∧
      (∀ resource ∈ resources, resource.scheme = "file" ∧
        resource.locator = workspaceLocator path) ∧
      resources.map (·.access) = accesses := by
  rw [resolveWorkspaceFile] at ok
  split at ok
  · cases ok
  · rename_i path parsed
    refine ⟨path, parsed, ?_⟩
    have images := StateError.forall₂_of_mapM ok
    clear ok
    induction images with
    | nil => simp
    | cons new _ ih =>
      rw [ToolResource.new] at new
      split_ifs at new
      cases new
      simpa using ih

/-- The resources of a validated call of a file tool are those of its checked path, with the
accesses that the tool declares. -/
theorem ToolRegistry.validate_workspaceFile {registry : ToolRegistry} {registered : RegisteredTool}
    {accesses : List ToolResourceAccess} {executor : ToolExecutor} {invocation : ToolInvocation}
    {validated : ValidatedToolInvocation}
    (found : registry.tools invocation.name = some registered)
    (parts : registered.binding.clientParts = some (resolveWorkspaceFile accesses, executor))
    (ok : registry.validate invocation = .ok validated) :
    ∃ path, ValidatedRelativePath.parse ((invocation.arguments.getStr? "path").getD ".") =
        .ok path ∧ ['.', '.'] ∉ path.components ∧
      (∀ resource ∈ validated.resources, resource.IsWorkspacePath ∧
        segments '/' resource.locator.toList = "workspace".toList :: path.components) ∧
      ∀ access, access ∈ accesses ↔ ∃ resource ∈ validated.resources, resource.access = access := by
  simp only [validate, found, parts] at ok
  split_ifs at ok
  split at ok
  · cases ok
  · rename_i resources resolved
    obtain ⟨path, parsed, located, rfl⟩ := of_resolveWorkspaceFile resolved
    split_ifs at ok
    cases ok
    refine ⟨path, parsed, ValidatedRelativePath.parent_notMem_of_parse parsed, ?_, ?_⟩
    · intro resource used
      obtain ⟨file, locator⟩ := located resource (mem_sortDedup.mp used)
      exact ⟨isWorkspacePath_of_locator file locator, locator ▸ segments_workspaceLocator path⟩
    · simp [mem_sortDedup]

/-- A tool that reads and writes the workspace itself. -/
theorem ToolRegistry.validate_workspaceFile_readWrite :
    let registry : ToolRegistry := ⟨fun _ => some ⟨readSpec, fun _ => true, fun _ => true,
      .client (resolveWorkspaceFile [.read, .write]) ⟨fun _ => none, fun _ _ => []⟩⟩⟩
    ∃ validated, registry.validate (readInvocation ⟨0⟩).invocation = .ok validated ∧
      ∀ resource ∈ validated.resources, resource.IsWorkspacePath := by
  intro registry
  have passes : (registry.validate (readInvocation ⟨0⟩).invocation).isOk = true := by decide +kernel
  cases ok : registry.validate (readInvocation ⟨0⟩).invocation with
  | error => simp [ok, Except.isOk, Except.toBool] at passes
  | ok validated =>
    obtain ⟨_, -, -, located, -⟩ := validate_workspaceFile rfl rfl ok
    exact ⟨validated, rfl, fun resource used => (located resource used).1⟩

end TeaRs
