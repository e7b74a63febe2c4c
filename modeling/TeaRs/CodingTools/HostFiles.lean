import TeaRs.Lib.FileTree
import TeaRs.Lib.StateError

/-!
# The files of the host

The calls by which the coding tools reach the file system. The tree changes by these calls only.
Each call either answers from the tree or is refused: a directory may be closed to the process, a
path may be too long for the system, a disk may fail. A refused call has no effect, and its error is
none that a caller takes for a missing or an existing file.

## Main definitions

* `Host`: what the system refuses, and the numbers that it gives out.
* `HostState`: the tree, and how many calls have been made.
* `Host.ask`, `Host.change`: a call that reads the tree, a call that changes it.
* `Host.canonicalize`, `Host.metadata`, `Host.symlinkMetadata`, and the calls that open, write,
  rename and remove files.
-/

namespace TeaRs

open StateError

/-- The name of a file or directory. -/
abbrev FileName := List Char

/-- What a file holds. -/
structure FileData where
  bytes : ByteArray
  permissions : Nat
  deriving DecidableEq

/-- The directory tree of the host. -/
abbrev HostTree := FileTree FileName FileData

/-- `Metadata::is_file`. -/
def FileNode.isFile {N F : Type} : FileNode N F → Bool
  | .file .. => true
  | _ => false

/-- `Metadata::len`, of a file. -/
def fileLen (node : FileNode FileName FileData) : Nat :=
  (node.data?.map (·.bytes.size)).getD 0

/-- `Metadata::permissions`, of a file. -/
def filePermissions (node : FileNode FileName FileData) : Nat :=
  (node.data?.map (·.permissions)).getD 0

/-- `std::io::ErrorKind`, as far as the tools tell them apart. -/
inductive IoErrorKind where
  | notFound | alreadyExists | other
  deriving DecidableEq, Repr

/-- The kind of the error of a failed lookup. -/
def LookupError.kind : LookupError → IoErrorKind
  | .notFound => .notFound
  | .notADirectory => .other
  | .tooManyLinks => .other

/-- The calls that the tools make. -/
inductive FileCall where
  | canonicalize | metadata | symlinkMetadata
  | openFile | openedMetadata | readToEnd
  | createNew | setPermissions | writeAll | syncAll | rename | removeFile
  deriving DecidableEq, Repr

/-- A host: which calls it refuses, by the number of calls made before, how many links it follows in
one path, and the numbers it gives to files and to the process. -/
structure Host where
  refuses : (calls : Nat) → FileCall → Bool
  links : Nat
  identity : (calls : Nat) → Nat
  process : Nat

/-- The state of the host, with the counter of the names of temporary files. -/
structure HostState where
  tree : HostTree
  calls : Nat
  nextTempId : Nat

namespace HostState

/-- The state after some calls that changed nothing. -/
def after (state : HostState) (calls : Nat) : HostState :=
  { state with calls := state.calls + calls }

@[simp] theorem tree_after (state : HostState) (calls : Nat) :
    (state.after calls).tree = state.tree := rfl

@[simp] theorem calls_after (state : HostState) (calls : Nat) :
    (state.after calls).calls = state.calls + calls := rfl

@[simp] theorem after_after (state : HostState) (first second : Nat) :
    (state.after first).after second = state.after (first + second) := by
  simp [after, Nat.add_assoc]

end HostState

namespace Host

variable {ε α : Type}

/-- A call that reads the tree. -/
def ask (host : Host) (call : FileCall) (answer : HostTree → Except IoErrorKind α) :
    EStateM ε HostState (Except IoErrorKind α) := fun state =>
  .ok (if host.refuses state.calls call then .error .other else answer state.tree) (state.after 1)

/-- A call that changes the tree, or fails and leaves it. -/
def change (host : Host) (call : FileCall)
    (answer : (identity : Nat) → HostTree → Except IoErrorKind (α × HostTree)) :
    EStateM ε HostState (Except IoErrorKind α) := fun state =>
  if host.refuses state.calls call then .ok (.error .other) (state.after 1)
  else
    match answer (host.identity state.calls) state.tree with
    | .error kind => .ok (.error kind) (state.after 1)
    | .ok (value, tree) => .ok (.ok value) { state.after 1 with tree }

/-- The real path that a path leads to. -/
def lookup (host : Host) (path : List FileName) (tree : HostTree) :
    Except IoErrorKind (List FileName) :=
  (tree.resolve host.links [] (path.map .name)).mapError LookupError.kind

/-- The node that a path leads to. -/
def lookupNode (host : Host) (path : List FileName) (tree : HostTree) :
    Except IoErrorKind (FileNode FileName FileData) := do
  let place ← host.lookup path tree
  (tree.node place).elim (.error .notFound) .ok

/-- The place of a path's last name, in the directory that the rest of the path leads to. -/
def lookupPlace (host : Host) (path : List FileName) (tree : HostTree) :
    Except IoErrorKind (List FileName) :=
  match path.getLast? with
  | none => .error .other
  | some name => do
    let directory ← host.lookup path.dropLast tree
    if tree.isDirectory directory then .ok (directory ++ [name]) else .error .other

/-- `std::fs::canonicalize`. -/
def canonicalize (host : Host) (path : List FileName) :
    EStateM ε HostState (Except IoErrorKind (List FileName)) :=
  host.ask .canonicalize (host.lookup path)

/-- `std::fs::metadata`: what is known of the node at the end of all links. -/
def metadata (host : Host) (path : List FileName) :
    EStateM ε HostState (Except IoErrorKind (FileNode FileName FileData)) :=
  host.ask .metadata (host.lookupNode path)

/-- `std::fs::symlink_metadata`: what is known of the node itself, be it a link. -/
def symlinkMetadata (host : Host) (path : List FileName) :
    EStateM ε HostState (Except IoErrorKind (FileNode FileName FileData)) :=
  host.ask .symlinkMetadata fun tree => (tree.entry host.links path).mapError LookupError.kind

/-- `Path::is_dir`. -/
def isDir (host : Host) (path : List FileName) : EStateM ε HostState Bool := do
  match ← host.metadata path with
  | .ok node => return node.isDirectory
  | .error _ => return false

/-- `File::open`, for reading. The file is known by its place. -/
def openFile (host : Host) (path : List FileName) :
    EStateM ε HostState (Except IoErrorKind (List FileName)) :=
  host.ask .openFile (host.lookup path)

/-- `File::metadata`. -/
def openedMetadata (host : Host) (place : List FileName) :
    EStateM ε HostState (Except IoErrorKind (FileNode FileName FileData)) :=
  host.ask .openedMetadata fun tree => (tree.node place).elim (.error .other) .ok

/-- `Read::read_to_end` of the first bytes of a file. -/
def readToEnd (host : Host) (place : List FileName) (limit : Nat) :
    EStateM ε HostState (Except IoErrorKind ByteArray) :=
  host.ask .readToEnd fun tree =>
    match (tree.node place).bind FileNode.data? with
    | some data => .ok (data.bytes.extract 0 limit)
    | none => .error .other

/-- `File::sync_all`. -/
def syncAll (host : Host) : EStateM ε HostState (Except IoErrorKind Unit) :=
  host.ask .syncAll fun _ => .ok ()

/-- `OpenOptions::create_new`, for writing and with the given mode. -/
def createNew (host : Host) (path : List FileName) (permissions : Nat) :
    EStateM ε HostState (Except IoErrorKind (List FileName)) :=
  host.change .createNew fun identity tree => do
    let place ← host.lookupPlace path tree
    if (tree.node place).isSome then .error .alreadyExists
    else .ok (place, tree.set place (some (.file identity ⟨ByteArray.empty, permissions⟩)))

/-- A change to the data of an open file. -/
def changeData (host : Host) (call : FileCall) (place : List FileName)
    (change : FileData → FileData) : EStateM ε HostState (Except IoErrorKind Unit) :=
  host.change call fun _ tree =>
    match tree.node place with
    | some (.file identity data) =>
      .ok ((), tree.set place (some (.file identity (change data))))
    | _ => .error .other

/-- `File::set_permissions`. -/
def setPermissions (host : Host) (place : List FileName) (permissions : Nat) :
    EStateM ε HostState (Except IoErrorKind Unit) :=
  host.changeData .setPermissions place fun data => { data with permissions }

/-- `Write::write_all`, at the end of what was written before. -/
def writeAll (host : Host) (place : List FileName) (content : ByteArray) :
    EStateM ε HostState (Except IoErrorKind Unit) :=
  host.changeData .writeAll place fun data => { data with bytes := data.bytes ++ content }

/-- `std::fs::rename` of a file: what is at the new path is replaced, unless it is a directory. -/
def rename (host : Host) (old new : List FileName) :
    EStateM ε HostState (Except IoErrorKind Unit) :=
  host.change .rename fun _ tree => do
    let source ← host.lookupPlace old tree
    let target ← host.lookupPlace new tree
    match tree.node source with
    | none => .error .notFound
    | some node =>
      if node.isDirectory || tree.isDirectory target then .error .other
      else if source = target then .ok ((), tree)
      else .ok ((), (tree.set target (some node)).set source none)

/-- `std::fs::remove_file`. -/
def removeFile (host : Host) (path : List FileName) :
    EStateM ε HostState (Except IoErrorKind Unit) :=
  host.change .removeFile fun _ tree => do
    let place ← host.lookupPlace path tree
    match tree.node place with
    | none => .error .notFound
    | some node =>
      if node.isDirectory then .error .other else .ok ((), tree.set place none)

/-! ### What a call did -/

variable {host : Host} {call : FileCall} {state state' : HostState} {f : IoErrorKind → ε}
  {E : ε → HostState → Prop} {path place : List FileName} {tree : HostTree}

@[simp] theorem ask_eq_ok {answer : HostTree → Except IoErrorKind α}
    {result : Except IoErrorKind α} :
    (host.ask call answer : EStateM ε HostState _) state = .ok result state' ↔
      (if host.refuses state.calls call then .error .other else answer state.tree) = result ∧
        state.after 1 = state' := by
  simp [ask]

@[simp] theorem mapErr_ask_eq_ok {answer : HostTree → Except IoErrorKind α} {value : α} :
    mapErr (host.ask call answer) f state = .ok value state' ↔
      host.refuses state.calls call = false ∧ answer state.tree = .ok value ∧
        state.after 1 = state' := by
  rw [mapErr_eq_ok, ask_eq_ok, ← and_assoc]
  cases host.refuses state.calls call <;> simp

theorem frame_ask (host : Host) (call : FileCall) (answer : HostTree → Except IoErrorKind α) :
    StateError.Frame HostState.tree (host.ask call answer : EStateM ε HostState _) :=
  fun _ => rfl

theorem ends_ask {answer : HostTree → Except IoErrorKind α} :
    StateError.Ends (fun _ state' => state'.tree = state.tree) E
      ((host.ask call answer : EStateM ε HostState _) state) := rfl

/-- How a call that changes the tree ends: with an error and the tree as it was, or with a value and
the tree that goes with it. -/
theorem ends_change {answer : Nat → HostTree → Except IoErrorKind (α × HostTree)} :
    StateError.Ends (fun result state' =>
        (∃ kind, result = .error kind ∧ state'.tree = state.tree) ∨
        ∃ value identity, result = .ok value ∧
          answer identity state.tree = .ok (value, state'.tree)) E
      ((host.change call answer : EStateM ε HostState _) state) := by
  rw [change]
  split
  · exact .inl ⟨_, rfl, rfl⟩
  · split
    · exact .inl ⟨_, rfl, rfl⟩
    · rename_i answered
      exact .inr ⟨_, _, rfl, answered⟩

theorem ends_mapErr_change {answer : Nat → HostTree → Except IoErrorKind (α × HostTree)} :
    StateError.Ends
      (fun value state' => ∃ identity, answer identity state.tree = .ok (value, state'.tree))
      (fun _ state' => state'.tree = state.tree)
      (mapErr (host.change call answer) f state) := by
  refine ends_change.bind ?_
  rintro result reached (⟨kind, rfl, same⟩ | ⟨value, identity, rfl, answered⟩)
  · exact same
  · exact ⟨identity, answered⟩

theorem refused_or_of_ask {refused : Bool} {answer : Except IoErrorKind α} {kind : IoErrorKind}
    (failed : (if refused then .error .other else answer) = .error kind) :
    refused = true ∨ ∀ value, answer ≠ .ok value := by
  cases refused with
  | true => exact .inl rfl
  | false =>
    refine .inr fun value found => ?_
    simp [found] at failed

theorem lookup_eq_ok : host.lookup path tree = .ok place ↔
      tree.resolve host.links [] (path.map .name) = .ok place := by
  rw [lookup, mapError_eq_ok]

theorem lookupNode_eq_ok {node : FileNode FileName FileData} :
    host.lookupNode path tree = .ok node ↔
      ∃ place, host.lookup path tree = .ok place ∧ tree.node place = some node := by
  rw [lookupNode, except_bind_eq_ok]
  refine exists_congr fun place => and_congr_right fun _ => ?_
  cases tree.node place <;> simp

theorem isReal_of_lookup (found : host.lookup path tree = .ok place) : tree.IsReal place :=
  FileTree.isReal_of_resolve FileTree.isReal_nil (lookup_eq_ok.mp found)

theorem of_isDir (ok : (host.isDir path : EStateM ε HostState Bool) state = .ok true state') :
    ∃ node, host.lookupNode path state.tree = .ok node ∧ node.isDirectory := by
  simp only [isDir, metadata, bind_eq_ok, ask_eq_ok] at ok
  obtain ⟨answer, _, ⟨answered, rfl⟩, ok⟩ := ok
  cases answer with
  | error => cases ok
  | ok node =>
    obtain ⟨directory, -⟩ := EStateM.Result.ok.inj ok
    split at answered
    · cases answered
    · exact ⟨node, answered, directory⟩

theorem lookupPlace_of_isDirectory {directory : List FileName} (host : Host)
    (isDirectory : tree.isDirectory directory) (name : FileName) :
    host.lookupPlace (directory ++ [name]) tree = .ok (directory ++ [name]) := by
  have found : host.lookup directory tree = .ok directory :=
    lookup_eq_ok.mpr (FileTree.resolve_map_name (FileTree.isReal_of_isDirectory isDirectory))
  rw [lookupPlace, List.getLast?_concat, List.dropLast_concat, found]
  exact if_pos isDirectory

theorem lookup_of_isReal (host : Host)
    (real : tree.IsReal path) : host.lookup path tree = .ok path :=
  lookup_eq_ok.mpr (FileTree.resolve_map_name real)

/-! ### The number of calls -/

/-- A program makes at most so many calls, in success and in failure. -/
def CallsAtMost (count : Nat) (x : EStateM ε HostState α) : Prop :=
  ∀ state, (resultState (x state)).calls ≤ state.calls + count

namespace CallsAtMost

variable {β : Type} {x : EStateM ε HostState α} {k : α → EStateM ε HostState β}
  {count more : Nat}

theorem bind (first : CallsAtMost count x) (rest : ∀ a, CallsAtMost more (k a)) :
    CallsAtMost (count + more) (x >>= k) := by
  intro state
  have once := first state
  rw [bind_run]
  cases run : x state with
  | ok a reached =>
    rw [run, resultState_ok] at once
    exact (rest a reached).trans (by omega)
  | error error reached =>
    rw [run, resultState_error] at once
    exact once.trans (by omega)

theorem mono (bound : CallsAtMost count x) (le : count ≤ more) : CallsAtMost more x :=
  fun state => (bound state).trans (by omega)

theorem of_frame (frame : StateError.Frame HostState.calls x) : CallsAtMost 0 x :=
  fun state => (frame state).le

theorem ask (host : Host) (call : FileCall) (answer : HostTree → Except IoErrorKind α) :
    CallsAtMost 1 (host.ask call answer : EStateM ε HostState _) :=
  fun _ => le_rfl

theorem mapErr {x : EStateM ε HostState (Except IoErrorKind α)} (bound : CallsAtMost count x)
    (f : IoErrorKind → ε) : CallsAtMost count (mapErr x f) :=
  bound.bind fun _ => of_frame (.propagate _)

end CallsAtMost

end Host

end TeaRs
