import Mathlib

/-!
# Directory trees with links

A directory tree is a partial map from real paths, lists of names from the root down, to nodes. A
node below another one has a directory above it. A link holds a path of its own, relative to the
directory that it lies in or absolute, that may go up, leave out nodes that exist, name missing ones
or lead back to the link.

A path is looked up as an operating system does it: names are followed from a directory down, a link
in the middle or at the end is replaced by its target, and after too many links the lookup fails.

## Main definitions

* `FileTree`: a directory tree.
* `FileTree.resolve`: the real path that a path leads to.
* `FileTree.entry`: the node that a path names, without following a link at its end.
* `FileTree.IsReal`: a path of an existing node that is not a link.
* `FileTree.LinkFree`: a path with no link on it.
* `FileTree.set`: the tree with one leaf put, replaced or removed.

## Main results

* `FileTree.isReal_of_resolve`: a path that is resolved leads to a real path.
* `FileTree.IsReal.linkFree`: there is no link on a real path.
* `FileTree.resolve_append`: a path is resolved by its front and then by the rest.
* `FileTree.resolve_map_name`: a real path leads to itself.
-/

namespace TeaRs

open Function List

/-- A step of a path. -/
inductive PathStep (N : Type) where
  | up
  | name (name : N)
  deriving DecidableEq, Repr

/-- A node of a directory tree. -/
inductive FileNode (N F : Type) where
  | file (identity : Nat) (data : F)
  | directory (identity : Nat)
  | link (identity : Nat) (absolute : Bool) (target : List (PathStep N))
  deriving DecidableEq, Repr

variable {N F : Type}

namespace FileNode

/-- The number by which the system knows the node. -/
def identity : FileNode N F → Nat
  | .file identity _ => identity
  | .directory identity => identity
  | .link identity _ _ => identity

def isDirectory : FileNode N F → Bool
  | .directory _ => true
  | _ => false

def isLink : FileNode N F → Bool
  | .link .. => true
  | _ => false

/-- The data of a file. -/
def data? : FileNode N F → Option F
  | .file _ data => some data
  | _ => none

end FileNode

/-- Why a path has no node. -/
inductive LookupError where
  | notFound | notADirectory | tooManyLinks
  deriving DecidableEq, Repr

/-- A directory tree: what is not at the top lies in a directory. -/
structure FileTree (N F : Type) where
  node : List N → Option (FileNode N F)
  top : (node []).any FileNode.isDirectory
  above : ∀ {path name}, (node (path ++ [name])).isSome → (node path).any FileNode.isDirectory

namespace FileTree

variable {tree : FileTree N F}

@[ext] theorem ext {tree tree' : FileTree N F} (h : ∀ path, tree.node path = tree'.node path) :
    tree = tree' := by
  cases tree
  cases tree'
  simpa using funext h

/-- There is a directory at the path. -/
def isDirectory (tree : FileTree N F) (path : List N) : Bool :=
  (tree.node path).any FileNode.isDirectory

variable {path : List N}

theorem isDirectory_iff :
    tree.isDirectory path ↔ ∃ identity, tree.node path = some (.directory identity) := by
  rw [isDirectory]
  rcases tree.node path with _ | (_ | _ | _) <;> simp [FileNode.isDirectory]

theorem isDirectory_of_append {rest : List N} (nonempty : rest ≠ [])
    (some : (tree.node (path ++ rest)).isSome) : tree.isDirectory path := by
  induction rest using reverseRecOn with
  | nil => exact absurd rfl nonempty
  | append_singleton rest name ih =>
    rw [← append_assoc] at some
    have last := tree.above some
    rcases eq_nil_or_concat rest with rfl | ⟨_, _, rfl⟩
    · simpa [isDirectory] using last
    · exact ih (by simp) (Option.isSome_of_any last)

theorem node_append_eq_none (none : tree.node path = none) (rest : List N) :
    tree.node (path ++ rest) = Option.none := by
  by_contra some
  rcases eq_or_ne rest [] with rfl | nonempty
  · exact some (by simpa using none)
  · obtain ⟨identity, directory⟩ := isDirectory_iff.mp
      (isDirectory_of_append nonempty (Option.isSome_iff_ne_none.mpr some))
    simp [none] at directory

theorem isDirectory_dropLast (directory : tree.isDirectory path) :
    tree.isDirectory path.dropLast := by
  rcases eq_nil_or_concat path with rfl | ⟨front, name, rfl⟩
  · exact directory
  · rw [concat_eq_append, dropLast_concat]
    exact tree.above (Option.isSome_of_any (by simpa [isDirectory] using directory))

/-! ### Real paths -/

/-- A path of an existing node that is not a link. -/
def IsReal (tree : FileTree N F) (path : List N) : Prop :=
  ∃ node, tree.node path = some node ∧ node.isLink = false

theorem isReal_of_isDirectory (directory : tree.isDirectory path) : tree.IsReal path := by
  obtain ⟨identity, node⟩ := isDirectory_iff.mp directory
  exact ⟨_, node, rfl⟩

theorem isReal_nil : tree.IsReal [] :=
  isReal_of_isDirectory tree.top

theorem IsReal.isSome (real : tree.IsReal path) : (tree.node path).isSome := by
  obtain ⟨node, some, -⟩ := real
  simp [some]

theorem IsReal.of_append {rest : List N} (real : tree.IsReal (path ++ rest)) :
    tree.IsReal path := by
  rcases eq_or_ne rest [] with rfl | nonempty
  · simpa using real
  · exact isReal_of_isDirectory (isDirectory_of_append nonempty real.isSome)

/-- All of a path exists, from the top to its end, and there is no link on it. -/
def LinkFree (tree : FileTree N F) (path : List N) : Prop :=
  ∀ front, front <+: path → tree.IsReal front

theorem IsReal.linkFree (real : tree.IsReal path) : tree.LinkFree path := by
  rintro front ⟨rest, rfl⟩
  exact real.of_append

/-! ### Lookup -/

/-- Follow a path from a directory down. What follows a link is handed to `jump`. -/
def walk (tree : FileTree N F)
    (jump : List N → List (PathStep N) → Except LookupError (List N)) :
    List N → List (PathStep N) → Except LookupError (List N)
  | place, [] => .ok place
  | place, step :: rest =>
    if tree.isDirectory place then
      match step with
      | .up => walk tree jump place.dropLast rest
      | .name name =>
        match tree.node (place ++ [name]) with
        | none => .error .notFound
        | some (.link _ absolute target) => jump (if absolute then [] else place) (target ++ rest)
        | some _ => walk tree jump (place ++ [name]) rest
    else .error .notADirectory

/-- The real path that a path leads to from a directory, over at most `links` links. -/
def resolve (tree : FileTree N F) : (links : Nat) → List N → List (PathStep N) →
    Except LookupError (List N)
  | 0 => walk tree fun _ _ => .error .tooManyLinks
  | links + 1 => walk tree (resolve tree links)

/-- The node of a name in the directory that a path leads to, itself not followed. -/
def entry (tree : FileTree N F) (links : Nat) (path : List N) :
    Except LookupError (FileNode N F) :=
  match path.getLast? with
  | none => (tree.node []).elim (.error .notFound) .ok
  | some name => do
    let directory ← tree.resolve links [] (path.dropLast.map .name)
    if tree.isDirectory directory then
      (tree.node (directory ++ [name])).elim (.error .notFound) .ok
    else .error .notADirectory

variable {place target : List N} {steps rest : List (PathStep N)}

section Walk

variable {jump : List N → List (PathStep N) → Except LookupError (List N)}

theorem walk_name_eq_ok {name : N} : tree.walk jump place (.name name :: rest) = .ok target ↔
      tree.isDirectory place ∧ ∃ node, tree.node (place ++ [name]) = some node ∧
        match node with
        | .link _ absolute leads =>
          jump (if absolute then [] else place) (leads ++ rest) = .ok target
        | _ => tree.walk jump (place ++ [name]) rest = .ok target := by
  rw [walk]
  split_ifs with directory
  · rcases tree.node (place ++ [name]) with _ | (_ | _ | _) <;> simp [directory]
  · simp [directory]

theorem walk_up_eq_ok : tree.walk jump place (.up :: rest) = .ok target ↔
      tree.isDirectory place ∧ tree.walk jump place.dropLast rest = .ok target := by
  rw [walk]
  split_ifs with directory <;> simp [directory]

theorem isReal_of_walk
    (jumps : ∀ {place steps target}, tree.IsReal place → jump place steps = .ok target →
      tree.IsReal target)
    (real : tree.IsReal place) (walked : tree.walk jump place steps = .ok target) :
    tree.IsReal target := by
  induction steps generalizing place with
  | nil =>
    cases walked
    exact real
  | cons step rest ih =>
    cases step with
    | up =>
      obtain ⟨directory, walked⟩ := walk_up_eq_ok.mp walked
      exact ih (isReal_of_isDirectory (isDirectory_dropLast directory)) walked
    | name name =>
      obtain ⟨directory, node, some, walked⟩ := walk_name_eq_ok.mp walked
      cases node with
      | link _ absolute leads =>
        refine jumps ?_ walked
        split_ifs
        · exact isReal_nil
        · exact real
      | file | directory => exact ih ⟨_, some, rfl⟩ walked

theorem walk_mono {jump' : List N → List (PathStep N) → Except LookupError (List N)}
    (jumps : ∀ {place steps target}, jump place steps = .ok target →
      jump' place steps = .ok target)
    (walked : tree.walk jump place steps = .ok target) :
    tree.walk jump' place steps = .ok target := by
  induction steps generalizing place with
  | nil => exact walked
  | cons step rest ih =>
    cases step with
    | up =>
      obtain ⟨directory, walked⟩ := walk_up_eq_ok.mp walked
      exact walk_up_eq_ok.mpr ⟨directory, ih walked⟩
    | name name =>
      obtain ⟨directory, node, some, walked⟩ := walk_name_eq_ok.mp walked
      refine walk_name_eq_ok.mpr ⟨directory, node, some, ?_⟩
      cases node with
      | link => exact jumps walked
      | file | directory => exact ih walked

theorem walk_append {next : List N → List (PathStep N) → Except LookupError (List N)}
    (nexts : ∀ {place steps target}, tree.walk jump place steps = .ok target →
      next place steps = .ok target)
    (jumps : ∀ {place front rest target}, jump place (front ++ rest) = .ok target →
      ∃ middle, jump place front = .ok middle ∧ next middle rest = .ok target)
    (walked : tree.walk jump place (steps ++ rest) = .ok target) :
    ∃ middle, tree.walk jump place steps = .ok middle ∧ next middle rest = .ok target := by
  induction steps generalizing place with
  | nil => exact ⟨place, rfl, nexts walked⟩
  | cons step steps ih =>
    cases step with
    | up =>
      obtain ⟨directory, walked⟩ := walk_up_eq_ok.mp walked
      obtain ⟨middle, front, last⟩ := ih walked
      exact ⟨middle, walk_up_eq_ok.mpr ⟨directory, front⟩, last⟩
    | name name =>
      obtain ⟨directory, node, some, walked⟩ := walk_name_eq_ok.mp walked
      cases node with
      | link _ absolute leads =>
        have walked : jump _ (leads ++ (steps ++ rest)) = .ok target := walked
        rw [← append_assoc] at walked
        obtain ⟨middle, front, last⟩ := jumps walked
        exact ⟨middle, walk_name_eq_ok.mpr ⟨directory, _, some, front⟩, last⟩
      | file | directory =>
        obtain ⟨middle, front, last⟩ := ih walked
        exact ⟨middle, walk_name_eq_ok.mpr ⟨directory, _, some, front⟩, last⟩

theorem walk_map_name {names : List N} (real : tree.IsReal (place ++ names)) :
    tree.walk jump place (names.map .name) = .ok (place ++ names) := by
  induction names generalizing place with
  | nil => simp [walk]
  | cons name names ih =>
    have directory := isDirectory_of_append (cons_ne_nil name names) real.isSome
    rw [append_cons] at real ⊢
    obtain ⟨node, some, notLink⟩ := real.of_append
    refine walk_name_eq_ok.mpr ⟨directory, node, some, ?_⟩
    cases node with
    | link => simp [FileNode.isLink] at notLink
    | file | directory => exact ih real

end Walk

variable {links : Nat}

/-- A path that is resolved leads to a real path. -/
theorem isReal_of_resolve (real : tree.IsReal place)
    (resolved : tree.resolve links place steps = .ok target) : tree.IsReal target := by
  induction links generalizing place steps target with
  | zero => exact isReal_of_walk (fun _ h => by cases h) real resolved
  | succ links ih => exact isReal_of_walk (fun h => ih h) real resolved

theorem resolve_succ (resolved : tree.resolve links place steps = .ok target) :
    tree.resolve (links + 1) place steps = .ok target := by
  induction links generalizing place steps target with
  | zero => exact walk_mono (fun h => by cases h) resolved
  | succ links ih => exact walk_mono (fun h => ih h) resolved

/-- A path is resolved by its front and then by the rest. -/
theorem resolve_append (resolved : tree.resolve links place (steps ++ rest) = .ok target) :
    ∃ middle, tree.resolve links place steps = .ok middle ∧
      tree.resolve links middle rest = .ok target := by
  induction links generalizing place steps rest target with
  | zero => exact walk_append (fun h => h) (fun h => by cases h) resolved
  | succ links ih =>
    refine walk_append (fun h => h) (fun h => ?_) resolved
    obtain ⟨middle, front, last⟩ := ih h
    exact ⟨middle, front, resolve_succ last⟩

/-- A real path leads to itself. -/
theorem resolve_map_name {names : List N} (real : tree.IsReal names) :
    tree.resolve links [] (names.map .name) = .ok names := by
  cases links <;> exact walk_map_name (by simpa using real)

variable {name : N} {node : FileNode N F}

theorem resolve_singleton (resolved : tree.resolve links place [.name name] = .ok target) :
    tree.isDirectory place ∧ (tree.node (place ++ [name])).isSome := by
  cases links <;>
  · obtain ⟨directory, node, some, -⟩ := walk_name_eq_ok.mp resolved
    exact ⟨directory, by simp [some]⟩

/-! ### Entries -/

theorem entry_nil : tree.entry links [] = (tree.node []).elim (.error .notFound) .ok := rfl

theorem entry_append_eq_ok : tree.entry links (path ++ [name]) = .ok node ↔
      ∃ directory, tree.resolve links [] (path.map .name) = .ok directory ∧
        tree.isDirectory directory ∧ tree.node (directory ++ [name]) = some node := by
  rw [entry, getLast?_concat, dropLast_concat]
  rcases tree.resolve links [] (path.map .name) with _ | directory
  · simp [bind, Except.bind]
  · simp only [bind, Except.bind]
    split_ifs with h
    · cases found : tree.node (directory ++ [name]) <;> simp [h, found]
    · simp [h]

theorem node_eq_none_of_entry {directory : List N} {error : LookupError}
    (missing : tree.entry links (path ++ [name]) = .error error)
    (resolved : tree.resolve links [] (path.map .name) = .ok directory)
    (isDirectory : tree.isDirectory directory) : tree.node (directory ++ [name]) = none := by
  by_contra some
  obtain ⟨node, some⟩ := Option.ne_none_iff_exists'.mp some
  rw [entry_append_eq_ok.mpr ⟨directory, resolved, isDirectory, some⟩] at missing
  cases missing

theorem exists_entry_of_resolve (resolved : tree.resolve links [] (path.map .name) = .ok target) :
    ∃ node, tree.entry links path = .ok node := by
  rcases eq_nil_or_concat path with rfl | ⟨front, name, rfl⟩
  · obtain ⟨identity, node⟩ := isDirectory_iff.mp tree.top
    exact ⟨_, by rw [entry_nil, node]; rfl⟩
  · rw [concat_eq_append, map_append] at resolved
    obtain ⟨directory, front_resolved, last⟩ := resolve_append resolved
    obtain ⟨isDirectory, some⟩ := resolve_singleton last
    obtain ⟨node, some⟩ := Option.isSome_iff_exists.mp some
    exact ⟨node, by
      rw [concat_eq_append]
      exact entry_append_eq_ok.mpr ⟨directory, front_resolved, isDirectory, some⟩⟩

/-! ### Changes -/

variable [DecidableEq N]

/-- The tree with nothing below its top. -/
def bare (identity : Nat) : FileTree N F where
  node path := if path = [] then some (.directory identity) else none
  top := by simp [FileNode.isDirectory]
  above := by simp

/-- A place for a leaf: a name in a directory that is not a directory itself. -/
def IsLeaf (tree : FileTree N F) (path : List N) : Prop :=
  path ≠ [] ∧ tree.isDirectory path.dropLast ∧ tree.isDirectory path = false

instance (tree : FileTree N F) (path : List N) : Decidable (tree.IsLeaf path) :=
  inferInstanceAs (Decidable (_ ∧ _ ∧ _))

/-- The tree with the leaf at a path put, replaced or removed. A path that is no place for a leaf
keeps its node. -/
def set (tree : FileTree N F) (path : List N) (node : Option (FileNode N F)) : FileTree N F :=
  if leaf : tree.IsLeaf path then {
    node := update tree.node path node
    top := by
      rw [update_of_ne (Ne.symm leaf.1)]
      exact tree.top
    above := by
      intro parent name some
      have parent_ne : parent ≠ path := by
        rintro rfl
        rw [update_of_ne (by simp)] at some
        have directory := tree.above some
        have := leaf.2.2
        rw [isDirectory] at this
        simp [this] at directory
      rw [update_of_ne parent_ne]
      rcases eq_or_ne (parent ++ [name]) path with rfl | ne
      · simpa [isDirectory] using leaf.2.1
      · rw [update_of_ne ne] at some
        exact tree.above some }
  else tree

theorem node_set (leaf : tree.IsLeaf path) (node : Option (FileNode N F)) :
    (tree.set path node).node = update tree.node path node := by
  rw [set, dif_pos leaf]

theorem isDirectory_set_of_ne {other : List N} (ne : other ≠ path) (node : Option (FileNode N F)) :
    (tree.set path node).isDirectory other = tree.isDirectory other := by
  by_cases leaf : tree.IsLeaf path
  · rw [isDirectory, node_set leaf, update_of_ne ne, isDirectory]
  · rw [set, dif_neg leaf]

omit [DecidableEq N] in
theorem dropLast_ne_self (nonempty : path ≠ []) : path.dropLast ≠ path := by
  intro same
  have length := congrArg length same
  have := length_pos_iff.mpr nonempty
  rw [length_dropLast] at length
  omega

/-- A leaf that is replaced by a leaf is still one. -/
theorem IsLeaf.set (leaf : tree.IsLeaf path) (file : node.isDirectory = false) :
    (tree.set path (some node)).IsLeaf path := by
  refine ⟨leaf.1, ?_, ?_⟩
  · rw [isDirectory_set_of_ne (dropLast_ne_self leaf.1)]
    exact leaf.2.1
  · rw [isDirectory, node_set leaf, update_self, Option.any_some, file]

theorem set_set (leaf : tree.IsLeaf path) (file : node.isDirectory = false)
    (node' : Option (FileNode N F)) :
    (tree.set path (some node)).set path node' = tree.set path node' := by
  ext1 other
  rw [node_set (leaf.set file), node_set leaf, node_set leaf, update_idem]

theorem set_none_of_missing (leaf : tree.IsLeaf path) (missing : tree.node path = none) :
    tree.set path none = tree := by
  ext1 other
  rw [node_set leaf, ← missing, update_eq_self]

theorem node_move (leaf : tree.IsLeaf path) (missing : tree.node path = none)
    (file : node.isDirectory = false) (ne : path ≠ target)
    (leaf' : (tree.set path (some node)).IsLeaf target) (parent : path.dropLast ≠ target) :
    (((tree.set path (some node)).set target (some node)).set path none).node =
      update tree.node target (some node) := by
  have still : ((tree.set path (some node)).set target (some node)).IsLeaf path := by
    refine ⟨leaf.1, ?_, ?_⟩
    · rw [isDirectory_set_of_ne parent]
      exact (leaf.set file).2.1
    · rw [isDirectory_set_of_ne ne]
      exact (leaf.set file).2.2
  rw [node_set still, node_set leaf', node_set leaf, update_comm ne, update_idem,
    ← missing, update_comm ne.symm, update_eq_self]

end FileTree

end TeaRs
