import Mathlib

/-!
# Sorting by a key

Vectors that a program sorts, deduplicates, or reads from a table in the order of a key. A list
whose keys are strictly increasing is determined by its members, so two ways to produce one agree as
soon as they produce the same members.

## Main definitions

* `sortByKey`: a stable sort by a key.
* `sortDedup`: `sort` followed by `dedup`.

## Main results

* `sortByKey_eq_self_iff`: sorting changes nothing exactly if the keys do not decrease.
* `pairwise_sortByKey`: a sort without repeated keys is strictly increasing.
* `eq_of_pairwise_key`: strictly increasing lists with the same members are equal.
* `pairwise_sortDedup`: what `sortDedup` returns is strictly increasing.
-/

namespace TeaRs

open List

variable {α κ : Type} [Ord κ]

/-- A stable sort by a key. -/
def sortByKey (key : α → κ) (items : List α) : List α :=
  items.insertionSort fun a b => (compare (key a) (key b)).isLE

theorem perm_sortByKey (key : α → κ) (items : List α) : (sortByKey key items).Perm items :=
  perm_insertionSort _ items

theorem sortByKey_map {β : Type} {key : β → κ} (f : α → β) (items : List α) :
    sortByKey key (items.map f) = (sortByKey (fun a => key (f a)) items).map f :=
  (map_insertionSort _ _ f items fun _ _ _ _ => Iff.rfl).symm

variable {items : List α}

theorem mem_sortByKey {key : α → κ} {a : α} : a ∈ sortByKey key items ↔ a ∈ items :=
  (perm_sortByKey key items).mem_iff

theorem destutter_key_eq [Std.LawfulEqOrd κ] [DecidableEq κ] {key : α → κ}
    (h : items.Pairwise fun a b => compare (key a) (key b) = .lt) :
    items.destutter (fun a b => key a ≠ key b) = items := by
  refine (destutter_eq_self_iff _ _).mpr (h.imp fun {a b} lt same => ?_).isChain
  rw [same, Std.ReflOrd.compare_self] at lt
  cases lt

variable [Std.TransOrd κ]

theorem pairwise_isLE_sortByKey (key : α → κ) (items : List α) :
    (sortByKey key items).Pairwise fun a b => (compare (key a) (key b)).isLE = true := by
  have total : Std.Total fun a b : α => (compare (key a) (key b)).isLE = true :=
    ⟨fun a b => by
      rw [Std.OrientedOrd.eq_swap (a := key b)]
      cases compare (key a) (key b) <;> simp⟩
  have trans : IsTrans α fun a b => (compare (key a) (key b)).isLE = true :=
    ⟨fun _ _ _ => Std.TransOrd.isLE_trans⟩
  exact pairwise_insertionSort _ items

/-- A list is left as it is by sorting exactly if its keys do not decrease. -/
theorem sortByKey_eq_self_iff {key : α → κ} : sortByKey key items = items ↔
      items.Pairwise fun a b => (compare (key a) (key b)).isLE = true := by
  constructor
  · intro same
    rw [← same]
    exact pairwise_isLE_sortByKey key items
  · exact List.Pairwise.insertionSort_eq

variable [Std.LawfulEqOrd κ]

/-- Sorted items with distinct keys are strictly increasing. -/
theorem pairwise_sortByKey {key : α → κ} (distinct : (items.map key).Nodup) :
    (sortByKey key items).Pairwise fun a b => compare (key a) (key b) = .lt := by
  have distinct' : ((sortByKey key items).map key).Nodup :=
    ((perm_sortByKey key items).map key).nodup_iff.mpr distinct
  refine ((pairwise_isLE_sortByKey key items).and (pairwise_map.mp distinct')).imp ?_
  rintro a b ⟨le, ne⟩
  rcases Ordering.isLE_iff_eq_lt_or_eq_eq.mp le with lt | eq
  · exact lt
  · exact absurd (Std.LawfulEqOrd.eq_of_compare eq) ne

/-- Strictly increasing lists with the same members are equal. -/
theorem eq_of_pairwise_key {key : α → κ} {items' : List α}
    (h : items.Pairwise fun a b => compare (key a) (key b) = .lt)
    (h' : items'.Pairwise fun a b => compare (key a) (key b) = .lt)
    (same : ∀ a, a ∈ items ↔ a ∈ items') : items = items' := by
  have irrefl : Std.Irrefl fun a b : α => compare (key a) (key b) = .lt :=
    ⟨fun a => by rw [Std.ReflOrd.compare_self]; decide⟩
  have antisymm : Std.Antisymm fun a b : α => compare (key a) (key b) = .lt :=
    ⟨fun a b lt gt => absurd (Std.TransCmp.lt_trans lt gt) (irrefl.irrefl a)⟩
  exact h.eq_of_mem_iff h' same

/-! ### Sorted vectors without repetitions -/

section SortDedup

variable [DecidableEq κ]

/-- `Vec::sort` followed by `Vec::dedup`. -/
def sortDedup (items : List κ) : List κ :=
  (items.insertionSort fun a b => (compare a b).isLE).destutter (· ≠ ·)

theorem pairwise_sortDedup (items : List κ) :
    (sortDedup items).Pairwise fun a b => compare a b = .lt := by
  have transLt : IsTrans κ fun a b => compare a b = .lt :=
    ⟨fun _ _ _ => Std.TransCmp.lt_trans⟩
  have sorted : (sortDedup items).Pairwise fun a b => (compare a b).isLE = true :=
    (pairwise_isLE_sortByKey id items).sublist (destutter_sublist _ _)
  have distinct : (sortDedup items).IsChain (· ≠ ·) := isChain_destutter _ _
  refine List.IsChain.pairwise (isChain_iff_forall_rel_of_append_cons_cons.mpr ?_)
  intro a b front back split
  have le := isChain_iff_forall_rel_of_append_cons_cons.mp sorted.isChain split
  have ne := isChain_iff_forall_rel_of_append_cons_cons.mp distinct split
  rcases Ordering.isLE_iff_eq_lt_or_eq_eq.mp le with lt | eq
  · exact lt
  · exact absurd (Std.LawfulEqOrd.eq_of_compare eq) ne

omit [Ord κ] [Std.TransOrd κ] [Std.LawfulEqOrd κ] in
theorem mem_destutter'_ne {a x : κ} {items : List κ} (h : x ∈ a :: items) :
    x ∈ destutter' (· ≠ ·) a items := by
  induction items generalizing a with
  | nil => exact h
  | cons b items ih =>
    by_cases hab : a = b
    · subst hab
      rw [destutter'_cons_neg _ (not_not.mpr rfl)]
      rcases mem_cons.mp h with rfl | h
      · exact ih mem_cons_self
      · exact ih h
    · rw [destutter'_cons_pos _ hab]
      rcases mem_cons.mp h with rfl | h
      · exact mem_cons_self
      · exact mem_cons_of_mem _ (ih h)

omit [Std.TransOrd κ] [Std.LawfulEqOrd κ] in
theorem mem_sortDedup {items : List κ} {a : κ} : a ∈ sortDedup items ↔ a ∈ items := by
  rw [← (perm_sortByKey id items).mem_iff]
  constructor
  · exact fun h => (destutter_sublist _ _).subset h
  · intro h
    change a ∈ (sortByKey id items).destutter (· ≠ ·)
    generalize sortByKey id items = sorted at h ⊢
    cases sorted with
    | nil => cases h
    | cons b sorted => exact mem_destutter'_ne h

omit [Std.TransOrd κ] [Std.LawfulEqOrd κ] in
theorem sortDedup_eq_nil {items : List κ} : sortDedup items = [] ↔ items = [] := by
  simp only [eq_nil_iff_forall_not_mem, mem_sortDedup]

omit [Std.TransOrd κ] [Std.LawfulEqOrd κ] in
theorem length_sortDedup_le (items : List κ) : (sortDedup items).length ≤ items.length := by
  rw [← (perm_sortByKey id items).length_eq]
  exact (destutter_sublist _ _).length_le

end SortDedup

end TeaRs
