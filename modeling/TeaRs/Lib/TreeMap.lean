import Mathlib

/-!
# Ordered maps and sets

The extensional tree maps and sets of the standard library over a key type with a lawful order, as
models of ordered maps and sets. They compute, and two of them with the same entries are equal. The
library states its lookup lemmas through the comparison of keys; for a lawful order they are stated
here through equality of keys.

## Main definitions

* `BTreeMap`, `BTreeSet`, `BTreeMap.valueList`, `BTreeMap.adjust`.

## Main results

* `BTreeMap.getElem?_insert_eq`, `BTreeMap.mem_insert_iff`, `BTreeMap.getElem?_erase_eq`.
* `BTreeSet.mem_insert_iff`, `BTreeSet.mem_insertMany_iff`.
-/

namespace TeaRs

/-- An ordered map. -/
abbrev BTreeMap (κ : Type) [Ord κ] (α : Type) := Std.ExtTreeMap κ α compare

/-- An ordered set. -/
abbrev BTreeSet (κ : Type) [Ord κ] := Std.ExtTreeSet κ compare

variable {κ α : Type} [Ord κ] [Std.TransOrd κ]

namespace BTreeMap

variable {m : BTreeMap κ α} {k a : κ} {v w : α}

theorem contains_eq_false_iff : m.contains a = false ↔ a ∉ m := by
  rw [Std.ExtTreeMap.mem_iff_contains, Bool.not_eq_true]

theorem mem_of_getElem? (h : m[a]? = some v) : a ∈ m := by
  rw [Std.ExtTreeMap.mem_iff_isSome_getElem?, h]
  rfl

theorem getElem?_eq_none_iff_notMem : m[a]? = none ↔ a ∉ m := by
  rw [Std.ExtTreeMap.mem_iff_isSome_getElem?]
  simp

theorem exists_getElem?_of_mem (h : a ∈ m) : ∃ v, m[a]? = some v :=
  Option.isSome_iff_exists.mp (Std.ExtTreeMap.mem_iff_isSome_getElem?.mp h)

/-- The map with the value of one key changed, if it has one. -/
def adjust (m : BTreeMap κ α) (k : κ) (f : α → α) : BTreeMap κ α :=
  match m[k]? with
  | some v => m.insert k (f v)
  | none => m

theorem adjust_of_some {f : α → α} (h : m[k]? = some v) : adjust m k f = m.insert k (f v) := by
  rw [adjust, h]

variable [Std.LawfulEqOrd κ]

theorem mem_insert_iff : a ∈ m.insert k v ↔ a = k ∨ a ∈ m := by
  rw [Std.ExtTreeMap.mem_insert, Std.LawfulEqCmp.compare_eq_iff_eq, eq_comm]

/-- The values of a map, in the order of their keys. -/
def valueList (m : BTreeMap κ α) : List α := m.toList.map (·.2)

theorem mem_valueList : v ∈ valueList m ↔ ∃ k : κ, m[k]? = some v := by
  rw [valueList, List.mem_map]
  constructor
  · rintro ⟨⟨k, _⟩, hmem, rfl⟩
    exact ⟨k, Std.ExtTreeMap.mem_toList_iff_getElem?_eq_some.mp hmem⟩
  · rintro ⟨k, hlookup⟩
    exact ⟨(k, v), Std.ExtTreeMap.mem_toList_iff_getElem?_eq_some.mpr hlookup, rfl⟩

theorem pairwise_valueList {R : α → α → Prop}
    (h : ∀ (k k' : κ) v v', m[k]? = some v → m[k']? = some v' → k ≠ k' → R v v') :
    (valueList m).Pairwise R := by
  refine List.pairwise_map.mpr (Std.ExtTreeMap.distinct_keys_toList.imp_of_mem ?_)
  rintro ⟨k, v⟩ ⟨k', v'⟩ hmem hmem' distinct
  refine h k k' v v' (Std.ExtTreeMap.mem_toList_iff_getElem?_eq_some.mp hmem)
    (Std.ExtTreeMap.mem_toList_iff_getElem?_eq_some.mp hmem') fun same => distinct ?_
  rw [same]
  exact Std.ReflCmp.compare_self

variable [DecidableEq κ]

theorem getElem?_insert_eq : (m.insert k v)[a]? = if a = k then some v else m[a]? := by
  rw [Std.ExtTreeMap.getElem?_insert]
  by_cases h : a = k
  · simp [h]
  · have : ¬compare k a = .eq := fun hc => h (Std.LawfulEqOrd.eq_of_compare hc).symm
    simp [h, this]

theorem getElem?_erase_eq : (m.erase k)[a]? = if a = k then none else m[a]? := by
  rw [Std.ExtTreeMap.getElem?_erase]
  by_cases h : a = k
  · simp [h]
  · have : ¬compare k a = .eq := fun hc => h (Std.LawfulEqOrd.eq_of_compare hc).symm
    simp [h, this]

theorem getElem?_insert_of_ne (h : a ≠ k) : (m.insert k v)[a]? = m[a]? := by
  rw [getElem?_insert_eq, if_neg h]

theorem insert_erase_eq : (m.erase k).insert k v = m.insert k v := by
  refine Std.ExtTreeMap.ext_getElem? fun a => ?_
  rw [getElem?_insert_eq, getElem?_insert_eq, getElem?_erase_eq]
  split_ifs <;> rfl

theorem insert_eq_self (h : m[k]? = some v) : m.insert k v = m := by
  refine Std.ExtTreeMap.ext_getElem? fun a => ?_
  rw [getElem?_insert_eq]
  split_ifs with ha
  · rw [ha, h]
  · rfl

theorem erase_insert_eq_self (h : k ∉ m) : (m.insert k v).erase k = m := by
  refine Std.ExtTreeMap.ext_getElem? fun a => ?_
  rw [getElem?_erase_eq, getElem?_insert_eq]
  split_ifs with ha
  · rw [ha, getElem?_eq_none_iff_notMem.mpr h]
  · rfl

end BTreeMap

namespace BTreeSet

variable {m : BTreeSet κ} {k a : κ} {l : List κ}

theorem contains_eq_false_iff : m.contains a = false ↔ a ∉ m := by
  rw [Std.ExtTreeSet.mem_iff_contains, Bool.not_eq_true]

variable [Std.LawfulEqOrd κ]

theorem mem_insert_iff : a ∈ m.insert k ↔ a = k ∨ a ∈ m := by
  rw [Std.ExtTreeSet.mem_insert, Std.LawfulEqCmp.compare_eq_iff_eq, eq_comm]

theorem mem_insertMany_iff : a ∈ m.insertMany l ↔ a ∈ m ∨ a ∈ l := by
  induction l generalizing m with
  | nil => simp
  | cons b l ih =>
    rw [Std.ExtTreeSet.insertMany_cons, ih, mem_insert_iff, List.mem_cons]
    tauto

end BTreeSet

end TeaRs
