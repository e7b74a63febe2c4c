import Mathlib

/-!
# Scanning a text for the first of several patterns

A scanner looks for the first occurrence of each of its patterns, throws away those that it does not
accept where they stand, and takes the earliest of the rest. An occurrence that is thrown away can
hide a later, acceptable one of the same pattern. It cannot where each such occurrence comes after
an acceptable one with no stop between them, and that condition passes to what follows a stop.

## Main definitions

* `Scan.Occurs`, `Scan.find`: a pattern in a text, and its first occurrence.
* `Scan.nextMatch`: the match the scanner takes.
* `Scan.Covered`: no rejected occurrence stands alone.

## Main results

* `Scan.Covered.exists_nextMatch`: the scanner takes no match behind an acceptable one.
* `Scan.Covered.suffix`: the condition of what follows a stop.
-/

namespace TeaRs.Scan

open List

variable {β : Type} [DecidableEq β]

/-- The pattern stands in the text at this index. -/
def Occurs (pattern text : List β) (index : Nat) : Prop :=
  pattern <+: text.drop index

instance (pattern text : List β) (index : Nat) : Decidable (Occurs pattern text index) :=
  inferInstanceAs (Decidable (pattern <+: text.drop index))

/-- The first index at which the pattern stands. -/
def find (pattern text : List β) : Option Nat :=
  (range (text.length + 1)).find? (fun index => Occurs pattern text index)

/-- The earliest accepted one among the first occurrences of the patterns. -/
def nextMatch (accepts : Nat → List β → Bool) (patterns : List (List β)) (text : List β) :
    Option (Nat × List β) :=
  ((patterns.filterMap fun pattern => (find pattern text).map (·, pattern)).filter
    fun candidate => accepts candidate.1 candidate.2).argmin Prod.fst

/-- Each rejected occurrence before the limit comes after an accepted one, with no stop between. -/
def Covered (accepts : Nat → List β → Bool) (patterns : List (List β)) (stop : β → Bool)
    (text : List β) (limit : Nat) : Prop :=
  ∀ index pattern, index < limit → pattern ∈ patterns → Occurs pattern text index →
    accepts index pattern = false →
    ∃ earlier other, earlier ≤ index ∧ other ∈ patterns ∧ Occurs other text earlier ∧
      accepts earlier other = true ∧
      ∀ between, earlier ≤ between → between < index → ∀ x ∈ text[between]?, stop x = false

variable {accepts : Nat → List β → Bool} {patterns : List (List β)} {stop : β → Bool}
  {pattern text : List β} {index limit : Nat}

omit [DecidableEq β] in
theorem Occurs.length_le (h : Occurs pattern text index) (ne : pattern ≠ []) :
    index + pattern.length ≤ text.length := by
  have le := List.IsPrefix.length_le h
  have pos := length_pos_iff.mpr ne
  rw [length_drop] at le
  omega

omit [DecidableEq β] in
theorem occurs_append_iff {front back : List β} :
    Occurs pattern (front ++ back) (front.length + index) ↔ Occurs pattern back index := by
  rw [Occurs, Occurs, drop_length_add_append]

omit [DecidableEq β] in
theorem not_occurs_zero {x : β} (ne : pattern ≠ []) (lacks : x ∉ pattern) :
    ¬ Occurs pattern (x :: text) 0 := by
  intro occurs
  cases pattern with
  | nil => exact ne rfl
  | cons y pattern =>
    rw [Occurs, drop_zero, cons_prefix_cons] at occurs
    exact lacks (occurs.1 ▸ mem_cons_self)

omit [DecidableEq β] in
theorem prefix_of_prefix_append_cons {front back : List β} {x : β}
    (h : pattern <+: front ++ x :: back) (lacks : x ∉ pattern) : pattern <+: front := by
  rcases prefix_or_prefix_of_prefix h (prefix_append front _) with shorter | ⟨rest, rfl⟩
  · exact shorter
  · rw [prefix_append_right_inj] at h
    cases rest with
    | nil => exact ⟨[], by simp⟩
    | cons y rest =>
      rw [cons_prefix_cons] at h
      exact absurd (by simp [h.1]) lacks

theorem find_eq_some (h : find pattern text = some index) : Occurs pattern text index := by
  have found := find?_some h
  exact of_decide_eq_true found

theorem exists_find_le (ne : pattern ≠ []) (h : Occurs pattern text index) :
    ∃ first, find pattern text = some first ∧ first ≤ index := by
  have le := h.length_le ne
  have bound : index < text.length + 1 := by omega
  cases found : find pattern text with
  | none =>
    rw [find, find?_eq_none] at found
    exact absurd (decide_eq_true h) (found index (mem_range.mpr bound))
  | some first =>
    refine ⟨first, rfl, Nat.le_of_not_lt fun lt => ?_⟩
    rw [find, find?_range_eq_some] at found
    exact absurd (decide_eq_true h) (by simpa using found.2.2 index lt)

theorem of_nextMatch_eq_some (h : nextMatch accepts patterns text = some (index, pattern)) :
    pattern ∈ patterns ∧ Occurs pattern text index ∧ accepts index pattern = true := by
  have member := argmin_mem (Option.mem_def.mpr h)
  obtain ⟨candidate, accepted⟩ := mem_filter.mp member
  obtain ⟨source, listed, found⟩ := mem_filterMap.mp candidate
  obtain ⟨first, first_eq, pair⟩ := Option.map_eq_some_iff.mp found
  obtain ⟨rfl, rfl⟩ := Prod.mk.inj pair
  exact ⟨listed, find_eq_some first_eq, accepted⟩

theorem exists_nextMatch_le (listed : pattern ∈ patterns) (found : find pattern text = some index)
    (accepted : accepts index pattern = true) :
    ∃ first other, nextMatch accepts patterns text = some (first, other) ∧ first ≤ index := by
  have member : (index, pattern) ∈
      (patterns.filterMap fun pattern => (find pattern text).map (·, pattern)).filter
        fun candidate => accepts candidate.1 candidate.2 :=
    mem_filter.mpr ⟨mem_filterMap.mpr ⟨pattern, listed, by rw [found]; rfl⟩, accepted⟩
  cases taken : nextMatch accepts patterns text with
  | none =>
    rw [nextMatch, argmin_eq_none] at taken
    rw [taken] at member
    cases member
  | some candidate =>
    exact ⟨candidate.1, candidate.2, rfl,
      le_of_mem_argmin member (Option.mem_def.mpr taken)⟩

namespace Covered

/-- Where no rejected occurrence stands alone, the match that is taken is not behind an accepted
occurrence. -/
theorem exists_nextMatch (covered : Covered accepts patterns stop text limit)
    (nonempty : ∀ pattern ∈ patterns, pattern ≠ []) (listed : pattern ∈ patterns)
    (occurs : Occurs pattern text index) (accepted : accepts index pattern = true)
    (le : index ≤ limit) :
    ∃ first other, nextMatch accepts patterns text = some (first, other) ∧ first ≤ index := by
  -- The induction is on the index: a rejected first occurrence leads to an earlier accepted one.
  induction index using Nat.strong_induction_on generalizing pattern with
  | _ index ih =>
    obtain ⟨first, found, first_le⟩ := exists_find_le (nonempty _ listed) occurs
    cases first_accepted : accepts first pattern with
    | true =>
      obtain ⟨taken, other, taken_eq, taken_le⟩ := exists_nextMatch_le listed found first_accepted
      exact ⟨taken, other, taken_eq, taken_le.trans first_le⟩
    | false =>
      have lt : first < index := by
        refine Nat.lt_of_le_of_ne first_le fun same => ?_
        rw [same, accepted] at first_accepted
        cases first_accepted
      obtain ⟨earlier, other, earlier_le, other_listed, other_occurs, other_accepted, -⟩ :=
        covered first pattern (by omega) listed (find_eq_some found) first_accepted
      obtain ⟨taken, other', taken_eq, taken_le⟩ :=
        ih earlier (by omega) other_listed other_occurs other_accepted (by omega)
      exact ⟨taken, other', taken_eq, by omega⟩

omit [DecidableEq β] in
/-- The condition passes to the text behind a stop. -/
theorem suffix {front back : List β} (covered : Covered accepts patterns stop (front ++ back) limit)
    (accepts' : Nat → List β → Bool) (same : ∀ index pattern, 0 < index →
      accepts (front.length + index) pattern = accepts' index pattern)
    (head : ∀ x ∈ back.head?, stop x = true)
    (clean : ∀ pattern ∈ patterns, pattern ≠ [] ∧ ∀ x ∈ pattern, stop x = false) :
    Covered accepts' patterns stop back (limit - front.length) := by
  -- No pattern starts at the stop itself.
  have pos : ∀ {index pattern}, pattern ∈ patterns → Occurs pattern back index → 0 < index := by
    intro index pattern listed occurs
    refine Nat.pos_of_ne_zero fun zero => ?_
    cases back with
    | nil => exact (clean _ listed).1 (prefix_nil.mp (by simpa [Occurs] using occurs))
    | cons x back =>
      refine not_occurs_zero (clean _ listed).1 (fun member => ?_) (zero ▸ occurs)
      have stops := head x rfl
      rw [(clean _ listed).2 x member] at stops
      cases stops
  intro index pattern lt listed occurs rejected
  obtain ⟨earlier, other, earlier_le, other_listed, other_occurs, accepted, between⟩ :=
    covered (front.length + index) pattern (by omega) listed (occurs_append_iff.mpr occurs)
      (by rw [same _ _ (pos listed occurs), rejected])
  have index_pos := pos listed occurs
  have behind : front.length ≤ earlier := by
    refine Nat.le_of_not_lt fun before => ?_
    obtain ⟨x, back_eq⟩ : ∃ x, back.head? = some x := by
      have le := occurs.length_le (clean _ listed).1
      cases back with
      | nil =>
        have := length_pos_iff.mpr (clean _ listed).1
        simp only [length_nil] at le
        omega
      | cons x back => exact ⟨x, rfl⟩
    have stops := head x back_eq
    rw [between front.length before.le (by omega) x
      (by simpa [getElem?_append_right, head?_eq_getElem?] using back_eq)] at stops
    cases stops
  obtain ⟨earlier, rfl⟩ := Nat.exists_eq_add_of_le behind
  have other_occurs := occurs_append_iff.mp other_occurs
  refine ⟨earlier, other, by omega, other_listed, other_occurs,
    by rw [← same _ _ (pos other_listed other_occurs), accepted], fun k le lt => ?_⟩
  have clear := between (front.length + k) (by omega) (by omega)
  rwa [getElem?_append_right (by omega), Nat.add_sub_cancel_left] at clear

end Covered

end TeaRs.Scan
