import TeaRs.Lib.Scan

/-!
# Replacing a pattern in a text

A text is read from left to right. Where the pattern stands, an occurrence is taken and reading goes
on behind it, so that occurrences do not overlap. An empty pattern stands before each symbol and at
the end.

## Main definitions

* `Scan.LeftToRight`: the occurrences that are taken.
* `Scan.matchIndices`: their list, as computed.
* `Scan.splice`: the text with the slices at some indices replaced.

## Main results

* `Scan.leftToRight_matchIndices`: the computed list has exactly the occurrences that are taken.
-/

namespace TeaRs.Scan

variable {β : Type}

/-- The starts, in order, of the occurrences from `skip` on that do not overlap an earlier one that
is taken. -/
structure LeftToRight (pattern text : List β) (skip : Nat) (starts : List Nat) : Prop where
  sorted : starts.Pairwise (· < ·)
  mem_iff : ∀ index, index ∈ starts ↔ Occurs pattern text index ∧ index ≤ text.length ∧
    skip ≤ index ∧ ∀ earlier ∈ starts, earlier < index → earlier + pattern.length ≤ index

/-- The text from `last` on, with the slices of a length that start at the indices replaced. -/
def splice (text : List β) (length : Nat) (new : List β) : (last : Nat) → List Nat → List β
  | last, [] => text.drop last
  | last, start :: starts =>
    (text.take start).drop last ++ new ++ splice text length new (start + length) starts

variable [DecidableEq β]

/-- The starts of the occurrences that are taken, after so many symbols that are not looked at. -/
def matchIndices (pattern : List β) : (skip : Nat) → List β → List Nat
  | skip, [] => if skip = 0 ∧ pattern = [] then [0] else []
  | skip, symbol :: text =>
    if skip = 0 ∧ pattern <+: symbol :: text then
      0 :: (matchIndices pattern (pattern.length - 1) text).map (· + 1)
    else (matchIndices pattern (skip - 1) text).map (· + 1)

variable {pattern text : List β} {symbol : β} {starts : List Nat}

omit [DecidableEq β] in
theorem occurs_cons_succ {index : Nat} :
    Occurs pattern (symbol :: text) (index + 1) ↔ Occurs pattern text index := Iff.rfl

omit [DecidableEq β] in
/-- The occurrence at the start of a text is taken, and then those that do not overlap it. -/
theorem LeftToRight.cons_taken (taken : LeftToRight pattern text (pattern.length - 1) starts)
    (here : pattern <+: symbol :: text) :
    LeftToRight pattern (symbol :: text) 0 (0 :: starts.map (· + 1)) := by
  have mem_succ (index : Nat) : index + 1 ∈ 0 :: starts.map (· + 1) ↔ index ∈ starts := by simp
  refine ⟨?_, fun index => ?_⟩
  · simp only [List.pairwise_cons, List.mem_map, forall_exists_index, and_imp, List.pairwise_map,
      Nat.add_lt_add_iff_right]
    exact ⟨by omega, taken.sorted⟩
  · cases index with
    | zero => simp [Occurs, here]
    | succ index =>
      rw [mem_succ, taken.mem_iff, occurs_cons_succ, List.length_cons, Nat.add_le_add_iff_right]
      refine and_congr_right fun _ => and_congr_right fun _ => ?_
      constructor
      · rintro ⟨behind, apart⟩
        refine ⟨Nat.zero_le _, fun earlier mem lt => ?_⟩
        cases earlier with
        | zero => omega
        | succ earlier => have := apart earlier ((mem_succ earlier).mp mem) (by omega); omega
      · rintro ⟨-, apart⟩
        have first := apart 0 (by simp) (by omega)
        refine ⟨by omega, fun earlier mem lt => ?_⟩
        have := apart (earlier + 1) ((mem_succ earlier).mpr mem) (by omega)
        omega

omit [DecidableEq β] in
/-- Where no occurrence is taken at the start of a text, those of the rest are. -/
theorem LeftToRight.cons_passed {skip : Nat} (taken : LeftToRight pattern text (skip - 1) starts)
    (passed : ¬(skip = 0 ∧ pattern <+: symbol :: text)) :
    LeftToRight pattern (symbol :: text) skip (starts.map (· + 1)) := by
  have mem_succ (index : Nat) : index + 1 ∈ starts.map (· + 1) ↔ index ∈ starts := by simp
  have zero_notMem : 0 ∉ starts.map (· + 1) := by simp
  refine ⟨?_, fun index => ?_⟩
  · simpa [List.pairwise_map] using taken.sorted
  · cases index with
    | zero =>
      refine iff_of_false zero_notMem ?_
      rintro ⟨occurs, -, le, -⟩
      exact passed ⟨by omega, occurs⟩
    | succ index =>
      rw [mem_succ, taken.mem_iff, occurs_cons_succ, List.length_cons, Nat.add_le_add_iff_right]
      refine and_congr_right fun _ => and_congr_right fun _ => and_congr (by omega) ?_
      constructor
      · intro apart earlier mem lt
        cases earlier with
        | zero => exact absurd mem zero_notMem
        | succ earlier => have := apart earlier ((mem_succ earlier).mp mem) (by omega); omega
      · intro apart earlier mem lt
        have := apart (earlier + 1) ((mem_succ earlier).mpr mem) (by omega)
        omega

/-- The computed starts are those of the occurrences that are taken from left to right. -/
theorem leftToRight_matchIndices (pattern text : List β) (skip : Nat) :
    LeftToRight pattern text skip (matchIndices pattern skip text) := by
  induction text generalizing skip with
  | nil =>
    rw [matchIndices]
    split_ifs with empty
    · refine ⟨by simp, fun index => ?_⟩
      simp [Occurs, empty]
    · refine ⟨by simp, fun index => ?_⟩
      simp only [Occurs, List.not_mem_nil, List.drop_nil, List.prefix_nil, List.length_nil,
        Nat.le_zero, false_iff]
      rintro ⟨none, rfl, skips, -⟩
      exact empty ⟨by omega, none⟩
  | cons symbol text ih =>
    rw [matchIndices]
    split_ifs with here
    · obtain ⟨rfl, here⟩ := here
      exact (ih _).cons_taken here
    · exact (ih _).cons_passed here

theorem length_matchIndices_le (pattern text : List β) (skip : Nat) :
    (matchIndices pattern skip text).length ≤ text.length + 1 := by
  induction text generalizing skip with
  | nil =>
    rw [matchIndices]
    split_ifs <;> simp
  | cons symbol text ih =>
    rw [matchIndices]
    split_ifs
    · simpa using ih _
    · simpa using (ih _).trans (Nat.le_succ _)

end TeaRs.Scan
