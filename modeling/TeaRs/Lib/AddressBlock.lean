import Mathlib

/-!
# Blocks of addresses

An address is a number of fixed width. A block is written as a network and the length of the prefix
that its members share; a member is found by masking the other bits off.

## Main definitions

* `inBlock`: membership in a block, by masks.
* `Holds`: membership in intervals, given by their first and last address.
* `Covers`: each of some intervals is one of some blocks.

## Main results

* `inBlock_iff`: the members of a block are the numbers with the same quotient.
* `Covers.not_holds`: what lies outside the blocks lies outside the intervals that they cover.
-/

namespace TeaRs

variable {w : Nat}

/-- The addresses that share the leading bits of the network. -/
def inBlock (value network : BitVec w) (length : Nat) : Bool :=
  value &&& BitVec.allOnes w <<< (w - length) == network &&& BitVec.allOnes w <<< (w - length)

theorem and_mask_eq_iff (value network : BitVec w) (low : Nat) :
    value &&& BitVec.allOnes w <<< low = network &&& BitVec.allOnes w <<< low ↔
      value >>> low = network >>> low := by
  constructor
  · intro same
    apply BitVec.eq_of_getLsbD_eq
    intro i bound
    have bit := congrArg (fun bits => bits.getLsbD (low + i)) same
    by_cases inside : low + i < w
    · simpa [inside, Nat.not_lt.mpr (Nat.le_add_right low i)] using bit
    · simp [BitVec.getLsbD_of_ge _ _ (Nat.le_of_not_lt inside)]
  · intro same
    apply BitVec.eq_of_getLsbD_eq
    intro i bound
    have bit := congrArg (fun bits => bits.getLsbD (i - low)) same
    by_cases high : low ≤ i
    · simpa [bound, high, Nat.not_lt.mpr high] using bit
    · simp [Nat.lt_of_not_le high]

/-- The members of a block are the numbers with the same quotient. -/
theorem inBlock_iff {value network : BitVec w} {length : Nat} : inBlock value network length ↔
      value.toNat / 2 ^ (w - length) = network.toNat / 2 ^ (w - length) := by
  rw [inBlock, beq_iff_eq, and_mask_eq_iff, BitVec.toNat_eq, BitVec.toNat_ushiftRight,
    BitVec.toNat_ushiftRight, Nat.shiftRight_eq_div_pow, Nat.shiftRight_eq_div_pow]

/-- A number lies between the first and the last address of one of the intervals. -/
def Holds (parts : List (Nat × Nat)) (value : Nat) : Prop :=
  ∃ part ∈ parts, part.1 ≤ value ∧ value ≤ part.2

/-- Each of the intervals is one of the blocks. -/
def Covers (blocks : List (BitVec w × Nat)) (parts : List (Nat × Nat)) : Prop :=
  ∀ part ∈ parts, ∃ block ∈ blocks,
    part.1 = block.1.toNat / 2 ^ (w - block.2) * 2 ^ (w - block.2) ∧
    part.2 = part.1 + (2 ^ (w - block.2) - 1)

instance (blocks : List (BitVec w × Nat)) (parts : List (Nat × Nat)) :
    Decidable (Covers blocks parts) :=
  inferInstanceAs (Decidable (∀ part ∈ parts, _))

/-- What lies outside the blocks lies outside the intervals that they cover. -/
theorem Covers.not_holds {blocks : List (BitVec w × Nat)} {parts : List (Nat × Nat)}
    (covers : Covers blocks parts) {value : BitVec w}
    (outside : ∀ block ∈ blocks, inBlock value block.1 block.2 = false) :
    ¬ Holds parts value.toNat := by
  rintro ⟨part, mem, low, high⟩
  obtain ⟨block, inside, first, last⟩ := covers part mem
  have pos : 0 < 2 ^ (w - block.2) := Nat.two_pow_pos _
  have member : inBlock value block.1 block.2 := by
    rw [inBlock_iff, Nat.div_eq_iff pos]
    omega
  simp [outside block inside] at member

end TeaRs
