import TeaRs.Lib.Run

/-!
# Recognizers

A recognizer takes or refuses the symbols of a word one after another. If its state always describes
the word taken so far, and from such a state it takes exactly the symbols that fit behind that word,
then it takes exactly the words in which every symbol fits behind the ones before it.

## Main definitions

* `EachFits`: every symbol of a word fits behind the symbols before it.

## Main results

* `Run.exists_iff_eachFits`: the words that a recognizer takes.
-/

namespace TeaRs

open List

variable {σ ε : Type} {R : σ → ε → σ → Prop} {s t : σ} {word : List ε} {e : ε}
variable {Fits : List ε → ε → Prop} {Describes : List ε → σ → Prop}

/-- Every symbol of a word fits behind the symbols before it. -/
def EachFits (Fits : List ε → ε → Prop) (word : List ε) : Prop :=
  ∀ before e after, word = before ++ e :: after → Fits before e

theorem eachFits_nil : EachFits Fits [] := by
  intro before e after h
  simp at h

theorem eachFits_snoc_iff : EachFits Fits (word ++ [e]) ↔ EachFits Fits word ∧ Fits word e := by
  constructor
  · intro fits
    refine ⟨fun before e' after h => ?_, fits word e [] rfl⟩
    exact fits before e' (after ++ [e]) (by rw [h, append_assoc, cons_append])
  · rintro ⟨fits, last⟩ before e' after h
    rcases eq_nil_or_concat after with rfl | ⟨after, e'', rfl⟩
    · obtain ⟨rfl, rfl⟩ := append_singleton_inj.mp h
      exact last
    · rw [concat_eq_append, ← cons_append, ← append_assoc] at h
      exact fits before e' after (append_singleton_inj.mp h).1

theorem eachFits_append_iff {word' : List ε} : EachFits Fits (word ++ word') ↔
      EachFits Fits word ∧ EachFits (fun before e => Fits (word ++ before) e) word' := by
  induction word' using reverseRecOn with
  | nil => simp [eachFits_nil]
  | append_singleton word' e ih =>
    rw [← append_assoc, eachFits_snoc_iff, eachFits_snoc_iff, ih, and_assoc]

theorem EachFits.imp {Fits' : List ε → ε → Prop} (fits : EachFits Fits word)
    (weaker : ∀ before e after, word = before ++ e :: after → Fits before e → Fits' before e) :
    EachFits Fits' word :=
  fun before e after split => weaker before e after split (fits before e after split)

/-- A list made from a word has no duplicates exactly if no symbol brings an element that the symbols
before it brought. -/
theorem nodup_filterMap_iff {γ : Type} {f : ε → Option γ} : (word.filterMap f).Nodup ↔
      EachFits (fun before e => ∀ c, f e = some c → c ∉ before.filterMap f) word := by
  induction word using reverseRecOn with
  | nil => exact ⟨fun _ => eachFits_nil, fun _ => nodup_nil⟩
  | append_singleton word e ih =>
    rw [eachFits_snoc_iff, ← ih, filterMap_append]
    cases brought : f e with
    | none => simp [brought]
    | some c =>
      have single : [e].filterMap f = [c] := by simp [brought]
      rw [single, nodup_append_comm, singleton_append, nodup_cons, and_comm]
      simp

/-- A state that every step keeps in agreement with the word describes the word of a run. -/
theorem Run.describes (run : Run R s word t) (start : Describes [] s)
    (next : ∀ seen t e u, Describes seen t → R t e u → Describes (seen ++ [e]) u) :
    Describes word t := by
  induction run with
  | nil => exact start
  | snoc _ last ih => exact next _ _ _ _ ih last

/-- A recognizer whose state describes the word so far, and that takes exactly the symbols that fit
behind it, takes exactly the words in which each symbol fits. -/
theorem Run.exists_iff_eachFits (start : Describes [] s)
    (takes : ∀ seen t e, Describes seen t → ((∃ u, R t e u) ↔ Fits seen e))
    (next : ∀ seen t e u, Describes seen t → R t e u → Describes (seen ++ [e]) u) :
    (∃ t, Run R s word t) ↔ EachFits Fits word := by
  induction word using reverseRecOn with
  | nil => exact ⟨fun _ => eachFits_nil, fun _ => ⟨s, .nil⟩⟩
  | append_singleton word e ih =>
    rw [eachFits_snoc_iff, ← ih]
    constructor
    · rintro ⟨u, run⟩
      obtain ⟨t, run, last⟩ := snoc_iff.mp run
      exact ⟨⟨t, run⟩, (takes word t e (run.describes start next)).mp ⟨u, last⟩⟩
    · rintro ⟨⟨t, run⟩, fits⟩
      obtain ⟨u, last⟩ := (takes word t e (run.describes start next)).mpr fits
      exact ⟨u, .snoc run last⟩

end TeaRs
