import Mathlib

/-!
# Runs of a transition relation

A run is a list of labels that a transition relation accepts one after another. It is built at its
end, so that a property of all runs is proved by what the last step preserves.

## Main definitions

* `Run R s labels t`: the labels lead from `s` to `t`.

## Main results

* `Run.invariant`: a property that every step preserves holds at the end of every run.
* `Run.append_iff`: a run of an appended list splits at the seam.
* `Run.foldlM_iff`: the runs of a partial function are its folds.
* `Run.eq_of_deterministic`: a deterministic relation has at most one run of a list of labels.
* `Run.rel_of_step`: a preorder that every step respects relates the ends of a run.
* `Run.pairwise_guards`, `Run.nodup_guards`: steps guarded by a measure they increase have strictly
  increasing guards, so no two of them have the same.
-/

namespace TeaRs

variable {σ ε : Type} {R : σ → ε → σ → Prop} {s t u : σ} {l₁ l₂ labels : List ε} {e : ε}

/-- The labels lead from `s` to the state in the last argument. -/
inductive Run (R : σ → ε → σ → Prop) (s : σ) : List ε → σ → Prop
  | nil : Run R s [] s
  | snoc {labels : List ε} {t u : σ} {e : ε} (run : Run R s labels t) (step : R t e u) :
      Run R s (labels ++ [e]) u

namespace Run

variable {P : σ → Prop} {γ : Type} {guard : ε → Option γ}

/-- A property that every step preserves holds at the end of every run. -/
theorem invariant (run : Run R s labels t) (start : P s)
    (step : ∀ t e u, P t → R t e u → P u) : P t := by
  induction run with
  | nil => exact start
  | snoc _ last ih => exact step _ _ _ ih last

theorem nil_iff : Run R s [] t ↔ t = s := by
  constructor
  · generalize h : ([] : List ε) = labels
    intro run
    cases run with
    | nil => rfl
    | snoc => simp at h
  · rintro rfl
    exact .nil

theorem snoc_iff : Run R s (labels ++ [e]) u ↔ ∃ t, Run R s labels t ∧ R t e u := by
  constructor
  · generalize h : labels ++ [e] = labels'
    intro run
    cases run with
    | nil => simp at h
    | snoc run step =>
      obtain ⟨rfl, rfl⟩ := List.append_singleton_inj.mp h
      exact ⟨_, run, step⟩
  · rintro ⟨t, run, step⟩
    exact .snoc run step

theorem append_iff : Run R s (l₁ ++ l₂) u ↔ ∃ t, Run R s l₁ t ∧ Run R t l₂ u := by
  induction l₂ using List.reverseRecOn generalizing u with
  | nil => simp [nil_iff]
  | append_singleton l₂ e ih =>
    rw [← List.append_assoc, snoc_iff]
    constructor
    · rintro ⟨v, run, step⟩
      obtain ⟨t, first, second⟩ := ih.mp run
      exact ⟨t, first, .snoc second step⟩
    · rintro ⟨t, first, second⟩
      obtain ⟨v, second, step⟩ := snoc_iff.mp second
      exact ⟨v, ih.mpr ⟨t, first, second⟩, step⟩

theorem cons_iff : Run R s (e :: labels) u ↔ ∃ t, R s e t ∧ Run R t labels u := by
  have single {v : σ} : Run R s [e] v ↔ R s e v := by
    rw [← List.nil_append [e], snoc_iff]
    simp [nil_iff]
  rw [← List.singleton_append, append_iff]
  simp only [single]

/-- The runs of a partial function are its folds. -/
theorem foldlM_iff {step : σ → ε → Option σ} :
    Run (fun s e t => step s e = some t) s labels t ↔ labels.foldlM step s = some t := by
  induction labels generalizing s with
  | nil => simp [nil_iff, eq_comm]
  | cons e labels ih => simp only [cons_iff, ih, List.foldlM_cons, bind, Option.bind_eq_some_iff]

theorem mono {R' : σ → ε → σ → Prop} (run : Run R s labels t)
    (le : ∀ s e t, R s e t → R' s e t) : Run R' s labels t := by
  induction run with
  | nil => exact .nil
  | snoc _ last ih => exact .snoc ih (le _ _ _ last)

theorem and_of_forall {Q : σ → ε → Prop} (run : Run R s labels t)
    (meets : ∀ e ∈ labels, ∀ s, Q s e) : Run (fun s e t => R s e t ∧ Q s e) s labels t := by
  induction run with
  | nil => exact .nil
  | snoc _ last ih =>
    rw [List.forall_mem_append] at meets
    exact .snoc (ih meets.1) ⟨last, meets.2 _ List.mem_cons_self _⟩

/-- A deterministic relation has at most one run of a list of labels. -/
theorem eq_of_deterministic (deterministic : ∀ s e t u, R s e t → R s e u → t = u)
    (ht : Run R s labels t) (hu : Run R s labels u) : t = u := by
  induction ht generalizing u with
  | nil => exact (nil_iff.mp hu).symm
  | snoc _ last ih =>
    obtain ⟨v, run, step⟩ := snoc_iff.mp hu
    obtain rfl := ih run
    exact deterministic _ _ _ _ last step

/-- A reflexive and transitive relation that every step from a good state respects relates the
ends of a run from a good state. -/
theorem rel_of_step {Q : σ → σ → Prop} (run : Run R s labels t) (start : P s)
    (refl : ∀ s, Q s s) (trans : ∀ s t u, Q s t → Q t u → Q s u)
    (step : ∀ s e t, P s → R s e t → P t ∧ Q s t) : P t ∧ Q s t := by
  induction run with
  | nil => exact ⟨start, refl s⟩
  | snoc _ last ih =>
    obtain ⟨next, rel⟩ := step _ _ _ ih.1 last
    exact ⟨next, trans _ _ _ ih.2 rel⟩

/-- Steps that are guarded by the current value of a measure and increase it have strictly
increasing guards. -/
theorem pairwise_guards {μ : σ → ℕ} {level : γ → ℕ}
    (run : Run R s labels t) (start : P s) (step : ∀ s e t, P s → R s e t → P t ∧ μ s ≤ μ t)
    (strict : ∀ s e t g, P s → R s e t → guard e = some g → μ s = level g ∧ μ s < μ t) :
    (labels.filterMap guard).Pairwise (level · < level ·) ∧
      ∀ g ∈ labels.filterMap guard, level g < μ t := by
  have inv {labels : List ε} {t : σ} (run : Run R s labels t) : P t :=
    run.invariant start fun s e t before last => (step s e t before last).1
  induction run with
  | nil => simp
  | @snoc labels t u e run last ih =>
    obtain ⟨ordered, below⟩ := ih
    have grows := (step t e u (inv run) last).2
    have bound (g : γ) (hg : g ∈ labels.filterMap guard) : level g < μ u :=
      Nat.lt_of_lt_of_le (below g hg) grows
    rw [List.filterMap_append]
    cases hguard : guard e with
    | none => simpa [hguard] using ⟨ordered, fun g a ha h => bound g (by simpa using ⟨a, ha, h⟩)⟩
    | some g =>
      obtain ⟨current, increases⟩ := strict t e u g (inv run) last hguard
      have single : [e].filterMap guard = [g] := by simp [hguard]
      rw [single, List.pairwise_append]
      refine ⟨⟨ordered, List.pairwise_singleton _ _, ?_⟩, ?_⟩
      · intro a ha b hb
        rw [List.mem_singleton.mp hb, ← current]
        exact below a ha
      · intro a ha
        rcases List.mem_append.mp ha with ha | ha
        · exact bound a ha
        · rw [List.mem_singleton.mp ha, ← current]
          exact increases

/-- No two steps guarded by a measure they increase have the same guard. -/
theorem nodup_guards (μ : σ → ℕ) (level : γ → ℕ)
    (run : Run R s labels t) (start : P s) (step : ∀ s e t, P s → R s e t → P t ∧ μ s ≤ μ t)
    (strict : ∀ s e t g, P s → R s e t → guard e = some g → μ s = level g ∧ μ s < μ t) :
    (labels.filterMap guard).Nodup :=
  (run.pairwise_guards start step strict).1.imp fun hlt heq => absurd (heq ▸ hlt) (Nat.lt_irrefl _)

end Run

end TeaRs
