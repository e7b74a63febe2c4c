import Mathlib

/-!
# A replicated lifecycle

One task has a lifecycle (request, start, settle) and replicas of its state, one for each key. A
replica moves on its own; a new replica may be copied from somewhere. If a copy never carries a
task that could still move, at most one replica is ever live, so the task starts and settles at
most once over all replicas together.

## Main definitions

* `Phase`: the phases of the lifecycle.
* `Replicas κ`: the phases of all replicas, and the events counted over all of them.
* `Replicas.Step`: the moves of one replica, and the copies.

## Main results

* `Replicas.AtMostOnce.step`: every step keeps the invariant.
* `Replicas.atMostOnce_of_reachable`: at most one start and one settlement are counted.
-/

namespace TeaRs

open Function

/-- The phases of a lifecycle. -/
inductive Phase where
  | absent | fresh | running | settled
  deriving DecidableEq

/-- The task can still start or settle. -/
def Phase.isLive : Phase → Bool
  | fresh | running => true
  | absent | settled => false

/-- The replicas of one task, and what was counted over all of them. -/
@[ext]
structure Replicas (κ : Type) where
  phases : κ → Phase
  requested : Bool
  starts : Nat
  settles : Nat

namespace Replicas

variable {κ : Type} [DecidableEq κ] {x y : Replicas κ}

/-- No replica knows the task. -/
def empty : Replicas κ where
  phases := fun _ => .absent
  requested := false
  starts := 0
  settles := 0

/-- A replica moves, or a new replica is copied in a phase in which the task no longer moves. -/
inductive Step : Replicas κ → Replicas κ → Prop
  | request {x : Replicas κ} {k : κ} (new : x.requested = false) :
      Step x { x with phases := update x.phases k .fresh, requested := true }
  | start {x : Replicas κ} {k : κ} (ready : x.phases k = .fresh) :
      Step x { x with phases := update x.phases k .running, starts := x.starts + 1 }
  | settle {x : Replicas κ} {k : κ} (live : (x.phases k).isLive = true) :
      Step x { x with phases := update x.phases k .settled, settles := x.settles + 1 }
  | copy {x : Replicas κ} {k : κ} {p : Phase} (still : p.isLive = false)
      (known : p ≠ .absent → x.requested = true) :
      Step x { x with phases := update x.phases k p }

/-- At most one replica is live, and the counts are what its phase allows. -/
structure AtMostOnce (x : Replicas κ) : Prop where
  unique : ∀ k l, (x.phases k).isLive = true → (x.phases l).isLive = true → k = l
  unrequested : x.requested = false → (∀ k, x.phases k = .absent) ∧ x.starts = 0 ∧ x.settles = 0
  fresh : ∀ k, x.phases k = .fresh → x.starts = 0
  live : ∀ k, (x.phases k).isLive = true → x.settles = 0
  starts_le : x.starts ≤ 1
  settles_le : x.settles ≤ 1

omit [DecidableEq κ] in
theorem atMostOnce_empty : (empty : Replicas κ).AtMostOnce where
  unique _ _ h := by cases h
  unrequested _ := ⟨fun _ => rfl, rfl, rfl⟩
  fresh _ h := by cases h
  live _ h := by cases h
  starts_le := Nat.zero_le 1
  settles_le := Nat.zero_le 1

/-- A replica that is live after an update is the updated one, in a live phase, or was live. -/
theorem isLive_update {phases : κ → Phase} {k l : κ} {p : Phase}
    (h : (update phases k p l).isLive = true) :
    l = k ∧ p.isLive = true ∨ l ≠ k ∧ (phases l).isLive = true := by
  by_cases hl : l = k
  · subst hl
    rw [update_self] at h
    exact .inl ⟨rfl, h⟩
  · rw [update_of_ne hl] at h
    exact .inr ⟨hl, h⟩

/-- Every step keeps the invariant. -/
theorem AtMostOnce.step (h : x.AtMostOnce) (hstep : Step x y) : y.AtMostOnce := by
  cases hstep with
  | @request k new =>
    obtain ⟨absent, hstarts, hsettles⟩ := h.unrequested new
    have only {l : κ} (hl : (update x.phases k .fresh l).isLive = true) : l = k := by
      rcases isLive_update hl with ⟨rfl, -⟩ | ⟨-, hl⟩
      · rfl
      · rw [absent l] at hl
        cases hl
    exact {
      unique := fun l m hl hm => (only hl).trans (only hm).symm
      unrequested := fun hr => by cases hr
      fresh := fun _ _ => hstarts
      live := fun _ _ => hsettles
      starts_le := h.starts_le
      settles_le := h.settles_le }
  | @start k ready =>
    have live : (x.phases k).isLive = true := by rw [ready]; rfl
    have hstarts := h.fresh k ready
    have only {l : κ} (hl : (update x.phases k .running l).isLive = true) : l = k := by
      rcases isLive_update hl with ⟨rfl, -⟩ | ⟨-, hl⟩
      · rfl
      · exact h.unique _ _ hl live
    refine ⟨fun l m hl hm => (only hl).trans (only hm).symm, fun hr => ?_, fun l hl => ?_,
      fun _ _ => h.live k live, by simp [hstarts], h.settles_le⟩
    · have := (h.unrequested hr).1 k
      cases ready.symm.trans this
    · obtain rfl := only (congrArg Phase.isLive hl)
      simp at hl
  | @settle k live =>
    have hsettles := h.live k live
    have none {l : κ} (hl : (update x.phases k .settled l).isLive = true) : False := by
      rcases isLive_update hl with ⟨-, hl⟩ | ⟨hne, hl⟩
      · cases hl
      · exact hne (h.unique _ _ hl live)
    refine ⟨fun l m hl => (none hl).elim, fun hr => ?_, fun l hl => ?_,
      fun l hl => (none hl).elim, h.starts_le, by simp [hsettles]⟩
    · rw [(h.unrequested hr).1 k] at live
      cases live
    · exact (none (congrArg Phase.isLive hl)).elim
  | @copy k p still known =>
    have old {l : κ} (hl : (update x.phases k p l).isLive = true) :
        l ≠ k ∧ (x.phases l).isLive = true := by
      rcases isLive_update hl with ⟨-, hl⟩ | hl
      · cases still.symm.trans hl
      · exact hl
    refine ⟨fun l m hl hm => h.unique l m (old hl).2 (old hm).2, fun hr => ?_, fun l hl => ?_,
      fun l hl => h.live l (old hl).2, h.starts_le, h.settles_le⟩
    · obtain ⟨absent, counts⟩ := h.unrequested hr
      refine ⟨fun l => ?_, counts⟩
      by_cases hl : l = k
      · subst hl
        simp only [update_self]
        by_contra hp
        cases hr.symm.trans (known hp)
      · exact (update_of_ne hl _ _).trans (absent l)
    · have hne := (old (congrArg Phase.isLive hl)).1
      exact h.fresh l ((update_of_ne hne _ _).symm.trans hl)

/-- Over all replicas together, the task starts and settles at most once. -/
theorem atMostOnce_of_reachable (h : Relation.ReflTransGen Step empty x) : x.AtMostOnce := by
  induction h with
  | refl => exact atMostOnce_empty
  | tail _ step ih => exact ih.step step

end Replicas

end TeaRs
