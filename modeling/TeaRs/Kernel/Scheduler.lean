import TeaRs.Kernel.Config
import TeaRs.Tools.Registry

/-!
# Lanes

The scheduler of the `tea-kernel` crate. It never executes a tool: it distributes validated
invocations over lanes. All invocations that may run concurrently share one lane, the serial ones
share another, and every exclusive invocation has a lane of its own.

## Main definitions

* `Lane`, `SchedulePlan`, `Scheduler.plan`.
* `SchedulePlan.laneOrder`: the invocations in the order in which the lanes hold them.

## Main results

* `Scheduler.plan_eq_ok_iff`: what is scheduled, and when.
* `Scheduler.plan_lanes`: a plan holds every invocation once, in lanes that keep the source order and
  the rules of their classes.
-/

namespace TeaRs

open List

/-- `Lane`: invocations that share an execution rule. -/
structure Lane where
  schedulerClass : SchedulerClass
  invocations : List ValidatedToolInvocation
  deriving DecidableEq

/-- `Lane::allows_parallel`. -/
def Lane.allowsParallel (lane : Lane) : Bool := lane.schedulerClass.allowsParallelExecution

/-- `SchedulePlan`. -/
structure SchedulePlan where
  lanes : List Lane
  sourceOrder : List ToolCallId
  deriving DecidableEq

/-- The invocations of a plan, lane after lane. -/
def SchedulePlan.laneOrder (plan : SchedulePlan) : List ValidatedToolInvocation :=
  plan.lanes.flatMap (·.invocations)

namespace Scheduler

/-- The lane of all invocations of a kind, if there are any. -/
def sharedLane (schedulerClass : SchedulerClass) (invocations : List ValidatedToolInvocation) :
    List Lane :=
  if invocations.isEmpty then [] else [⟨schedulerClass, invocations⟩]

/-- The invocations with one of the given classes, in source order. -/
def ofClass (classes : List SchedulerClass) (invocations : List ValidatedToolInvocation) :
    List ValidatedToolInvocation :=
  invocations.filter fun invocation => classes.contains invocation.schedulerClass

/-- The error for an invocation with unknown effects. -/
def schedulerConflict : KernelError :=
  .new .schedulerConflict "tool invocation requires policy before scheduling"

/-- `Scheduler::plan`. The second check for a class that requires policy is never reached. -/
def plan (invocations : List ValidatedToolInvocation) : Except KernelError SchedulePlan :=
  if invocations.any (·.schedulerClass.requiresPolicy) then .error schedulerConflict
  else .ok
    { lanes :=
        sharedLane .parallelReadOnly
            (ofClass [.parallelReadOnly, .parallelRetrySafe] invocations) ++
          sharedLane .serial (ofClass [.serial] invocations) ++
          (ofClass [.exclusive] invocations).map fun invocation => ⟨.exclusive, [invocation]⟩
      sourceOrder := invocations.map (·.toolCallId) }

variable {invocations : List ValidatedToolInvocation}

theorem flatMap_sharedLane (schedulerClass : SchedulerClass)
    (invocations : List ValidatedToolInvocation) :
    (sharedLane schedulerClass invocations).flatMap (·.invocations) = invocations := by
  cases invocations <;> simp [sharedLane]

variable {scheduled : SchedulePlan}

theorem laneOrder_eq (h : plan invocations = .ok scheduled) :
    scheduled.laneOrder = ofClass [.parallelReadOnly, .parallelRetrySafe] invocations ++
      ofClass [.serial] invocations ++ ofClass [.exclusive] invocations := by
  rw [plan] at h
  split_ifs at h
  cases h
  simp [SchedulePlan.laneOrder, flatMap_sharedLane, flatMap_map]

theorem perm_ofClass (h : invocations.any (·.schedulerClass.requiresPolicy) = false) :
    (ofClass [.parallelReadOnly, .parallelRetrySafe] invocations ++
      ofClass [.serial] invocations ++ ofClass [.exclusive] invocations).Perm invocations := by
  induction invocations with
  | nil => simp [ofClass]
  | cons invocation invocations ih =>
    simp only [any_cons, Bool.or_eq_false_iff] at h
    have rest := ih h.2
    cases hclass : invocation.schedulerClass with
    | policyRequired => simp [hclass, SchedulerClass.requiresPolicy] at h
    | parallelReadOnly | parallelRetrySafe =>
      simpa [ofClass, hclass] using rest
    | serial =>
      have moved (left right : List ValidatedToolInvocation) :
          (left ++ invocation :: right).Perm (invocation :: (left ++ right)) := perm_middle
      simp only [append_assoc] at rest
      simpa [ofClass, hclass] using (moved _ _).trans (rest.cons invocation)
    | exclusive =>
      have moved (left right : List ValidatedToolInvocation) :
          (left ++ invocation :: right).Perm (invocation :: (left ++ right)) := perm_middle
      simpa [ofClass, hclass] using (moved _ _).trans (rest.cons invocation)

theorem laneOrder_perm (h : plan invocations = .ok scheduled) :
    scheduled.laneOrder.Perm invocations := by
  rw [laneOrder_eq h]
  refine perm_ofClass ?_
  rw [plan] at h
  split_ifs at h with policy
  simpa using policy

/-- Exactly the invocations with known effects are scheduled. -/
theorem plan_eq_ok_iff : (∃ scheduled, plan invocations = .ok scheduled) ↔
      ∀ invocation ∈ invocations, invocation.schedulerClass ≠ .policyRequired := by
  have requires (invocation : ValidatedToolInvocation) :
      invocation.schedulerClass.requiresPolicy = true ↔
        invocation.schedulerClass = .policyRequired := by
    cases invocation.schedulerClass <;> simp [SchedulerClass.requiresPolicy]
  rw [plan]
  split_ifs with policy
  · simp only [exists_false, false_iff, not_forall, not_not]
    obtain ⟨invocation, hmem, h⟩ := any_eq_true.mp policy
    exact ⟨invocation, hmem, (requires invocation).mp h⟩
  · refine iff_of_true ⟨_, rfl⟩ fun invocation hmem h => policy ?_
    exact any_eq_true.mpr ⟨invocation, hmem, (requires invocation).mpr h⟩

theorem lane_cases (h : plan invocations = .ok scheduled) {lane : Lane}
    (mem : lane ∈ scheduled.lanes) :
    lane = ⟨.parallelReadOnly, ofClass [.parallelReadOnly, .parallelRetrySafe] invocations⟩ ∨
      lane = ⟨.serial, ofClass [.serial] invocations⟩ ∨
      ∃ invocation ∈ ofClass [.exclusive] invocations, lane = ⟨.exclusive, [invocation]⟩ := by
  rw [plan] at h
  split_ifs at h
  cases h
  have shared {schedulerClass : SchedulerClass} {own : List ValidatedToolInvocation}
      (mem : lane ∈ sharedLane schedulerClass own) : lane = ⟨schedulerClass, own⟩ := by
    rw [sharedLane] at mem
    split_ifs at mem
    · cases mem
    · exact mem_singleton.mp mem
  rcases mem_append.mp mem with mem | mem
  · exact (mem_append.mp mem).imp shared fun mem => .inl (shared mem)
  · obtain ⟨invocation, own, rfl⟩ := mem_map.mp mem
    exact .inr (.inr ⟨invocation, own, rfl⟩)

/-- Invocations of which none requires policy are planned. The lanes hold each of them once and in
source order, what may run in parallel is read-only or safe to retry, and what is exclusive is
alone. -/
theorem plan_lanes
    (known : ∀ invocation ∈ invocations, invocation.schedulerClass ≠ .policyRequired) :
    ∃ scheduled, plan invocations = .ok scheduled ∧ scheduled.laneOrder.Perm invocations ∧
      scheduled.sourceOrder = invocations.map (·.toolCallId) ∧
      ∀ lane ∈ scheduled.lanes, lane.invocations.Sublist invocations ∧
        (lane.allowsParallel = true → ∀ invocation ∈ lane.invocations,
          invocation.schedulerClass = .parallelReadOnly ∨
            invocation.schedulerClass = .parallelRetrySafe) ∧
        ∀ invocation ∈ lane.invocations, invocation.schedulerClass = .exclusive →
          lane.invocations = [invocation] := by
  obtain ⟨scheduled, h⟩ := plan_eq_ok_iff.mpr known
  have order : scheduled.sourceOrder = invocations.map (·.toolCallId) := by
    rw [plan] at h
    split_ifs at h
    cases h
    rfl
  refine ⟨scheduled, h, laneOrder_perm h, order, fun lane mem => ?_⟩
  rcases lane_cases h mem with rfl | rfl | ⟨invocation, own, rfl⟩
  · refine ⟨filter_sublist, fun _ invocation own => ?_, fun invocation own exclusive => ?_⟩
    · simpa using (mem_filter.mp own).2
    · simp [ofClass, exclusive] at own
  · refine ⟨filter_sublist, nofun, fun invocation own exclusive => ?_⟩
    simp [ofClass, exclusive] at own
  · refine ⟨singleton_sublist.mpr (mem_filter.mp own).1, nofun, fun other alone _ => ?_⟩
    rw [mem_singleton.mp alone]

theorem plan_lanes_read :
    ∃ scheduled, plan [readInvocation ⟨0⟩, readInvocation ⟨1⟩] = .ok scheduled ∧
      scheduled.sourceOrder = [⟨0⟩, ⟨1⟩] := by
  obtain ⟨scheduled, h, -, order, -⟩ :=
    @plan_lanes [readInvocation ⟨0⟩, readInvocation ⟨1⟩] (by decide +kernel)
  exact ⟨scheduled, h, order⟩

end Scheduler

end TeaRs
