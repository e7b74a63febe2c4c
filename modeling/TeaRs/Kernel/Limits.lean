import TeaRs.Kernel.Commit

/-!
# The limits of a run

A run is bounded by its limits: the loop goes on for at most as many tool iterations as they allow,
and the emitter stops delivering events (`run_loop_inner` in `tea-kernel/src/kernel.rs`,
`EventEmitter` in `tea-kernel/src/observe.rs`). The events of one invocation are numbered in order,
behind what the session and the sink have seen, whichever emissions fail.

## Main definitions

* `PortAction`: what changes the state of the ports.
* `Delivers`: what every action keeps, a transitive relation.

## Main results

* `AgentKernel.runLoopInner_loopFuel`: the loop of a run ends within its limits.
* `AgentKernel.delivered_in_order`: the events that an emitter delivers.
-/

namespace TeaRs

open StateError List

/-- Programs that begin alike and go on alike have the same result. -/
theorem StateError.bind_congr_run {ε σ α β : Type} {x : EStateM ε σ α} {f g : α → EStateM ε σ β}
    {s : σ} (h : ∀ a t, x s = .ok a t → f a t = g a t) : (x >>= f) s = (x >>= g) s := by
  rw [bind_run, bind_run]
  cases run : x s with
  | ok a t => exact h a t run
  | error e t => rfl

namespace AgentKernel

variable {kernel : AgentKernel}

/-! ### The loop of a run -/

section Loop

variable {config : KernelRunConfig} {runId : RunId} {turnId : TurnId}
  {snapshot next : SessionSnapshot} {progress later : RunProgress} {s t : KernelState}

theorem endRun_ne_ok {α : Type} {turn : Option TurnId} {error : KernelError} {a : α} :
    kernel.endRun snapshot runId turn error s ≠ .ok a t := by
  intro ok
  obtain ⟨_, _, -, failed⟩ := bind_eq_ok.mp ok
  cases failed

/-- The loop goes on only with one more tool iteration, and within the limit. -/
theorem toolIterations_of_processOutput {output : ModelTurnOutput}
    (ok : kernel.processOutput config runId turnId snapshot progress output s =
      .ok (.ok (next, later)) t) : later.toolIterations = progress.toolIterations + 1 ∧
      later.toolIterations ≤ config.limits.maxToolIterations := by
  rw [processOutput] at ok
  split_ifs at ok
  · generalize config.finalOutputFormat.map (kernel.validateFinalOutput · output) = verdict at ok
    rcases verdict with _ | _ | _
    on_goal 2 => exact absurd ok endRun_ne_ok
    all_goals
      obtain ⟨_, _, -, done⟩ := bind_eq_ok.mp ok
      cases done
  all_goals
    cases advanced : progress.advanceTools config with
    | error =>
      rw [advanced] at ok
      exact absurd ok endRun_ne_ok
    | ok advance =>
      simp only [advanced, bind_eq_ok] at ok
      obtain ⟨_, _, -, outcome, _, -, ok⟩ := ok
      cases outcome with
      | waiting => cases ok
      | continues =>
        obtain ⟨_, _, -, done⟩ := bind_eq_ok.mp ok
        cases done
        rw [RunProgress.advanceTools] at advanced
        split_ifs at advanced with _ limit
        cases advanced
        exact ⟨rfl, Nat.le_of_not_lt limit⟩

theorem runLoopInner_add {fuel : Nat} {autoCompacted : Bool} (extra : Nat)
    (enough : config.limits.maxToolIterations - progress.toolIterations +
      (if autoCompacted then 1 else 2) ≤ fuel) :
    kernel.runLoopInner config runId (fuel + extra) snapshot progress autoCompacted s =
      kernel.runLoopInner config runId fuel snapshot progress autoCompacted s := by
  induction fuel generalizing snapshot progress autoCompacted s with
  | zero => split at enough <;> omega
  | succ fuel ih =>
    rw [Nat.add_right_comm, runLoopInner, runLoopInner]
    refine bind_congr_run fun _ _ _ => ?_
    split
    · rfl
    extract_lets current rest rest'
    -- The two programs differ in the fuel of the iterations that follow.
    have same (turnId : TurnId) (s : KernelState) : rest turnId s = rest' turnId s := by
      refine bind_congr_run fun _ _ _ => bind_congr_run fun _ _ _ =>
        bind_congr_run fun snapshot _ _ => bind_congr_run fun _ _ _ => ?_
      cases kernel.models.checkOverflow snapshot.state config with
      | error =>
        dsimp only
        cases found : kernel.summarizer.filter fun summarizer =>
          !autoCompacted && summarizer.shouldCompact snapshot.state config with
        | none => rfl
        | some =>
          have first := (Option.filter_eq_some_iff.mp found).2
          simp only [Bool.and_eq_true, Bool.not_eq_true'] at first
          rw [first.1] at enough
          exact bind_congr_run fun _ _ _ => bind_congr_run fun _ _ _ =>
            ih (Nat.le_of_succ_le_succ enough)
      | ok =>
        refine bind_congr_run fun _ _ _ => bind_congr_run fun result _ _ => ?_
        cases result with
        | error => rfl
        | ok output =>
          refine bind_congr_run fun observed _ checked => ?_
          refine bind_congr_run fun outcome _ processed => ?_
          rcases outcome with _ | ⟨next, later⟩
          · rfl
          obtain ⟨step, limit⟩ := toolIterations_of_processOutput processed
          have same : observed.toolIterations = progress.toolIterations := by
            obtain ⟨observes, -⟩ := check_eq_ok.mp checked
            rw [RunProgress.observeOutput] at observes
            split at observes <;> cases observes
            rfl
          exact ih (by omega)
    cases progress.preparedTurnId <;> exact bind_congr_run fun _ _ _ => same _ _

/-- The loop of a run ends within its limits: it does not depend on how much more fuel it has. -/
theorem runLoopInner_loopFuel (kernel : AgentKernel) (config : KernelRunConfig) (runId : RunId)
    (snapshot : SessionSnapshot) (progress : RunProgress) (extra : Nat) :
    kernel.runLoopInner config runId (loopFuel config + extra) snapshot progress false =
      kernel.runLoopInner config runId (loopFuel config) snapshot progress false :=
  funext fun _ => runLoopInner_add extra (by simp [loopFuel])

end Loop

/-! ### Events -/

end AgentKernel

/-- What changes the state of the ports: an emission, or the calls of other ports. -/
inductive PortAction where
  | emit (runId : Option RunId) (turnId : Option TurnId) (event : AgentEvent)
  | other (calls : Nat) (executed : List ToolCallId)

/-- The state of the ports after an action. An emission may fail. -/
def PortAction.perform (kernel : AgentKernel) (p : PortState) : PortAction → PortState
  | emit runId turnId event => resultState (kernel.emit runId turnId event p)
  | other calls executed => { p with calls, executed }

/-- From one state of the ports to a later one: the emitter goes on, and the events delivered since
take up increasing sequence numbers of it. -/
structure Delivers (p q : PortState) : Prop where
  session : q.emitter.sessionId = p.emitter.sessionId
  limits : q.emitter.limits = p.emitter.limits
  sequence : p.emitter.sequence ≤ q.emitter.sequence
  within : p.emitter.emitted ≤ p.emitter.limits.maxEvents →
    q.emitter.emitted ≤ p.emitter.limits.maxEvents
  events : ∃ events, q.delivered = p.delivered ++ events ∧
    q.emitter.emitted = p.emitter.emitted + events.length ∧
    events.Pairwise (·.sequence < ·.sequence) ∧
    ∀ e ∈ events, e.sessionId = p.emitter.sessionId ∧ p.emitter.sequence < e.sequence ∧
      e.sequence ≤ q.emitter.sequence

namespace Delivers

variable {p q r : PortState}

/-- The emitter may skip sequence numbers. -/
theorem skip {sequence : SessionSequence} (more : p.emitter.sequence ≤ sequence) (calls : Nat)
    (executed : List ToolCallId) :
    Delivers p { p with calls, executed, emitter := { p.emitter with sequence } } :=
  ⟨rfl, rfl, more, id, [], (append_nil _).symm, rfl, .nil, nofun⟩

theorem trans (first : Delivers p q) (second : Delivers q r) : Delivers p r := by
  obtain ⟨events, delivered, emitted, ordered, bounds⟩ := first.events
  obtain ⟨events', delivered', emitted', ordered', bounds'⟩ := second.events
  refine ⟨second.session.trans first.session, second.limits.trans first.limits,
    first.sequence.trans second.sequence, fun room => ?_, events ++ events', ?_, ?_, ?_, ?_⟩
  · rw [← first.limits] at room ⊢
    exact second.within (first.limits ▸ first.within (first.limits ▸ room))
  · rw [delivered', delivered, append_assoc]
  · rw [emitted', emitted, length_append, Nat.add_assoc]
  · refine pairwise_append.mpr ⟨ordered, ordered', fun e he e' he' => ?_⟩
    exact (bounds e he).2.2.trans_lt (bounds' e' he').2.1
  · refine forall_mem_append.mpr ⟨fun e he => ?_, fun e he => ?_⟩
    · exact (bounds e he).imp_right (.imp_right (·.trans second.sequence))
    · rw [← first.session]
      exact (bounds' e he).imp_right (.imp_left first.sequence.trans_lt)

end Delivers

namespace AgentKernel

variable {kernel : AgentKernel}

/-- An emission takes the next sequence number, whether its event is delivered or not. -/
theorem emit_delivers (run : Option RunId) (turn : Option TurnId) (event : AgentEvent)
    (p : PortState) :
    wp (kernel.emit run turn event) (fun _ => Delivers p) (fun _ => Delivers p) p := by
  rw [emit, wp_bind, wp_get]
  dsimp only
  by_cases room : p.emitter.emitted < p.emitter.limits.maxEvents
  swap
  · rw [ensure, decide_eq_false room]
    exact .skip le_rfl _ _
  rw [ensure, decide_eq_true room]
  cases next : checkedNext p.emitter.sequence with
  | none => exact .skip le_rfl _ _
  | some sequence =>
    have grows : p.emitter.sequence < sequence :=
      checkedNext_eq_some next ▸ Nat.lt_succ_self p.emitter.sequence
    simp only [if_true, pure_bind, okOr, wp_bind, wp_modify, wp_callPort]
    refine ⟨fun eventId _ => ⟨fun timestamp _ => ?_, fun _ _ => .skip grows.le _ _⟩,
      fun _ _ => .skip grows.le _ _⟩
    cases built : EventEnvelope.new eventId p.emitter.sessionId run turn sequence timestamp
      event with
    | error => exact .skip grows.le _ _
    | ok envelope =>
      have same : envelope.sessionId = p.emitter.sessionId ∧ envelope.sequence = sequence := by
        rw [EventEnvelope.new] at built
        split at built <;> cases built
        exact ⟨rfl, rfl⟩
      simp only [wp_bind, wp_countCall]
      split
      · exact .skip grows.le _ _
      refine ⟨rfl, rfl, grows.le, fun _ => room, [envelope], rfl, rfl, pairwise_singleton _ _, ?_⟩
      rw [forall_mem_singleton, same.2]
      exact ⟨same.1, grows, le_rfl⟩

theorem perform_delivers (p : PortState) (action : PortAction) :
    Delivers p (action.perform kernel p) := by
  cases action with
  | other => exact .skip le_rfl _ _
  | emit run turn event =>
    have ends := @emit_delivers kernel run turn event p
    rw [wp] at ends
    rw [PortAction.perform]
    split at ends <;> simp_all

/-- The events that an emitter delivers are of its session, in order, behind the durable tail and
the cursor of the sink, and within the limit, however emissions and other calls interleave. -/
theorem delivered_in_order (kernel : AgentKernel) (sessionId : SessionId)
    (durableTail : SessionSequence) (limits : RunLimits) (p : PortState)
    (actions : List PortAction) :
    ∃ events, (actions.foldl (PortAction.perform kernel)
        (resultState (kernel.newEmitter sessionId durableTail limits p))).delivered =
          p.delivered ++ events ∧
      events.length ≤ limits.maxEvents ∧ events.Pairwise (·.sequence < ·.sequence) ∧
      ∀ e ∈ events, e.sessionId = sessionId ∧ durableTail < e.sequence ∧
        ∀ cursor ∈ kernel.events.lastSequence p.calls sessionId, cursor < e.sequence := by
  generalize start : resultState (kernel.newEmitter sessionId durableTail limits p) = q
  have run : Delivers q (actions.foldl (PortAction.perform kernel) q) :=
    foldlRecOn actions _ (.skip le_rfl _ _) fun _ h action _ => h.trans (perform_delivers _ action)
  obtain ⟨events, delivered, emitted, ordered, bounds⟩ := run.events
  have within := run.within
  subst start
  refine ⟨events, delivered, ?_, ordered, fun e he => ?_⟩
  · exact (Nat.zero_add _).symm.trans emitted.symm ▸ within (Nat.zero_le _)
  · obtain ⟨session, after, -⟩ := bounds e he
    refine ⟨session, ?_⟩
    simp only [newEmitter, countCall, bind_run, get_run, set_run, pure_run, modify_run,
      resultState_ok] at after
    generalize kernel.events.lastSequence p.calls sessionId = cursor at after ⊢
    cases cursor <;> grind

end AgentKernel

end TeaRs
