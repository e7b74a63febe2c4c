import TeaRs.Kernel.InputQueue

/-!
# Batches of tool calls

A tool turn collects the calls that the policy allows, and flushes them before a call that it does
not allow (`process_tool_turn`, `flush_tool_batch` in `tea-kernel/src/kernel.rs`). A flush records a
decision on every call of its batch, and the session takes one decision on a call. A batch can
therefore be flushed only once, and the turn does not always see to that.

Of the executions of a batch only interrupted ones have no result, whatever an executor yields.

## Main definitions

* `EndsUnless`: an execution has a result or was interrupted.
* `ActiveView.Decided`: the session has a policy decision on a call.
* `Proceeds`: what every step of a turn keeps.

## Main results

* `AgentKernel.collectAt_of_validate`: the execution of a validated call ends so.
* `AgentKernel.flushToolBatch_proceeds`: a flush decides on calls that were undecided.
* `AgentKernel.processEntries_ne_continues`: no turn goes on after a denied call that directly
  follows an allowed one.
-/

namespace TeaRs

open StateError List ToolCallState SessionReducer

/-! ### Executions -/

theorem ToolExecutionFailure.exists_terminal (failure : ToolExecutionFailure) :
    ∃ terminal, failure.terminal = .ok terminal := by
  have short : isBoundedText maxTextBlockBytes failure.message = true := by
    have valid := failure.valid
    simp only [isBoundedText, Bool.and_eq_true, decide_eq_true_eq] at valid ⊢
    exact ⟨⟨valid.1.1, valid.1.2.trans (by decide)⟩, valid.2⟩
  have code : validErrorCode failure.code.failureCode = true := by
    cases failure.code <;> decide +kernel
  simp [ToolExecutionFailure.terminal, validateText, short, ToolFailure.new, code, failure.valid]

/-- An execution ends with a terminal, or it is interrupted. -/
def EndsUnless (interruption : Option (Nat × Interruption))
    (result : Except KernelError CollectedExecution) : Prop :=
  (∃ collected, result = .ok collected) ∨
    ∃ polls cause, interruption = some (polls, cause) ∧ result = .error cause.error

theorem collectEvents_endsUnless {last : ToolExecutionEvent} (ends : last.isTerminal = true)
    (id : ToolCallId) (items : List ToolProgress) (interruption : Option (Nat × Interruption))
    (progress : List CollectedProgress) :
    EndsUnless interruption
      (collectEvents id interruption .new progress none (items.map .progress ++ [last])) := by
  induction items generalizing interruption progress with
  | nil =>
    obtain ⟨terminal, observed⟩ : ∃ terminal,
        observeEvent .new none last = .ok (⟨true⟩, some terminal) := by
      cases last with
      | progress => cases ends
      | finished result => exact ⟨_, rfl⟩
      | failed failure =>
        obtain ⟨terminal, h⟩ := failure.exists_terminal
        exact ⟨terminal, by simp [observeEvent, ToolStreamValidator.observe,
          ToolStreamValidator.new, h]⟩
    rcases interruption with _ | ⟨_ | _ | polls, cause⟩ <;>
      simp [EndsUnless, collectEvents, observed, nextPoll, finishStream,
        ToolStreamValidator.finish, bind, Except.bind, pure, Except.pure]
  | cons item items ih =>
    rcases interruption with _ | ⟨_ | polls, cause⟩
    · exact ih _ _
    · exact .inr ⟨_, _, rfl, rfl⟩
    · refine (ih (some (polls, cause)) _).imp_right ?_
      rintro ⟨_, _, ⟨rfl, rfl⟩, failed⟩
      exact ⟨_, _, rfl, failed⟩

/-- Whatever an executor yields, only an interruption leaves the execution of a call that the
registry validated without a terminal. -/
theorem AgentKernel.collectAt_of_validate {kernel : AgentKernel} {invocation : ToolInvocation}
    {validated : ValidatedToolInvocation} (ok : kernel.tools.validate invocation = .ok validated)
    (deadline : ProtocolTimestamp) (call : Nat) :
    EndsUnless (kernel.cancellation.interruption call deadline)
      (kernel.collectAt deadline call validated) := by
  obtain ⟨output, events, stream⟩ := ToolRegistry.executeValidated_of_validate ok call
  obtain ⟨progress, terminal, split, ends, -⟩ := enforceTerminal_eq output events
  simp only [collectAt, stream, split]
  exact collectEvents_endsUnless ends _ _ _ _

theorem AgentKernel.collectAt_of_validate_failing :
    ∃ validated, failingRegistry.validate (readInvocation ⟨0⟩).invocation = .ok validated ∧
      EndsUnless none (collectAt { InputSystem.quietKernel with tools := failingRegistry } 0 0 validated) :=
  ⟨_, rfl, collectAt_of_validate rfl 0 0⟩

/-! ### Decisions -/

namespace ActiveView

variable {v : ActiveView} {id : ToolCallId} {e : RecordEnvelope} {records : List RecordEnvelope}

/-- The policy has decided on the call. -/
def Decided (v : ActiveView) (id : ToolCallId) : Prop :=
  ∃ tool, v.toolCalls[id]? = some tool ∧ tool.policyDecision ≠ none

theorem getElem?_adjustCall {u : ToolCallId} {f : ToolCallState → ToolCallState} :
    (BTreeMap.adjust v.toolCalls u f)[id]? =
      if id = u then v.toolCalls[u]?.map f else v.toolCalls[id]? := by
  rw [BTreeMap.adjust]
  split <;> split_ifs <;> simp_all [BTreeMap.getElem?_insert_eq]

/-- A decision stays. -/
theorem Decided.after (h : v.Decided id) (allowed : v.Allows e) : (v.after e).Decided id := by
  obtain ⟨tool, found, decided⟩ := h
  have old := BTreeMap.mem_of_getElem? found
  rw [Allows] at allowed
  rw [ActiveView.after]
  generalize e.record = record at allowed ⊢
  cases record with
  | messageCommitted message =>
    cases message <;>
      simp only [Decided, afterMessage, CanonicalMessage.resultOf?, getElem?_adjustCall] <;>
      grind [commitResult]
  | approvalResolved =>
    dsimp only
    split <;> simp only [Decided, adjustCall, getElem?_adjustCall] <;> grind [resolveApproval]
  | _ =>
    simp only [Decided, adjustCall, getElem?_adjustCall, BTreeMap.getElem?_insert_eq]
    grind [setPolicy, setApproval, start, finish, interrupt]

/-- Decisions stay, and a call is decided once. -/
theorem decided_afterAll (allowed : v.AllowsAll records) :
    (v.Decided id → (v.afterAll records).Decided id) ∧
      ∀ d, .policyDecisionRecorded id d ∈ records.map (·.record) →
        ¬ v.Decided id ∧ (v.afterAll records).Decided id := by
  induction records generalizing v with
  | nil => exact ⟨fun h => h, nofun⟩
  | cons e records ih =>
    obtain ⟨first, rest⟩ := allowed
    refine ⟨fun h => (ih rest).1 (h.after first), fun d mem => ?_⟩
    rcases mem_cons.mp mem with record | mem
    · change _ = e.record at record
      rw [Allows, ← record] at first
      obtain ⟨tool, found, undecided⟩ := first
      refine ⟨by grind [Decided], (ih rest).1 ?_⟩
      simp [ActiveView.after, ← record, Decided, adjustCall, getElem?_adjustCall, found, setPolicy]
    · exact ((ih rest).2 d mem).imp_left fun not h => not (h.after first)

end ActiveView

/-- From one point of a turn to a later one: the snapshot is current and decisions stay. -/
structure Proceeds (k : KernelState) (s : SessionSnapshot) (k' : KernelState)
    (s' : SessionSnapshot) : Prop where
  current : Current k' s'
  decided : ∀ id, (k.view s).Decided id → (k'.view s').Decided id

variable {k k' : KernelState} {snapshot s' : SessionSnapshot}

theorem onPort_eq_ok {α : Type} {x : PortM α} {a : α} (ok : onPort x k = .ok a k') :
    ∃ port, x k.port = .ok a port ∧ k' = { k with port } := by
  rw [onPort] at ok
  split at ok <;> cases ok
  exact ⟨_, ‹_›, rfl⟩

namespace AgentKernel

variable {kernel : AgentKernel} {runId : RunId} {turnId : TurnId} {deadline : ProtocolTimestamp}
  {records : List SessionRecord} {batch : Batch} {terminal : ToolTerminal}

theorem plain_of_resultRecords (id : ToolCallId) (name : String) (p : PortState) :
    wp (kernel.resultRecords id name terminal) (fun records _ => ∀ r ∈ records, r.Plain)
      (fun _ _ => True) p := by
  simp only [resultRecords, wp_bind, wp_callPort]
  refine ⟨fun _ _ => ⟨fun _ _ => ?_, fun _ _ => trivial⟩, fun _ _ => trivial⟩
  split
  · trivial
  · simp [SessionRecord.Plain, isBranchRecord, isSessionCreated]

theorem plain_of_batchRecords (results : Results) (p : PortState) :
    wp (kernel.batchRecords results batch) (fun records _ => ∀ r ∈ records, r.Plain)
      (fun _ _ => True) p := by
  induction batch generalizing p with
  | nil => exact nofun
  | cons entry batch ih =>
    rw [batchRecords, wp_bind]
    cases results[entry.1.toolCallId]? with
    | none => trivial
    | some collected =>
      change wp (_ >>= _) _ _ p
      simp only [wp_bind]
      refine (plain_of_resultRecords _ _ _).mono (fun first _ plain => ?_) fun _ _ _ => trivial
      exact (ih _).mono (fun _ _ rest => forall_mem_append.mpr ⟨plain, rest⟩) fun _ _ _ => trivial

variable (current : Current k snapshot)

include current

theorem appendRecords_proceeds {k₁ : KernelState}
    (ok : kernel.appendRecords snapshot records k₁ = .ok s' k') (same : k₁.store = k.store)
    (plain : ∀ r ∈ records, r.Plain) :
    Proceeds k snapshot k' s' ∧ ∀ id d, .policyDecisionRecorded id d ∈ records →
      ¬ (k.view snapshot).Decided id ∧ (k'.view s').Decided id := by
  obtain ⟨added, advances, rfl⟩ := (appendRecords_extends (current.congr same) plain).of_eq_ok ok
  have decided (id) := @ActiveView.decided_afterAll _ id _ advances.allowed
  rw [← advances.view, Current.view_congr same] at decided
  exact ⟨⟨advances.current, fun id => (decided id).1⟩, fun id => (decided id).2⟩

theorem commitDenied_proceeds {call : CompletedToolCall}
    (ok : kernel.commitDenied snapshot call terminal k = .ok s' k') :
    Proceeds k snapshot k' s' := by
  obtain ⟨records, k₁, ran, ok⟩ := bind_eq_ok.mp ok
  obtain ⟨port, built, rfl⟩ := onPort_eq_ok ran
  have plain := (plain_of_resultRecords _ _ _).of_eq_ok built
  exact (appendRecords_proceeds current ok rfl (forall_mem_cons.mpr ⟨⟨rfl, rfl⟩, plain⟩)).1

/-- A flushed batch had no decided call, and leaves its calls decided. -/
theorem flushToolBatch_proceeds
    (ok : kernel.flushToolBatch snapshot batch runId turnId deadline k = .ok s' k') :
    Proceeds k snapshot k' s' ∧ ∀ entry ∈ batch, ¬ (k.view snapshot).Decided entry.1.toolCallId ∧
      (k'.view s').Decided entry.1.toolCallId := by
  rw [flushToolBatch] at ok
  split_ifs at ok with empty
  · cases ok
    exact ⟨⟨current, fun _ h => h⟩, by simp [isEmpty_iff.mp empty]⟩
  simp only [bind_eq_ok, check_eq_ok] at ok
  obtain ⟨plan, _, ⟨-, rfl⟩, s₁, k₁, started, _, _, got, _, _, noted, ran⟩ := ok
  obtain ⟨⟨results, error⟩, _, ran, ok⟩ := ran
  cases got
  cases noted
  obtain ⟨_, -, rfl⟩ := onPort_eq_ok ran
  cases error with
  | some error =>
    simp only [interruptBatch] at ok
    split_ifs at ok <;> simp [bind_eq_ok] at ok
  | none =>
    simp only [settleBatch, bind_eq_ok] at ok
    obtain ⟨_, _, emitted, records, _, built, ok⟩ := ok
    obtain ⟨_, -, rfl⟩ := onPort_eq_ok emitted
    obtain ⟨_, ran, rfl⟩ := onPort_eq_ok built
    have plain (r) (mem : r ∈ startRecords batch) : r.Plain := by
      obtain ⟨entry, -, mem⟩ := mem_flatMap.mp mem
      rcases mem_pair.mp mem with rfl | rfl <;> exact ⟨rfl, rfl⟩
    obtain ⟨⟨current₁, stay₁⟩, decide⟩ := appendRecords_proceeds current started rfl plain
    obtain ⟨⟨current₂, stay₂⟩, -⟩ := appendRecords_proceeds current₁ ok rfl
      ((plain_of_batchRecords _ _).of_eq_ok ran)
    refine ⟨⟨current₂, fun id h => stay₂ id (stay₁ id h)⟩, fun entry mem => ?_⟩
    exact (decide _ .allow (mem_flatMap.mpr ⟨entry, mem, mem_cons_self⟩)).imp_right (stay₂ _)

/-! ### The second loop of a turn -/

variable {config : KernelRunConfig} {entries : List Classified} {outcome : ToolProcessOutcome}

/-- A batch with a decided call is not flushed any more. -/
theorem processEntries_ne_ok
    (decided : ∃ entry ∈ batch, (k.view snapshot).Decided entry.1.toolCallId) :
    kernel.processEntries config runId turnId deadline snapshot batch entries k ≠
      .ok outcome k' := by
  obtain ⟨entry, mem, again⟩ := decided
  have stuck {batch : Batch} (mem : entry ∈ batch)
      {rest : SessionSnapshot → KernelM ToolProcessOutcome} :
      (kernel.flushToolBatch snapshot batch runId turnId deadline >>= rest) k ≠ .ok outcome k' := by
    intro ok
    obtain ⟨_, _, flushed, -⟩ := bind_eq_ok.mp ok
    exact ((flushToolBatch_proceeds current flushed).2 entry mem).1 again
  induction entries generalizing batch with
  | nil => exact stuck mem
  | cons next entries ih =>
    cases next with
    | allow => exact ih (mem_append_left _ mem)
    | _ => exact stuck mem

omit current

/-- A point of a turn: the kernel and the snapshot it holds. -/
structure TurnPoint where
  state : KernelState
  snapshot : SessionSnapshot
  current : Current state snapshot

/-- A denied call does not empty the batch that was flushed before it. A turn with a denied call
directly after an allowed one therefore never goes on, whatever calls stand around them. -/
theorem processEntries_ne_continues (kernel : AgentKernel) (config : KernelRunConfig)
    (runId : RunId) (turnId : TurnId) (deadline : ProtocolTimestamp) (point : TurnPoint)
    (batch : Batch) (before : List Classified) (invocation : ValidatedToolInvocation)
    (target : ExecutionTarget) (call : CompletedToolCall) (reason : String)
    (rest : List Classified) (s' : SessionSnapshot) (k' : KernelState) :
    kernel.processEntries config runId turnId deadline point.snapshot batch
      (before ++ .allow invocation target :: .denied call reason :: rest) point.state ≠
        .ok (.continues s') k' := by
  intro ok
  obtain ⟨k, snapshot, current⟩ := point
  dsimp only at ok
  induction before generalizing batch k snapshot with
  | nil =>
    simp only [nil_append, processEntries, bind_eq_ok] at ok
    obtain ⟨s₁, k₁, flushed, terminal, _, checked, s₂, k₂, denied, ok⟩ := ok
    obtain ⟨-, rfl⟩ := check_eq_ok.mp checked
    obtain ⟨⟨current₁, -⟩, decided⟩ := flushToolBatch_proceeds current flushed
    obtain ⟨current₂, stay⟩ := commitDenied_proceeds current₁ denied
    have mem : (invocation, target) ∈ batch ++ [(invocation, target)] :=
      mem_append_right _ (mem_singleton_self _)
    exact processEntries_ne_ok current₂ ⟨_, mem, stay _ (decided _ mem).2⟩ ok
  | cons entry before ih =>
    cases entry with
    | allow => exact ih _ _ _ current ok
    | ask =>
      obtain ⟨_, _, -, waits⟩ := bind_eq_ok.mp ok
      obtain ⟨_, _, -, done⟩ := bind_eq_ok.mp waits
      cases done
    | _ =>
      simp only [cons_append, processEntries, bind_eq_ok] at ok
      obtain ⟨s₁, k₁, flushed, terminal, _, checked, s₂, k₂, denied, ok⟩ := ok
      obtain ⟨-, rfl⟩ := check_eq_ok.mp checked
      have current₁ := (flushToolBatch_proceeds current flushed).1.current
      exact ih _ _ _ (commitDenied_proceeds current₁ denied).current ok

end AgentKernel

end TeaRs
