import TeaRs.Session.Reducer

/-!
# What one accepted record does to the reducer

Inversion of the reducer: every record kind has a rule that says when it is accepted and what it
changes, and an application succeeds exactly when one of the rules applies. All invariants of the
log are derived from these rules, never from the reducer's code.

## Main definitions

* `SessionReducer.ToolStep`: what a record does to the one tool call it names.
* `SessionReducer.RecordStep`: what a record of the active branch does to the materialized state
  and to the identity sets.
* `SessionReducer.Step`: what an accepted record does to the whole reducer.
* `SessionReducer.tipSnapshot`: the snapshot of the branch a record was applied to.

## Main results

* `SessionReducer.recordStep_of_applyRecord`, `SessionReducer.applyRecord_of_recordStep`:
  `applyRecord` accepts exactly the `RecordStep`s.
* `SessionReducer.step_of_applyInnerWithHistory`, `SessionReducer.applyInnerWithHistory_of_step`:
  one application accepts exactly the `Step`s, and captures exactly the tip snapshot.
* `SessionReducer.applyInner_ok_iff`: the same for an application without a table.
-/

namespace TeaRs

open StateError

/-- The state with one tool call replaced. -/
def MaterializedSessionState.withTool (s : MaterializedSessionState) (t : ToolCallId)
    (tool : ToolCallState) : MaterializedSessionState :=
  { s with toolCalls := s.toolCalls.insert t tool }

variable {r r' : SessionReducer} {s t : MaterializedSessionState} {e : RecordEnvelope} {u : Unit}

namespace SessionReducer

/-- The reducer with another materialized state. -/
def withState (r : SessionReducer) (s : MaterializedSessionState) : SessionReducer :=
  { r with state := some s }

@[simp] theorem withState_state (r : SessionReducer) (s : MaterializedSessionState) :
    (r.withState s).state = some s := rfl

@[simp] theorem withState_withState (r : SessionReducer) (s t : MaterializedSessionState) :
    (r.withState s).withState t = r.withState t := rfl

/-! ### Access to the state -/

@[simp] theorem requireState_eq_ok : requireState r = .ok s r' ↔ r.state = some s ∧ r = r' := by
  simp [requireState, and_comm]

@[simp] theorem putState_run (s : MaterializedSessionState) (r : SessionReducer) :
    putState s r = .ok () (r.withState s) := rfl

variable {reference name : String} {tool : ToolCallState} {id : MessageId}
  {content : List ContentBlock} {isError : Bool} {error : Option ToolFailure} {m : CanonicalMessage}
  {at_ : ProtocolTimestamp} {a : ApprovalId} {run : RunId}

@[simp] theorem requireTool_eq_ok {t : ToolCallId} : requireTool t reference r = .ok tool r' ↔
      (∃ s, r.state = some s ∧ s.toolCalls[t]? = some tool) ∧ r = r' := by
  simp only [requireTool, bind_eq_ok, requireState_eq_ok, okOr_eq_ok]
  constructor
  · rintro ⟨s, u, ⟨hs, rfl⟩, ht, rfl⟩
    exact ⟨⟨s, hs, ht⟩, rfl⟩
  · rintro ⟨⟨s, hs, ht⟩, rfl⟩
    exact ⟨s, r, ⟨hs, rfl⟩, ht, rfl⟩

@[simp] theorem putTool_eq_ok {t : ToolCallId} : putTool t tool r = .ok u r' ↔
      ∃ s, r.state = some s ∧ r' = r.withState (s.withTool t tool) := by
  simp only [putTool, bind_eq_ok, requireState_eq_ok, putState_run]
  constructor
  · rintro ⟨s, q, ⟨hs, rfl⟩, h⟩
    cases h
    exact ⟨s, hs, rfl⟩
  · rintro ⟨s, hs, rfl⟩
    exact ⟨s, r, ⟨hs, rfl⟩, rfl⟩

theorem updateTool_ok_iff (hs : r.state = some s) {t : ToolCallId} {transition : String}
    {accepts : ToolCallState → Bool} {update : ToolCallState → ToolCallState} :
    updateTool t reference accepts transition update r = .ok () r' ↔
      ∃ tool, s.toolCalls[t]? = some tool ∧ accepts tool = true ∧
        r' = r.withState (s.withTool t (update tool)) := by
  simp [updateTool, hs]

/-! ### Rules for the records of a branch -/

/-- What a record does to the one tool call it names. -/
inductive ToolStep : SessionRecord → ToolCallId → ToolCallState → ToolCallState → Prop
  | policy {t : ToolCallId} {d : PolicyDecision} {tool : ToolCallState}
      (undecided : tool.policyDecision = none) :
      ToolStep (.policyDecisionRecorded t d) t tool (tool.setPolicy d)
  | started {t : ToolCallId} {target : ExecutionTarget} {idempotency : ToolIdempotency}
      {tool : ToolCallState} (authorized : tool.authorized = true)
      (fresh : tool.execution = .notStarted) :
      ToolStep (.toolExecutionStarted t target idempotency) t tool (tool.start target idempotency)
  | finished {t : ToolCallId} {isError : Bool} {content : List ContentBlock}
      {error : Option ToolFailure} {presentation : Option ToolPresentation}
      {tool : ToolCallState}
      (unsettled : tool.execution.isStarted = true ∨ tool.deniedWithoutExecution isError = true) :
      ToolStep (.toolExecutionFinished t isError content error presentation) t tool
        (tool.finish isError content error presentation)
  | interrupted {t : ToolCallId} {reason : String} {tool : ToolCallState}
      (started : tool.execution.isStarted = true) :
      ToolStep (.toolExecutionInterrupted t reason) t tool (tool.interrupt reason)

/-- The declarations of a message added to the table of declared calls. -/
def insertDeclared (declared : BTreeMap ToolCallId DeclaredToolCall)
    (calls : List (ToolCallId × String × Value)) : BTreeMap ToolCallId DeclaredToolCall :=
  calls.foldl (fun d c => d.insert c.1 { toolName := c.2.1, arguments := c.2.2 }) declared

/-- The calls a message declares are new and declared once. -/
structure DeclaresFresh (declared : BTreeMap ToolCallId DeclaredToolCall)
    (toolCalls : BTreeMap ToolCallId ToolCallState)
    (calls : List (ToolCallId × String × Value)) : Prop where
  nodup : (calls.map (·.1)).Nodup
  undeclared : ∀ c ∈ calls, c.1 ∉ declared
  unrequested : ∀ c ∈ calls, c.1 ∉ toolCalls

/-- What a record of the active branch does to the identity sets and to the materialized state.
The state of the reducer in the conclusion is not read. -/
inductive RecordStep (r : SessionReducer) (s : MaterializedSessionState) (e : RecordEnvelope) :
    SessionReducer → MaterializedSessionState → Prop
  | message {m : CanonicalMessage} (record : e.record = .messageCommitted m)
      (fresh : m.messageId ∉ r.messageIds)
      (declares : DeclaresFresh r.declaredToolCalls s.toolCalls m.declaredToolCalls)
      (notResult : m.isToolResult = false) :
      RecordStep r s e
        { r with
          messageIds := r.messageIds.insert m.messageId
          declaredToolCalls := insertDeclared r.declaredToolCalls m.declaredToolCalls }
        { s with messages := s.messages ++ [m] }
  | toolResult {id : MessageId} {t : ToolCallId} {name : String} {content : List ContentBlock}
      {isError : Bool} {error : Option ToolFailure} {at_ : ProtocolTimestamp}
      {tool : ToolCallState}
      (record : e.record =
        .messageCommitted (.toolResult id t name content isError error at_))
      (fresh : id ∉ r.messageIds) (lookup : s.toolCalls[t]? = some tool)
      (pending : tool.resultMessageId = none)
      (terminal : tool.matchesResult name content isError error = true) :
      RecordStep r s e
        { r with messageIds := r.messageIds.insert id }
        { s with
          toolCalls := s.toolCalls.insert t (tool.commitResult id)
          messages := s.messages ++ [.toolResult id t name content isError error at_] }
  | configuration {model : Option ModelRef} {profileId : Option ProfileId}
      {effort : Option ReasoningEffort}
      (record : e.record = .configurationChanged model profileId effort) :
      RecordStep r s e r
        { s with configuration := s.configuration.change model profileId effort }
  | requested {t : ToolCallId} {name : String} {arguments : Value}
      (record : e.record = .toolCallRequested t name arguments)
      (visible : r.visibleOnBranch s t = true)
      (declared : r.declaredToolCalls[t]? = some { toolName := name, arguments })
      (fresh : t ∉ r.requestedToolCallIds) (absent : t ∉ s.toolCalls) :
      RecordStep r s e
        { r with requestedToolCallIds := r.requestedToolCallIds.insert t }
        (s.withTool t (newToolCall t name arguments))
  | tool {record : SessionRecord} {t : ToolCallId} {tool tool' : ToolCallState}
      (kind : e.record = record) (step : ToolStep record t tool tool')
      (lookup : s.toolCalls[t]? = some tool) :
      RecordStep r s e r (s.withTool t tool')
  | approvalRequested {a : ApprovalId} {t : ToolCallId} {expiresAt : ProtocolTimestamp}
      {tool : ToolCallState} (record : e.record = .approvalRequested a t expiresAt)
      (fresh : a ∉ r.approvalIds) (lookup : s.toolCalls[t]? = some tool)
      (policy : tool.policyDecision = some .requireApproval) (first : tool.approvalId = none)
      (expires : e.timestamp < expiresAt) :
      RecordStep r s e
        { r with approvalIds := r.approvalIds.insert a }
        { s with
          toolCalls := s.toolCalls.insert t (tool.setApproval a)
          pendingApprovals := s.pendingApprovals.insert a
            { approvalId := a, toolCallId := t, expiresAt, requestedAt := e.timestamp } }
  | approvalResolved {a : ApprovalId} {d : ApprovalDecision} {pending : PendingApproval}
      {tool : ToolCallState} (record : e.record = .approvalResolved a d)
      (found : s.pendingApprovals[a]? = some pending)
      (begun : pending.requestedAt ≤ e.timestamp) (live : e.timestamp < pending.expiresAt)
      (lookup : s.toolCalls[pending.toolCallId]? = some tool) :
      RecordStep r s e r
        { s with
          toolCalls := s.toolCalls.insert pending.toolCallId (tool.resolveApproval d)
          pendingApprovals := s.pendingApprovals.erase a }
  | runInterrupted {run : RunId} {turn : TurnId} {reason : String}
      (record : e.record = .runInterrupted run turn reason) (first : run ∉ s.runRecovery) :
      RecordStep r s e r
        { s with runRecovery := s.runRecovery.insert run (.interrupted turn reason) }
  | runCancelled {run : RunId} (record : e.record = .runCancelled run)
      (first : run ∉ s.runRecovery) :
      RecordStep r s e r { s with runRecovery := s.runRecovery.insert run .cancelled }
  | compacted {summary : CanonicalMessage} {through : RecordId}
      (record : e.record = .sessionCompacted summary through)
      (role : summary.isAssistant = true) (source : r.sourceIsActive s through = true)
      (fresh : summary.messageId ∉ r.messageIds) :
      RecordStep r s e
        { r with messageIds := r.messageIds.insert summary.messageId }
        (s.setCompaction summary through)
  | checkpointed {run : RunId} {turn : TurnId} {next : NextTurnAction}
      (record : e.record = .turnCheckpointed run turn next) :
      RecordStep r s e r
        { s with
          latestCheckpoint := some
            { runId := run, turnId := turn, recordId := e.recordId, sequence := e.sequence
              nextAction := next } }

/-! ### The handlers follow the rules -/

@[simp] theorem insertMessageId_ok_iff : insertMessageId id r = .ok u r' ↔
      id ∉ r.messageIds ∧ r' = { r with messageIds := r.messageIds.insert id } := by
  simp [insertMessageId, BTreeSet.contains_eq_false_iff, eq_comm (a := r')]

variable (hs : r.state = some s)

include hs

theorem declareToolCalls_ok_iff {calls : List (ToolCallId × String × Value)} :
    declareToolCalls calls r = .ok u r' ↔
      DeclaresFresh r.declaredToolCalls s.toolCalls calls ∧
      r' = { r with declaredToolCalls := insertDeclared r.declaredToolCalls calls } := by
  induction calls generalizing r with
  | nil =>
    simp only [declareToolCalls, pure_run, EStateM.Result.ok.injEq, true_and]
    exact ⟨fun h => ⟨⟨by simp, by simp, by simp⟩, h.symm⟩, fun h => h.2.symm⟩
  | cons c calls ih =>
    obtain ⟨t, name, arguments⟩ := c
    simp only [declareToolCalls, bind_eq_ok, get_run, EStateM.Result.ok.injEq, modify_run,
      requireState_eq_ok, ensure_eq_ok, existsAndEq, true_and, and_true, Bool.and_eq_true,
      Bool.not_eq_true', hs, Option.some.injEq, BTreeMap.contains_eq_false_iff, exists_const]
    rw [ih rfl]
    -- What is left is the step of `DeclaresFresh` from `calls` to `c :: calls`.
    constructor
    · rintro ⟨⟨ht, hts⟩, ⟨hn, hu, hr⟩, he⟩
      refine ⟨⟨?_, ?_, ?_⟩, he⟩
      · refine List.nodup_cons.mpr ⟨fun hmem => ?_, hn⟩
        obtain ⟨c, hc, rfl⟩ := List.mem_map.mp hmem
        exact hu c hc (BTreeMap.mem_insert_iff.mpr (.inl rfl))
      · rintro c (- | ⟨-, hc⟩)
        · exact ht
        · exact fun h => hu c hc (BTreeMap.mem_insert_iff.mpr (.inr h))
      · rintro c (- | ⟨-, hc⟩)
        · exact hts
        · exact hr c hc
    · rintro ⟨⟨hn, hu, hr⟩, he⟩
      obtain ⟨hhead, hn⟩ := List.nodup_cons.mp hn
      refine ⟨⟨hu _ List.mem_cons_self, hr _ List.mem_cons_self⟩, ⟨hn, fun c hc h => ?_, ?_⟩, he⟩
      · rcases BTreeMap.mem_insert_iff.mp h with heq | h
        · exact hhead (List.mem_map.mpr ⟨c, hc, heq⟩)
        · exact hu c (List.mem_cons_of_mem _ hc) h
      · exact fun c hc => hr c (List.mem_cons_of_mem _ hc)

theorem commitToolResult_ok_iff {t : ToolCallId} :
    commitToolResult id t name content isError error r = .ok u r' ↔
      ∃ tool, s.toolCalls[t]? = some tool ∧ tool.resultMessageId = none ∧
        tool.matchesResult name content isError error = true ∧
        r' = r.withState (s.withTool t (tool.commitResult id)) := by
  simp [commitToolResult, hs]

/-- The part of `MessageCommitted` that every message runs: its identity and its declarations are
new. -/
theorem declareMessage_ok_iff :
    (do insertMessageId m.messageId; declareToolCalls m.declaredToolCalls : ReducerM Unit) r =
        .ok u r' ↔
      m.messageId ∉ r.messageIds ∧
      DeclaresFresh r.declaredToolCalls s.toolCalls m.declaredToolCalls ∧
      r' = { r with
        messageIds := r.messageIds.insert m.messageId
        declaredToolCalls := insertDeclared r.declaredToolCalls m.declaredToolCalls } := by
  rw [bind_eq_ok]
  constructor
  · rintro ⟨_, q, hq, h⟩
    obtain ⟨fresh, rfl⟩ := insertMessageId_ok_iff.mp hq
    exact ⟨fresh, (declareToolCalls_ok_iff (by exact hs)).mp h⟩
  · rintro ⟨fresh, h⟩
    exact ⟨(), _, insertMessageId_ok_iff.mpr ⟨fresh, rfl⟩,
      (declareToolCalls_ok_iff (by exact hs)).mpr h⟩

omit hs in
theorem applyMessageCommitted_eq (m : CanonicalMessage) : applyMessageCommitted m = (do
    (do insertMessageId m.messageId; declareToolCalls m.declaredToolCalls : ReducerM Unit)
    match m with
    | .toolResult id toolCallId toolName content isError error _ =>
      commitToolResult id toolCallId toolName content isError error
    | .user .. | .assistant .. => pure ()
    let state ← requireState
    putState { state with messages := state.messages ++ [m] }) := by
  simp only [bind_assoc]
  rfl

theorem applyMessageCommitted_ok_iff (notResult : m.isToolResult = false) :
    applyMessageCommitted m r = .ok () r' ↔
      m.messageId ∉ r.messageIds ∧
      DeclaresFresh r.declaredToolCalls s.toolCalls m.declaredToolCalls ∧
      r' = ({ r with
          messageIds := r.messageIds.insert m.messageId
          declaredToolCalls := insertDeclared r.declaredToolCalls m.declaredToolCalls } :
        SessionReducer).withState { s with messages := s.messages ++ [m] } := by
  rw [applyMessageCommitted_eq, bind_eq_ok]
  simp only [declareMessage_ok_iff hs]
  cases m with
  | toolResult => cases notResult
  | user id content at_ | assistant id content stop at_ => simp [hs, and_assoc, eq_comm (a := r')]

theorem applyToolResult_ok_iff {t : ToolCallId} :
    applyMessageCommitted (.toolResult id t name content isError error at_) r = .ok () r' ↔
      id ∉ r.messageIds ∧ ∃ tool, s.toolCalls[t]? = some tool ∧ tool.resultMessageId = none ∧
      tool.matchesResult name content isError error = true ∧
      r' = ({ r with messageIds := r.messageIds.insert id } : SessionReducer).withState
        { s with
          toolCalls := s.toolCalls.insert t (tool.commitResult id)
          messages := s.messages ++ [.toolResult id t name content isError error at_] } := by
  rw [applyMessageCommitted_eq, bind_eq_ok]
  constructor
  · rintro ⟨_, q, hq, h⟩
    obtain ⟨fresh, -, rfl⟩ := (declareMessage_ok_iff hs).mp hq
    obtain ⟨_, q, hc, h⟩ := bind_eq_ok.mp h
    obtain ⟨tool, lookup, pending, terminal, rfl⟩ := (commitToolResult_ok_iff (by exact hs)).mp hc
    cases h
    exact ⟨fresh, tool, lookup, pending, terminal, rfl⟩
  · rintro ⟨fresh, tool, lookup, pending, terminal, rfl⟩
    have declares : DeclaresFresh r.declaredToolCalls s.toolCalls [] :=
      ⟨List.nodup_nil, by simp, by simp⟩
    refine ⟨(), _, (declareMessage_ok_iff hs).mpr ⟨fresh, declares, rfl⟩, ?_⟩
    exact bind_eq_ok.mpr ⟨(), _, (commitToolResult_ok_iff (by exact hs)).mpr
      ⟨tool, lookup, pending, terminal, rfl⟩, rfl⟩

theorem applyToolCallRequested_ok_iff {t : ToolCallId} {arguments : Value} :
    applyToolCallRequested t name arguments r = .ok () r' ↔
      r.visibleOnBranch s t = true ∧
      r.declaredToolCalls[t]? = some { toolName := name, arguments } ∧
      t ∉ r.requestedToolCallIds ∧ t ∉ s.toolCalls ∧
      r' = ({ r with requestedToolCallIds := r.requestedToolCallIds.insert t } :
        SessionReducer).withState (s.withTool t (newToolCall t name arguments)) := by
  simp only [applyToolCallRequested, bind_eq_ok, get_run, EStateM.Result.ok.injEq, existsAndEq,
    requireState_eq_ok, hs, okOr_eq_ok, ensure_eq_ok, modify_run, putTool_eq_ok, true_and, and_true,
    Option.some.injEq, Option.filter_eq_some_iff, Bool.and_eq_true, beq_iff_eq, exists_const,
    Bool.not_eq_true', BTreeMap.contains_eq_false_iff, BTreeSet.contains_eq_false_iff]
  constructor
  · rintro ⟨⟨name, arguments⟩, ⟨hd, hv⟩, ⟨rfl, rfl⟩, ⟨hf, ha⟩, rfl⟩
    exact ⟨hv, hd, hf, ha, rfl⟩
  · rintro ⟨hv, hd, hf, ha, rfl⟩
    exact ⟨_, ⟨hd, hv⟩, ⟨rfl, rfl⟩, ⟨hf, ha⟩, rfl⟩

theorem applyApprovalRequested_ok_iff {expiresAt : ProtocolTimestamp} {t : ToolCallId} :
    applyApprovalRequested at_ a t expiresAt r = .ok () r' ↔ a ∉ r.approvalIds ∧
      ∃ tool, s.toolCalls[t]? = some tool ∧ tool.policyDecision = some .requireApproval ∧
        tool.approvalId = none ∧ at_ < expiresAt ∧
        r' = ({ r with approvalIds := r.approvalIds.insert a } : SessionReducer).withState
          { s with
            toolCalls := s.toolCalls.insert t (tool.setApproval a)
            pendingApprovals := s.pendingApprovals.insert a
              { approvalId := a, toolCallId := t, expiresAt, requestedAt := at_ } } := by
  simp [applyApprovalRequested, hs, BTreeSet.contains_eq_false_iff, and_assoc, eq_comm (b := r'),
    MaterializedSessionState.withTool]

theorem applyApprovalResolved_ok_iff {d : ApprovalDecision} :
    applyApprovalResolved at_ a d r = .ok () r' ↔
      ∃ pending, s.pendingApprovals[a]? = some pending ∧ pending.requestedAt ≤ at_ ∧
        at_ < pending.expiresAt ∧ ∃ tool, s.toolCalls[pending.toolCallId]? = some tool ∧
        r' = r.withState { s with
          toolCalls := s.toolCalls.insert pending.toolCallId (tool.resolveApproval d)
          pendingApprovals := s.pendingApprovals.erase a } := by
  simp [applyApprovalResolved, hs, and_assoc, MaterializedSessionState.withTool]

theorem applyRunInterrupted_ok_iff {turn : TurnId} {reason : String} :
    applyRunInterrupted run turn reason r = .ok () r' ↔ run ∉ s.runRecovery ∧
      r' = r.withState
        { s with runRecovery := s.runRecovery.insert run (.interrupted turn reason) } := by
  simp [applyRunInterrupted, hs, BTreeMap.contains_eq_false_iff, eq_comm (b := r')]

theorem applyRunCancelled_ok_iff : applyRunCancelled run r = .ok () r' ↔ run ∉ s.runRecovery ∧
      r' = r.withState { s with runRecovery := s.runRecovery.insert run .cancelled } := by
  simp [applyRunCancelled, hs, BTreeMap.contains_eq_false_iff, eq_comm (b := r')]

theorem applySessionCompacted_ok_iff {summary : CanonicalMessage} {through : RecordId} :
    applySessionCompacted summary through r = .ok () r' ↔ summary.isAssistant = true ∧
      r.sourceIsActive s through = true ∧ summary.messageId ∉ r.messageIds ∧
      r' = ({ r with messageIds := r.messageIds.insert summary.messageId } :
        SessionReducer).withState (s.setCompaction summary through) := by
  simp [applySessionCompacted, hs, eq_comm (b := r')]

theorem applyRecord_run : applyRecord e r = dispatchRecord e r :=
  bind_run_of_ok (requireState_eq_ok.mpr ⟨hs, rfl⟩)

/-- Every record that `applyRecord` accepts is a record step. -/
theorem recordStep_of_applyRecord (h : applyRecord e r = .ok () r') :
    ∃ q t, RecordStep r s e q t ∧ r' = q.withState t := by
  rw [applyRecord_run hs, dispatchRecord] at h
  cases record : e.record with rw [record] at h
  | sessionCreated => cases h
  | messageCommitted m =>
    cases hm : m.isToolResult with
    | false =>
      obtain ⟨fresh, declares, rfl⟩ := (applyMessageCommitted_ok_iff hs hm).mp h
      exact ⟨_, _, .message record fresh declares hm, rfl⟩
    | true =>
      cases m with
      | user | assistant => cases hm
      | toolResult id t name content isError error at_ =>
        obtain ⟨fresh, tool, lookup, pending, terminal, rfl⟩ := (applyToolResult_ok_iff hs).mp h
        exact ⟨_, _, .toolResult record fresh lookup pending terminal, rfl⟩
  | configurationChanged =>
    simp only [applyConfigurationChanged, bind_eq_ok, requireState_eq_ok, putState_run] at h
    obtain ⟨_, _, ⟨hs', rfl⟩, h⟩ := h
    cases hs.symm.trans hs'
    cases h
    exact ⟨_, _, .configuration record, rfl⟩
  | toolCallRequested =>
    obtain ⟨visible, declared, fresh, absent, rfl⟩ := (applyToolCallRequested_ok_iff hs).mp h
    exact ⟨_, _, .requested record visible declared fresh absent, rfl⟩
  | policyDecisionRecorded =>
    obtain ⟨tool, lookup, accepts, rfl⟩ := (updateTool_ok_iff hs).mp h
    exact ⟨_, _, .tool record (.policy (Option.isNone_iff_eq_none.mp accepts)) lookup, rfl⟩
  | approvalRequested =>
    obtain ⟨fresh, tool, lookup, policy, first, expires, rfl⟩ :=
      (applyApprovalRequested_ok_iff hs).mp h
    exact ⟨_, _, .approvalRequested record fresh lookup policy first expires, rfl⟩
  | approvalResolved =>
    obtain ⟨pending, found, begun, live, tool, lookup, rfl⟩ :=
      (applyApprovalResolved_ok_iff hs).mp h
    exact ⟨_, _, .approvalResolved record found begun live lookup, rfl⟩
  | toolExecutionStarted =>
    obtain ⟨tool, lookup, accepts, rfl⟩ := (updateTool_ok_iff hs).mp h
    obtain ⟨authorized, fresh⟩ := Bool.and_eq_true_iff.mp accepts
    exact ⟨_, _, .tool record
      (.started authorized (ToolExecutionState.isNotStarted_iff.mp fresh)) lookup, rfl⟩
  | toolExecutionFinished =>
    obtain ⟨tool, lookup, accepts, rfl⟩ := (updateTool_ok_iff hs).mp h
    exact ⟨_, _, .tool record (.finished (Bool.or_eq_true_iff.mp accepts)) lookup, rfl⟩
  | toolExecutionInterrupted =>
    obtain ⟨tool, lookup, accepts, rfl⟩ := (updateTool_ok_iff hs).mp h
    exact ⟨_, _, .tool record (.interrupted accepts) lookup, rfl⟩
  | runInterrupted =>
    obtain ⟨first, rfl⟩ := (applyRunInterrupted_ok_iff hs).mp h
    exact ⟨_, _, .runInterrupted record first, rfl⟩
  | runCancelled =>
    obtain ⟨first, rfl⟩ := (applyRunCancelled_ok_iff hs).mp h
    exact ⟨_, _, .runCancelled record first, rfl⟩
  | branchCreated => cases h
  | activeBranchChanged => cases h
  | sessionCompacted =>
    obtain ⟨role, source, fresh, rfl⟩ := (applySessionCompacted_ok_iff hs).mp h
    exact ⟨_, _, .compacted record role source fresh, rfl⟩
  | turnCheckpointed =>
    simp only [applyTurnCheckpointed, bind_eq_ok, requireState_eq_ok, putState_run] at h
    obtain ⟨_, _, ⟨hs', rfl⟩, h⟩ := h
    cases hs.symm.trans hs'
    cases h
    exact ⟨_, _, .checkpointed record, rfl⟩

/-- Every record step is accepted. -/
theorem applyRecord_of_recordStep {q : SessionReducer}
    {t : MaterializedSessionState} (h : RecordStep r s e q t) :
    applyRecord e r = .ok () (q.withState t) := by
  rw [applyRecord_run hs, dispatchRecord]
  cases h with
  | message record fresh declares notResult =>
    rw [record]
    exact (applyMessageCommitted_ok_iff hs notResult).mpr ⟨fresh, declares, rfl⟩
  | toolResult record fresh lookup pending terminal =>
    rw [record]
    exact (applyToolResult_ok_iff hs).mpr ⟨fresh, _, lookup, pending, terminal, rfl⟩
  | configuration record | checkpointed record =>
    rw [record]
    exact bind_eq_ok.mpr ⟨_, _, requireState_eq_ok.mpr ⟨hs, rfl⟩, rfl⟩
  | requested record visible declared fresh absent =>
    rw [record]
    exact (applyToolCallRequested_ok_iff hs).mpr ⟨visible, declared, fresh, absent, rfl⟩
  | tool record step lookup =>
    rw [record]
    cases step with
    | policy undecided =>
      exact (updateTool_ok_iff hs).mpr ⟨_, lookup, Option.isNone_iff_eq_none.mpr undecided, rfl⟩
    | started authorized fresh =>
      exact (updateTool_ok_iff hs).mpr ⟨_, lookup, Bool.and_eq_true_iff.mpr
        ⟨authorized, ToolExecutionState.isNotStarted_iff.mpr fresh⟩, rfl⟩
    | finished unsettled =>
      exact (updateTool_ok_iff hs).mpr ⟨_, lookup, Bool.or_eq_true_iff.mpr unsettled, rfl⟩
    | interrupted started => exact (updateTool_ok_iff hs).mpr ⟨_, lookup, started, rfl⟩
  | approvalRequested record fresh lookup policy first expires =>
    rw [record]
    exact (applyApprovalRequested_ok_iff hs).mpr
      ⟨fresh, _, lookup, policy, first, expires, rfl⟩
  | approvalResolved record found begun live lookup =>
    rw [record]
    exact (applyApprovalResolved_ok_iff hs).mpr ⟨_, found, begun, live, _, lookup, rfl⟩
  | runInterrupted record first =>
    rw [record]
    exact (applyRunInterrupted_ok_iff hs).mpr ⟨first, rfl⟩
  | runCancelled record first =>
    rw [record]
    exact (applyRunCancelled_ok_iff hs).mpr ⟨first, rfl⟩
  | compacted record role source fresh =>
    rw [record]
    exact (applySessionCompacted_ok_iff hs).mpr ⟨role, source, fresh, rfl⟩

omit hs

namespace RecordStep

variable {q : SessionReducer}

variable (h : RecordStep r s e q t)

include h

theorem isBranchRecord_eq_false : isBranchRecord e.record = false := by
  cases h with
  | tool kind step => rw [kind]; cases step <;> rfl
  | _ => simp only [*, isBranchRecord]

theorem isSessionCreated_eq_false : isSessionCreated e.record = false := by
  cases h with
  | tool kind step => rw [kind]; cases step <;> rfl
  | _ => simp only [*, isSessionCreated]

theorem records_eq : q.records = r.records := by cases h <;> rfl

theorem recordIds_eq : q.recordIds = r.recordIds := by cases h <;> rfl

theorem branchHeads_eq : q.branchHeads = r.branchHeads := by
  cases h <;> rfl

theorem activeBranchId_eq : t.activeBranchId = s.activeBranchId := by
  cases h <;> rfl

theorem branches_eq : t.branches = s.branches := by cases h <;> rfl

theorem sessionId_eq : t.sessionId = s.sessionId := by cases h <;> rfl

end RecordStep

/-! ### Rules for the whole reducer -/

/-- The record continues the log: its identity is new, it belongs to the session and it has the
next sequence number. -/
structure Follows (r : SessionReducer) (s : MaterializedSessionState) (e : RecordEnvelope) :
    Prop where
  state : r.state = some s
  fresh : e.recordId ∉ r.recordIds
  session : e.sessionId = s.sessionId
  next : checkedNext s.tailSequence = some e.sequence

/-- The reducer with state `s` once the record `e` is its tail. -/
def sealed (r : SessionReducer) (s : MaterializedSessionState) (e : RecordEnvelope) :
    SessionReducer :=
  { r with
    recordIds := r.recordIds.insert e.recordId
    state := some { s with tailSequence := e.sequence, tailRecordId := e.recordId } }

/-- The reducer with another head for one branch. -/
def withHead (r : SessionReducer) (b : BranchId) (head : BranchSnapshot) : SessionReducer :=
  { r with branchHeads := r.branchHeads.insert b head }

end SessionReducer

/-- The head of a branch after a record that left the materialized state `s`. -/
def BranchSnapshot.advance (head : BranchSnapshot) (s : MaterializedSessionState)
    (recordId : RecordId) : BranchSnapshot where
  projection := BranchProjection.capture s
  history := head.history.insert recordId
  declaredToolCalls := SessionReducer.transcriptToolCalls s.messages

/-- The head of a branch with one more record in its history. -/
def BranchSnapshot.extend (head : BranchSnapshot) (recordId : RecordId) : BranchSnapshot :=
  { head with history := head.history.insert recordId }

namespace SessionReducer

/-- The head of the root branch. -/
def rootSnapshot (s : MaterializedSessionState) (recordId : RecordId) : BranchSnapshot where
  projection := BranchProjection.capture s
  history := (∅ : BTreeSet RecordId).insert recordId
  declaredToolCalls := ∅

/-- The state a creation record starts with. -/
def createdState (e : RecordEnvelope) (profileId : ProfileId) (metadata : ProtocolMetadata) :
    MaterializedSessionState :=
  newState e.recordId e.sessionId e.sequence profileId metadata e.branchId

/-- The branch heads after a creation record. -/
def createdHeads (heads : BTreeMap BranchId BranchSnapshot) (e : RecordEnvelope)
    (s : MaterializedSessionState) : BTreeMap BranchId BranchSnapshot :=
  match e.branchId with
  | none => heads
  | some b => heads.insert b (rootSnapshot s e.recordId)

/-- The reducer after a creation record. -/
def afterCreation (r : SessionReducer) (e : RecordEnvelope) (profileId : ProfileId)
    (metadata : ProtocolMetadata) : SessionReducer :=
  { r with
    recordIds := r.recordIds.insert e.recordId
    state := some (createdState e profileId metadata)
    branchHeads := createdHeads r.branchHeads e (createdState e profileId metadata) }

/-- What an accepted record does to the reducer. `fork` finds the snapshot a new branch starts
from. -/
inductive Step (fork : BranchId → RecordId → Except SessionReplayError (Option BranchSnapshot))
    (r : SessionReducer) (e : RecordEnvelope) : SessionReducer → Prop
  | created {profileId : ProfileId} {metadata : ProtocolMetadata} (empty : r.state = none)
      (fresh : e.recordId ∉ r.recordIds) (first : e.sequence = 0)
      (record : e.record = .sessionCreated profileId metadata) :
      Step fork r e (r.afterCreation e profileId metadata)
  | unbranched {s : MaterializedSessionState} {q : SessionReducer} {t : MaterializedSessionState}
      (follows : Follows r s e) (scope : e.branchId = none) (active : s.activeBranchId = none)
      (step : RecordStep r s e q t) :
      Step fork r e (q.sealed t e)
  | onBranch {s : MaterializedSessionState} {q : SessionReducer} {t : MaterializedSessionState}
      {b : BranchId} {head : BranchSnapshot} {summary : BranchSummary}
      (follows : Follows r s e) (scope : e.branchId = some b) (active : s.activeBranchId = some b)
      (step : RecordStep r s e q t) (lookup : r.branchHeads[b]? = some head)
      (listed : s.branches[b]? = some summary) :
      Step fork r e
        ((q.withHead b (head.advance t e.recordId)).sealed
          { t with branches := t.branches.insert b (summary.setLeaf e.recordId) } e)
  | forked {s : MaterializedSessionState} {source b : BranchId} {origin : RecordId}
      {head snapshot : BranchSnapshot} (follows : Follows r s e)
      (record : e.record = .branchCreated source b origin) (fresh : b ∉ r.branchHeads)
      (lookup : r.branchHeads[source]? = some head) (reached : origin ∈ head.history)
      (found : fork source origin = .ok (some snapshot)) (safe : snapshot.safeToFork = true) :
      Step fork r e
        ((r.withHead b (snapshot.extend e.recordId)).sealed
          { s with
            branches := s.branches.insert b
              { branchId := b, sourceBranchId := some source, fromRecordId := origin
                leafRecordId := e.recordId } } e)
  | switched {s : MaterializedSessionState} {b : BranchId} {head : BranchSnapshot}
      {summary : BranchSummary} (follows : Follows r s e)
      (record : e.record = .activeBranchChanged b) (lookup : r.branchHeads[b]? = some head)
      (listed : s.branches[b]? = some summary) :
      Step fork r e
        ((r.withHead b (head.extend e.recordId)).sealed
          { head.projection.install s with
            activeBranchId := some b
            branches := s.branches.insert b (summary.setLeaf e.recordId) } e)

/-- The branch a record was applied to: the one it creates or activates, else the active one. -/
def tipBranch (r : SessionReducer) (e : RecordEnvelope) : Option BranchId :=
  match e.record with
  | .branchCreated _ b _ | .activeBranchChanged b => some b
  | _ => r.state.bind (·.activeBranchId)

/-- The snapshot of the branch a record was applied to, read in the reducer after the record. -/
def tipSnapshot (r : SessionReducer) (e : RecordEnvelope) : Option BranchSnapshot :=
  (tipBranch r e).bind fun b => r.branchHeads[b]?

/-- Capture the tip snapshot of a record, if it has one. -/
def captureTip (historical : HistoricalSnapshots) (r : SessionReducer) (e : RecordEnvelope) :
    HistoricalSnapshots :=
  match tipSnapshot r e with
  | some snapshot => historical.capture e.recordId snapshot
  | none => historical

/-! ### An application accepts exactly the steps -/

variable {h h' : Option HistoricalSnapshots} {b : BranchId} {head : BranchSnapshot}
  {profileId : ProfileId} {metadata : ProtocolMetadata}

theorem validateEnvelope_ok_iff (hs : r.state = some s) :
    SessionReducer.validateEnvelope e r = .ok u r' ↔
      (e.sessionId = s.sessionId ∧ checkedNext s.tailSequence = some e.sequence) ∧ r = r' := by
  simp [SessionReducer.validateEnvelope, hs, and_assoc]

theorem validateBranchScope_ok_iff (hs : r.state = some s) : validateBranchScope e r = .ok u r' ↔
      (isBranchRecord e.record = true ∨ e.branchId = s.activeBranchId) ∧ r = r' := by
  simp [validateBranchScope, hs, and_comm]

theorem captureActiveBranch_of_none (hs : r.state = some s) (active : s.activeBranchId = none)
    (id : RecordId) : captureActiveBranch id h r = .ok h r := by
  rw [captureActiveBranch, bind_run_of_ok (requireState_eq_ok.mpr ⟨hs, rfl⟩), active]
  rfl

theorem captureActiveBranch_ok_iff (hs : r.state = some s)
    (active : s.activeBranchId = some b) {id : RecordId} :
    captureActiveBranch id h r = .ok h' r' ↔ ∃ head summary, r.branchHeads[b]? = some head ∧
      s.branches[b]? = some summary ∧ h' = h.map (·.capture id (head.advance s id)) ∧
      r' = (r.withHead b (head.advance s id)).withState
        { s with branches := s.branches.insert b (summary.setLeaf id) } := by
  rw [captureActiveBranch, bind_run_of_ok (requireState_eq_ok.mpr ⟨hs, rfl⟩), active]
  simp only [bind_eq_ok, okOr_eq_ok]
  constructor
  · rintro ⟨_, _, hg, head, _, ⟨lookup, rfl⟩, _, _, hm, summary, _, ⟨listed, rfl⟩, _, _, hp, hr⟩
    cases hg
    cases hm
    cases hp
    cases hr
    exact ⟨head, summary, lookup, listed, rfl, rfl⟩
  · rintro ⟨head, summary, lookup, listed, rfl, rfl⟩
    exact ⟨_, _, rfl, head, _, ⟨lookup, rfl⟩, ⟨⟩, _, rfl, summary, _, ⟨listed, rfl⟩, (), _, rfl,
      rfl⟩

theorem advanceTail_run (hs : r.state = some s) : advanceTail e r = .ok () (r.sealed s e) := by
  rw [advanceTail, bind_run_of_ok (requireState_eq_ok.mpr ⟨hs, rfl⟩)]
  rfl

variable {replay : ReplaySnapshot}

theorem applyBranchCreated_ok_iff (hs : r.state = some s) {source : BranchId} {origin : RecordId} :
    applyBranchCreated replay e source b origin h r = .ok h' r' ↔ ∃ head snapshot,
      b ∉ r.branchHeads ∧ r.branchHeads[source]? = some head ∧ origin ∈ head.history ∧
      forkSnapshot replay h r source origin = .ok (some snapshot) ∧
      snapshot.safeToFork = true ∧
      h' = h.map (·.capture e.recordId (snapshot.extend e.recordId)) ∧
      r' = (r.withHead b (snapshot.extend e.recordId)).withState
        { s with
          branches := s.branches.insert b
            { branchId := b, sourceBranchId := some source, fromRecordId := origin
              leafRecordId := e.recordId } } := by
  simp only [applyBranchCreated, bind_eq_ok, okOr_eq_ok, ensure_eq_ok, propagate_eq_ok,
    requireState_eq_ok, Bool.not_eq_true', BTreeMap.contains_eq_false_iff,
    Std.ExtTreeSet.contains_iff_mem]
  constructor
  · rintro ⟨_, _, hg, _, _, ⟨fresh, rfl⟩, head, _, ⟨lookup, rfl⟩, _, _, ⟨reached, rfl⟩, _, _,
      ⟨found, rfl⟩, snapshot, _, ⟨rfl, rfl⟩, _, _, ⟨safe, rfl⟩, _, _, hm, _, _, ⟨hs', rfl⟩, _, _,
      hp, hr⟩
    cases hg
    cases hm
    cases hs.symm.trans hs'
    cases hp
    cases hr
    exact ⟨head, snapshot, fresh, lookup, reached, found, safe, rfl, rfl⟩
  · rintro ⟨head, snapshot, fresh, lookup, reached, found, safe, rfl, rfl⟩
    exact ⟨_, _, rfl, (), _, ⟨fresh, rfl⟩, head, _, ⟨lookup, rfl⟩, (), _, ⟨reached, rfl⟩, _, _,
      ⟨found, rfl⟩, snapshot, _, ⟨rfl, rfl⟩, (), _, ⟨safe, rfl⟩, ⟨⟩, _, rfl, s, _, ⟨hs, rfl⟩, (), _,
      rfl, rfl⟩

theorem applyActiveBranchChanged_ok_iff (hs : r.state = some s) :
    applyActiveBranchChanged e b h r = .ok h' r' ↔ ∃ head summary,
      r.branchHeads[b]? = some head ∧ s.branches[b]? = some summary ∧
      h' = h.map (·.capture e.recordId (head.extend e.recordId)) ∧
      r' = (r.withHead b (head.extend e.recordId)).withState
        { head.projection.install s with
          activeBranchId := some b
          branches := s.branches.insert b (summary.setLeaf e.recordId) } := by
  simp only [applyActiveBranchChanged, bind_eq_ok, okOr_eq_ok, requireState_eq_ok]
  constructor
  · rintro ⟨_, _, hg, head, _, ⟨lookup, rfl⟩, _, _, ⟨hs', rfl⟩, _, _, hm, _, _, hp, summary, _,
      ⟨listed, rfl⟩, _, _, hp', hr⟩
    cases hg
    cases hs.symm.trans hs'
    cases hm
    cases hp
    cases hp'
    cases hr
    exact ⟨head, summary, lookup, listed, rfl, rfl⟩
  · rintro ⟨head, summary, lookup, listed, rfl, rfl⟩
    exact ⟨_, _, rfl, head, _, ⟨lookup, rfl⟩, s, _, ⟨hs, rfl⟩, ⟨⟩, _, rfl, (), _, rfl, summary, _,
      ⟨listed, rfl⟩, (), _, rfl, rfl⟩

theorem applyCreation_ok_iff : applyCreation e h r = .ok h' r' ↔ e.sequence = 0 ∧
    ∃ profileId metadata, e.record = .sessionCreated profileId metadata ∧
      h' = (match e.branchId with
        | none => h
        | some _ => h.map (·.capture e.recordId
            (rootSnapshot (createdState e profileId metadata) e.recordId))) ∧
      r' = r.afterCreation e profileId metadata := by
  simp only [applyCreation, bind_eq_ok, ensure_eq_ok, beq_iff_eq]
  constructor
  · rintro ⟨_, _, ⟨first, rfl⟩, h⟩
    refine ⟨first, ?_⟩
    cases record : e.record with rw [record] at h
    | sessionCreated profileId metadata =>
      refine ⟨profileId, metadata, rfl, ?_⟩
      cases hb : e.branchId with
      | none =>
        simp only [hb] at h
        cases h
        simp [afterCreation, createdHeads, hb, createdState]
      | some b =>
        simp only [hb] at h
        cases h
        simp [afterCreation, createdHeads, hb, createdState, rootSnapshot]
    | _ => cases h
  · rintro ⟨first, profileId, metadata, record, rfl, rfl⟩
    refine ⟨(), r, ⟨first, rfl⟩, ?_⟩
    rw [record]
    cases hb : e.branchId with
    | none | some b => simp [afterCreation, createdHeads, hb, createdState]; rfl

theorem isNone_eq_false_of_some (hs : r.state = some s) : r.state.isNone = false := by
  rw [hs]
  rfl

theorem applyInnerWithHistory_ok_of_state (hs : r.state = some s) :
    applyInnerWithHistory replay e h r = .ok h' r' ↔ Follows r s e ∧
      isSessionCreated e.record = false ∧
      (isBranchRecord e.record = true ∨ e.branchId = s.activeBranchId) ∧
      ∃ q t, applyScoped replay e h r = .ok h' q ∧ q.state = some t ∧ r' = q.sealed t e := by
  simp only [applyInnerWithHistory, bind_eq_ok, ensure_eq_ok, Bool.not_eq_true',
    BTreeSet.contains_eq_false_iff]
  constructor
  · rintro ⟨_, _, hg, _, _, ⟨fresh, rfl⟩, hok⟩
    cases hg
    rw [isNone_eq_false_of_some hs] at hok
    simp only [Bool.false_eq_true, if_false, bind_eq_ok, ensure_eq_ok, Bool.not_eq_true'] at hok
    obtain ⟨_, _, hv, _, _, ⟨notCreated, rfl⟩, _, _, hb, h'', q, dispatch, _, _, tail, hr⟩ := hok
    obtain ⟨⟨session, next⟩, rfl⟩ := (validateEnvelope_ok_iff hs).mp hv
    obtain ⟨scope, rfl⟩ := (validateBranchScope_ok_iff hs).mp hb
    cases hr
    obtain ⟨t, ht⟩ : ∃ t, q.state = some t := by
      simp only [advanceTail, bind_eq_ok, requireState_eq_ok] at tail
      obtain ⟨t, _, ⟨ht, -⟩, -⟩ := tail
      exact ⟨t, ht⟩
    rw [advanceTail_run ht] at tail
    cases tail
    exact ⟨⟨hs, fresh, session, next⟩, notCreated, scope, q, t, dispatch, ht, rfl⟩
  · rintro ⟨follows, notCreated, scope, q, t, dispatch, ht, rfl⟩
    refine ⟨r, r, rfl, (), r, ⟨follows.fresh, rfl⟩, ?_⟩
    rw [isNone_eq_false_of_some hs]
    simp only [Bool.false_eq_true, if_false, bind_eq_ok, ensure_eq_ok, Bool.not_eq_true']
    exact ⟨(), r, (validateEnvelope_ok_iff hs).mpr ⟨⟨follows.session, follows.next⟩, rfl⟩, (), r,
      ⟨notCreated, rfl⟩, (), r, (validateBranchScope_ok_iff hs).mpr ⟨scope, rfl⟩, h', q, dispatch,
      (), _, advanceTail_run ht, rfl⟩

theorem applyInnerWithHistory_of_none (empty : r.state = none) :
    applyInnerWithHistory replay e h r = .ok h' r' ↔
      e.recordId ∉ r.recordIds ∧ applyCreation e h r = .ok h' r' := by
  simp only [applyInnerWithHistory, bind_eq_ok, ensure_eq_ok, Bool.not_eq_true',
    BTreeSet.contains_eq_false_iff]
  constructor
  · rintro ⟨_, _, hg, _, _, ⟨fresh, rfl⟩, hok⟩
    cases hg
    rw [empty] at hok
    exact ⟨fresh, hok⟩
  · rintro ⟨fresh, hok⟩
    refine ⟨r, r, rfl, (), r, ⟨fresh, rfl⟩, ?_⟩
    rw [empty]
    exact hok

/-- A branch creation or switch dispatches to its own handler, any other record to `applyRecord`
on the active branch. -/
theorem applyScoped_of_record (hb : isBranchRecord e.record = false) :
    applyScoped replay e h = (do applyRecord e; captureActiveBranch e.recordId h) := by
  rw [applyScoped]
  cases record : e.record with
  | branchCreated | activeBranchChanged => rw [record] at hb; cases hb
  | _ => rfl

theorem tipSnapshot_of_branch (hb : tipBranch r e = some b) (hh : r.branchHeads[b]? = some head) :
    tipSnapshot r e = some head := by
  rw [tipSnapshot, hb]
  exact hh

theorem tipBranch_of_record (hb : isBranchRecord e.record = false) :
    tipBranch r e = r.state.bind (·.activeBranchId) := by
  rw [tipBranch]
  cases record : e.record with
  | branchCreated | activeBranchChanged => rw [record] at hb; cases hb
  | _ => rfl

theorem map_captureTip_of_some (ht : tipSnapshot r e = some head) :
    h.map (captureTip · r e) = h.map (·.capture e.recordId head) := by
  simp only [captureTip, ht]

theorem map_captureTip_of_none (ht : tipSnapshot r e = none) : h.map (captureTip · r e) = h := by
  simp only [captureTip, ht, Option.map_id']

@[simp] theorem withHead_branchHeads_self (r : SessionReducer) (s : MaterializedSessionState)
    (b : BranchId) (head : BranchSnapshot) (e : RecordEnvelope) :
    ((r.withHead b head).sealed s e).branchHeads[b]? = some head := by
  simp [withHead, sealed]

theorem tipBranch_created (record : e.record = .sessionCreated profileId metadata) :
    tipBranch (r.afterCreation e profileId metadata) e = e.branchId := by
  rw [tipBranch_of_record (by rw [record]; rfl)]
  rfl

theorem tipSnapshot_created (record : e.record = .sessionCreated profileId metadata) :
    tipSnapshot (r.afterCreation e profileId metadata) e =
      e.branchId.map fun _ => rootSnapshot (createdState e profileId metadata) e.recordId := by
  rw [tipSnapshot, tipBranch_created record, afterCreation]
  cases hbranch : e.branchId <;> simp [createdHeads, hbranch]

theorem map_captureTip_created (record : e.record = .sessionCreated profileId metadata) :
    h.map (captureTip · (r.afterCreation e profileId metadata) e) = match e.branchId with
      | none => h
      | some _ => h.map (·.capture e.recordId
          (rootSnapshot (createdState e profileId metadata) e.recordId)) := by
  have tip := tipSnapshot_created (r := r) record
  cases hbranch : e.branchId with
  | none => exact map_captureTip_of_none (by rw [tip, hbranch]; rfl)
  | some b => exact map_captureTip_of_some (by rw [tip, hbranch]; rfl)

/-- The tip snapshot of a record of the active branch is the new head of that branch. -/
theorem tipSnapshot_onBranch
    (hb : isBranchRecord e.record = false) (active : t.activeBranchId = some b) :
    tipSnapshot ((r.withHead b head).sealed t e) e = some head := by
  refine tipSnapshot_of_branch (b := b) ?_ (withHead_branchHeads_self ..)
  rw [tipBranch_of_record hb]
  exact active

/-- The tip snapshot of a record that creates or activates a branch is the head of that branch. -/
theorem tipSnapshot_withHead
    (record : (∃ source origin, e.record = .branchCreated source b origin) ∨
      e.record = .activeBranchChanged b) :
    tipSnapshot ((r.withHead b head).sealed t e) e = some head := by
  refine tipSnapshot_of_branch (b := b) ?_ (withHead_branchHeads_self ..)
  rcases record with ⟨_, _, record⟩ | record <;> rw [tipBranch, record]

/-- An accepted application is a step, and captures exactly the tip snapshot. -/
theorem step_of_applyInnerWithHistory (hok : applyInnerWithHistory replay e h r = .ok h' r') :
    Step (forkSnapshot replay h r) r e r' ∧ h' = h.map (captureTip · r' e) := by
  cases hs : r.state with
  | none =>
    obtain ⟨fresh, hc⟩ := (applyInnerWithHistory_of_none hs).mp hok
    obtain ⟨first, profileId, metadata, record, rfl, rfl⟩ := applyCreation_ok_iff.mp hc
    exact ⟨.created hs fresh first record, (map_captureTip_created record).symm⟩
  | some s =>
    obtain ⟨follows, notCreated, scope, q, t, dispatch, ht, rfl⟩ :=
      (applyInnerWithHistory_ok_of_state hs).mp hok
    cases hb : isBranchRecord e.record with
    | false =>
      rw [applyScoped_of_record hb] at dispatch
      obtain ⟨_, q', hr, hc⟩ := bind_eq_ok.mp dispatch
      obtain ⟨q₀, t₀, step, rfl⟩ := recordStep_of_applyRecord hs hr
      have scope : e.branchId = s.activeBranchId := by simpa [hb] using scope
      cases active : s.activeBranchId with
      | none =>
        have active' : t₀.activeBranchId = none := step.activeBranchId_eq.trans active
        rw [captureActiveBranch_of_none (withState_state ..) active'] at hc
        cases hc
        cases ht
        refine ⟨.unbranched (q := q₀) follows (scope.trans active) active step, ?_⟩
        refine (map_captureTip_of_none ?_).symm
        rw [tipSnapshot, tipBranch_of_record hb]
        simp [sealed, active']
      | some b =>
        have active' : t₀.activeBranchId = some b := step.activeBranchId_eq.trans active
        obtain ⟨head, summary, lookup, listed, rfl, rfl⟩ :=
          (captureActiveBranch_ok_iff (withState_state ..) active').mp hc
        cases ht
        have lookup' : r.branchHeads[b]? = some head := by
          rw [← step.branchHeads_eq]
          exact lookup
        rw [step.branches_eq] at listed
        refine ⟨.onBranch (q := q₀) follows (scope.trans active) active step lookup' listed, ?_⟩
        exact (map_captureTip_of_some (tipSnapshot_onBranch hb active')).symm
    | true =>
      cases record : e.record with
      | branchCreated source b origin =>
        rw [applyScoped, record] at dispatch
        obtain ⟨head, snapshot, fresh, lookup, reached, found, safe, rfl, rfl⟩ :=
          (applyBranchCreated_ok_iff hs).mp dispatch
        cases ht
        refine ⟨.forked follows record fresh lookup reached found safe, ?_⟩
        exact (map_captureTip_of_some (tipSnapshot_withHead (.inl ⟨source, origin, record⟩))).symm
      | activeBranchChanged b =>
        rw [applyScoped, record] at dispatch
        obtain ⟨head, summary, lookup, listed, rfl, rfl⟩ :=
          (applyActiveBranchChanged_ok_iff hs).mp dispatch
        cases ht
        refine ⟨.switched follows record lookup listed, ?_⟩
        exact (map_captureTip_of_some (tipSnapshot_withHead (.inr record))).symm
      | _ => rw [record] at hb; cases hb

/-- Every step is accepted, and captures exactly the tip snapshot. -/
theorem applyInnerWithHistory_of_step (hstep : Step (forkSnapshot replay h r) r e r') :
    applyInnerWithHistory replay e h r = .ok (h.map (captureTip · r' e)) r' := by
  cases hstep with
  | created empty fresh first record =>
    exact (applyInnerWithHistory_of_none empty).mpr ⟨fresh, applyCreation_ok_iff.mpr
      ⟨first, _, _, record, map_captureTip_created record, rfl⟩⟩
  | @unbranched s q t follows scope active step =>
    have hb := step.isBranchRecord_eq_false
    have active' : t.activeBranchId = none := step.activeBranchId_eq.trans active
    refine (applyInnerWithHistory_ok_of_state follows.state).mpr ⟨follows,
      step.isSessionCreated_eq_false, .inr (scope.trans active.symm), q.withState t, t, ?_, rfl,
      rfl⟩
    rw [applyScoped_of_record hb, bind_run_of_ok (applyRecord_of_recordStep follows.state step),
      captureActiveBranch_of_none (withState_state ..) active', map_captureTip_of_none]
    rw [tipSnapshot, tipBranch_of_record hb]
    simp [sealed, active']
  | @onBranch s q t b head summary follows scope active step lookup listed =>
    have hb := step.isBranchRecord_eq_false
    have active' : t.activeBranchId = some b := step.activeBranchId_eq.trans active
    refine (applyInnerWithHistory_ok_of_state follows.state).mpr ⟨follows,
      step.isSessionCreated_eq_false, .inr (scope.trans active.symm),
      (q.withHead b (head.advance t e.recordId)).withState
        { t with branches := t.branches.insert b (summary.setLeaf e.recordId) }, _, ?_, rfl, rfl⟩
    rw [applyScoped_of_record hb, bind_run_of_ok (applyRecord_of_recordStep follows.state step)]
    refine (captureActiveBranch_ok_iff (withState_state ..) active').mpr
      ⟨head, summary, ?_, ?_, ?_, rfl⟩
    · rw [← lookup, ← step.branchHeads_eq]
      rfl
    · rw [step.branches_eq]
      exact listed
    · exact map_captureTip_of_some (tipSnapshot_onBranch hb active')
  | @forked s source b origin head snapshot follows record fresh lookup reached found safe =>
    refine (applyInnerWithHistory_ok_of_state follows.state).mpr ⟨follows, by rw [record]; rfl,
      .inl (by rw [record]; rfl), (r.withHead b (snapshot.extend e.recordId)).withState _, _, ?_,
      rfl, rfl⟩
    rw [applyScoped, record]
    refine (applyBranchCreated_ok_iff follows.state).mpr
      ⟨head, snapshot, fresh, lookup, reached, found, safe, ?_, rfl⟩
    exact map_captureTip_of_some (tipSnapshot_withHead (.inl ⟨source, origin, record⟩))
  | @switched s b head summary follows record lookup listed =>
    refine (applyInnerWithHistory_ok_of_state follows.state).mpr ⟨follows, by rw [record]; rfl,
      .inl (by rw [record]; rfl), (r.withHead b (head.extend e.recordId)).withState _, _, ?_,
      rfl, rfl⟩
    rw [applyScoped, record]
    refine (applyActiveBranchChanged_ok_iff follows.state).mpr
      ⟨head, summary, lookup, listed, ?_, rfl⟩
    exact map_captureTip_of_some (tipSnapshot_withHead (.inr record))

/-- One application accepts exactly the steps. -/
theorem applyInner_ok_iff : applyInner e r = .ok () r' ↔ Step (replayBranchSnapshot r) r e r' := by
  rw [applyInner, bind_eq_ok]
  constructor
  · rintro ⟨h', q, hok, hr⟩
    cases hr
    exact (step_of_applyInnerWithHistory hok).1
  · intro hstep
    exact ⟨_, _, applyInnerWithHistory_of_step (h := none) hstep, rfl⟩

end SessionReducer

end TeaRs
