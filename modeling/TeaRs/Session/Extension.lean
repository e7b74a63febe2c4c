import TeaRs.Session.Authorization
import TeaRs.Session.StoreEngine

/-!
# Extending a log on its active branch

A client of a session only appends records that continue the log on the active branch. For such
records the reducer is a fold: what a record does to the branch is a function of the branch, and
whether it is accepted is a condition on the branch. The condition is stated for the records that
settle, pause and end work; the records that start a transcript are left to the rules.

## Main definitions

* `ActiveView`: the projection of the active branch with the identities in use.
* `ActiveView.after`: what a record does to it.
* `ActiveView.Admits`: the conditions under which records are accepted.
* `Chained`: envelopes that continue a log.

## Main results

* `SessionReducer.Accepted.view_append`: accepted records fold over the view.
* `SessionReducer.Accepted.append_of_admits`: admitted records are accepted.
* `StoredSession.Consistent.applyTransactionInPlace_eq_ok`: a transaction with accepted records and
  journals commits.
* `AppendTransaction.Fits.applyTransactionInPlace_eq_ok`: admitted records without journal entries
  commit.
-/

namespace TeaRs

open StateError BranchProjection SessionReducer.Accepted BTreeMap

/-! ### The view of the active branch -/

/-- The projection of the active branch with the message and approval identities in use. -/
structure ActiveView extends BranchProjection where
  messageIds : BTreeSet MessageId
  approvalIds : BTreeSet ApprovalId

/-- The call that a message is the result of, with the identity of the message. -/
def CanonicalMessage.resultOf? : CanonicalMessage → Option (ToolCallId × MessageId)
  | .toolResult id toolCallId .. => some (toolCallId, id)
  | .user .. | .assistant .. => none

namespace ActiveView

/-- The view with one tool call changed. -/
def adjustCall (v : ActiveView) (toolCallId : ToolCallId) (f : ToolCallState → ToolCallState) :
    ActiveView :=
  { v with toolCalls := adjust v.toolCalls toolCallId f }

/-- The view after one more message. -/
def afterMessage (v : ActiveView) (message : CanonicalMessage) : ActiveView :=
  { v with
    messages := v.messages ++ [message]
    messageIds := v.messageIds.insert message.messageId
    toolCalls :=
      match message.resultOf? with
      | some (toolCallId, id) => adjust v.toolCalls toolCallId (·.commitResult id)
      | none => v.toolCalls }

/-- What a record of the active branch does to the view. -/
def after (v : ActiveView) (e : RecordEnvelope) : ActiveView :=
  match e.record with
  | .messageCommitted message => v.afterMessage message
  | .configurationChanged model profileId effort =>
    { v with configuration := v.configuration.change model profileId effort }
  | .toolCallRequested toolCallId toolName arguments =>
    { v with
      toolCalls := v.toolCalls.insert toolCallId (newToolCall toolCallId toolName arguments) }
  | .policyDecisionRecorded toolCallId decision => v.adjustCall toolCallId (·.setPolicy decision)
  | .approvalRequested approvalId toolCallId expiresAt =>
    { v.adjustCall toolCallId (·.setApproval approvalId) with
      approvalIds := v.approvalIds.insert approvalId
      pendingApprovals := v.pendingApprovals.insert approvalId
        { approvalId, toolCallId, expiresAt, requestedAt := e.timestamp } }
  | .approvalResolved approvalId decision =>
    match v.pendingApprovals[approvalId]? with
    | none => v
    | some pending =>
      { v.adjustCall pending.toolCallId (·.resolveApproval decision) with
        pendingApprovals := v.pendingApprovals.erase approvalId }
  | .toolExecutionStarted toolCallId target idempotency =>
    v.adjustCall toolCallId (·.start target idempotency)
  | .toolExecutionFinished toolCallId isError content error presentation =>
    v.adjustCall toolCallId (·.finish isError content error presentation)
  | .toolExecutionInterrupted toolCallId reason => v.adjustCall toolCallId (·.interrupt reason)
  | .runInterrupted runId turnId reason =>
    { v with runRecovery := v.runRecovery.insert runId (.interrupted turnId reason) }
  | .runCancelled runId => { v with runRecovery := v.runRecovery.insert runId .cancelled }
  | .sessionCompacted summary through =>
    { v with
      messages := [summary]
      messageIds := v.messageIds.insert summary.messageId
      latestCompaction := some { summary, compactedThroughRecordId := through } }
  | .turnCheckpointed runId turnId nextAction =>
    { v with
      latestCheckpoint := some
        { runId, turnId, recordId := e.recordId, sequence := e.sequence, nextAction } }
  | .sessionCreated .. | .branchCreated .. | .activeBranchChanged .. => v

/-- What records of the active branch do to the view. -/
def afterAll (v : ActiveView) (records : List RecordEnvelope) : ActiveView :=
  records.foldl after v

@[simp] theorem afterAll_nil (v : ActiveView) : v.afterAll [] = v := rfl

@[simp] theorem afterAll_cons (v : ActiveView) (e : RecordEnvelope)
    (records : List RecordEnvelope) :
    v.afterAll (e :: records) = (v.after e).afterAll records := rfl

theorem afterAll_append (v : ActiveView) (records records' : List RecordEnvelope) :
    v.afterAll (records ++ records') = (v.afterAll records).afterAll records' :=
  List.foldl_append

/-- The view admits a record that settles, pauses or ends work. -/
def Admits (v : ActiveView) (e : RecordEnvelope) : Prop :=
  match e.record with
  | .policyDecisionRecorded toolCallId _ =>
    ∃ tool, v.toolCalls[toolCallId]? = some tool ∧ tool.policyDecision = none
  | .approvalRequested approvalId toolCallId expiresAt =>
    approvalId ∉ v.approvalIds ∧ e.timestamp < expiresAt ∧
      ∃ tool, v.toolCalls[toolCallId]? = some tool ∧
        tool.policyDecision = some .requireApproval ∧ tool.approvalId = none
  | .approvalResolved approvalId _ =>
    ∃ pending, v.pendingApprovals[approvalId]? = some pending ∧
      pending.requestedAt ≤ e.timestamp ∧ e.timestamp < pending.expiresAt ∧
      pending.toolCallId ∈ v.toolCalls
  | .toolExecutionStarted toolCallId _ _ =>
    ∃ tool, v.toolCalls[toolCallId]? = some tool ∧ tool.authorized = true ∧
      tool.execution = .notStarted
  | .toolExecutionFinished toolCallId isError _ _ _ =>
    ∃ tool, v.toolCalls[toolCallId]? = some tool ∧
      (tool.execution.isStarted = true ∨ tool.deniedWithoutExecution isError = true)
  | .toolExecutionInterrupted toolCallId _ =>
    ∃ tool, v.toolCalls[toolCallId]? = some tool ∧ tool.execution.isStarted = true
  | .messageCommitted (.toolResult id toolCallId toolName content isError error _) =>
    id ∉ v.messageIds ∧ ∃ tool, v.toolCalls[toolCallId]? = some tool ∧
      tool.resultMessageId = none ∧ tool.matchesResult toolName content isError error = true
  | .runInterrupted runId _ _ | .runCancelled runId => runId ∉ v.runRecovery
  | .turnCheckpointed .. => True
  | _ => False

/-- The view admits records one after another. -/
def AdmitsAll (v : ActiveView) : List RecordEnvelope → Prop
  | [] => True
  | e :: records => v.Admits e ∧ (v.after e).AdmitsAll records

/-- What the view has to show for a record to be accepted, as far as the record declares, decides or
starts a call. -/
def Allows (v : ActiveView) (e : RecordEnvelope) : Prop :=
  match e.record with
  | .toolCallRequested toolCallId _ _ => toolCallId ∉ v.toolCalls
  | .policyDecisionRecorded toolCallId _ =>
    ∃ tool, v.toolCalls[toolCallId]? = some tool ∧ tool.policyDecision = none
  | .toolExecutionStarted toolCallId _ _ =>
    ∃ tool, v.toolCalls[toolCallId]? = some tool ∧ tool.execution = .notStarted
  | _ => True

/-- The view allows records one after another. -/
def AllowsAll (v : ActiveView) : List RecordEnvelope → Prop
  | [] => True
  | e :: records => v.Allows e ∧ (v.after e).AllowsAll records

theorem allowsAll_append (v : ActiveView) (records records' : List RecordEnvelope) :
    v.AllowsAll (records ++ records') ↔
      v.AllowsAll records ∧ (v.afterAll records).AllowsAll records' := by
  induction records generalizing v with
  | nil => simp [AllowsAll]
  | cons e records ih => simp [AllowsAll, ih, and_assoc]

end ActiveView

open ActiveView

variable {r r' q : SessionReducer} {s t : MaterializedSessionState} {e : RecordEnvelope}
  {log records : List RecordEnvelope}

namespace SessionReducer

/-- The view of the active branch of a state. -/
def activeView (r : SessionReducer) (s : MaterializedSessionState) : ActiveView where
  toBranchProjection := capture s
  messageIds := r.messageIds
  approvalIds := r.approvalIds

theorem RecordStep.activeView_eq (h : RecordStep r s e q t) :
    q.activeView t = (r.activeView s).after e := by
  cases h with
  | message record fresh declares notResult =>
    rw [after, record]
    cases ‹CanonicalMessage› with
    | toolResult => cases notResult
    | user | assistant => rfl
  | toolResult record fresh lookup pending terminal =>
    rw [after, record]
    simp only [afterMessage, CanonicalMessage.resultOf?, activeView,
      capture, adjust_of_some lookup]
    rfl
  | configuration record | requested record visible declared fresh absent
  | runInterrupted record first | runCancelled record first
  | compacted record role source fresh | checkpointed record => rw [after, record]; rfl
  | tool kind step lookup =>
    rw [after, kind]
    cases step with
    | policy | started | finished | interrupted =>
      simp only [adjustCall, activeView, capture,
        adjust_of_some lookup]
      rfl
  | approvalRequested record fresh lookup policy first expires =>
    rw [after, record]
    simp only [adjustCall, activeView, capture,
      adjust_of_some lookup]
  | approvalResolved record found begun live lookup =>
    rw [after, record]
    simp only [activeView, capture, found, adjustCall,
      adjust_of_some lookup]

theorem RecordStep.allows (h : RecordStep r s e q t) : (r.activeView s).Allows e := by
  cases h with
  | requested record visible declared fresh absent =>
    rw [ActiveView.Allows, record]
    exact absent
  | tool kind step lookup =>
    rw [ActiveView.Allows, kind]
    cases step with
    | policy undecided => exact ⟨_, lookup, undecided⟩
    | started _ fresh => exact ⟨_, lookup, fresh⟩
    | finished | interrupted => trivial
  | message record | toolResult record | configuration record | approvalRequested record
  | approvalResolved record | runInterrupted record | runCancelled record | compacted record
  | checkpointed record =>
    rw [ActiveView.Allows, record]
    trivial

theorem recordStep_of_admits (h : (r.activeView s).Admits e) : ∃ q t, RecordStep r s e q t := by
  rw [ActiveView.Admits] at h
  split at h
  case h_1 record =>
    obtain ⟨tool, lookup, undecided⟩ := h
    exact ⟨_, _, .tool record (.policy undecided) lookup⟩
  case h_2 record =>
    obtain ⟨fresh, expires, tool, lookup, policy, first⟩ := h
    exact ⟨_, _, .approvalRequested record fresh lookup policy first expires⟩
  case h_3 record =>
    obtain ⟨pending, found, begun, live, member⟩ := h
    obtain ⟨tool, lookup⟩ := exists_getElem?_of_mem member
    exact ⟨_, _, .approvalResolved record found begun live lookup⟩
  case h_4 record =>
    obtain ⟨tool, lookup, authorized, fresh⟩ := h
    exact ⟨_, _, .tool record (.started authorized fresh) lookup⟩
  case h_5 record =>
    obtain ⟨tool, lookup, unsettled⟩ := h
    exact ⟨_, _, .tool record (.finished unsettled) lookup⟩
  case h_6 record =>
    obtain ⟨tool, lookup, started⟩ := h
    exact ⟨_, _, .tool record (.interrupted started) lookup⟩
  case h_7 record =>
    obtain ⟨fresh, tool, lookup, pending, terminal⟩ := h
    exact ⟨_, _, .toolResult record fresh lookup pending terminal⟩
  case h_8 record => exact ⟨_, _, .runInterrupted record h⟩
  case h_9 record => exact ⟨_, _, .runCancelled record h⟩
  case h_10 record => exact ⟨_, _, .checkpointed record⟩
  case h_11 => exact h.elim

/-! ### Records of the active branch -/

/-- What records of the active branch leave of a reducer and its state. -/
structure Grown (r : SessionReducer) (s : MaterializedSessionState) (records : List RecordEnvelope)
    (r' : SessionReducer) (s' : MaterializedSessionState) : Prop where
  state : r'.state = some s'
  view : r'.activeView s' = (r.activeView s).afterAll records
  allowed : (r.activeView s).AllowsAll records
  sessionId : s'.sessionId = s.sessionId
  activeBranchId : s'.activeBranchId = s.activeBranchId

namespace Grown

variable {r₁ r₂ r₃ : SessionReducer} {s₁ s₂ s₃ : MaterializedSessionState}
  {records' : List RecordEnvelope}

theorem refl (hs : r.state = some s) : Grown r s [] r s := ⟨hs, rfl, trivial, rfl, rfl⟩

theorem trans (h : Grown r₁ s₁ records r₂ s₂) (h' : Grown r₂ s₂ records' r₃ s₃) :
    Grown r₁ s₁ (records ++ records') r₃ s₃ where
  state := h'.state
  view := by rw [h'.view, h.view, afterAll_append]
  allowed := by
    rw [allowsAll_append, ← h.view]
    exact ⟨h.allowed, h'.allowed⟩
  sessionId := h'.sessionId.trans h.sessionId
  activeBranchId := h'.activeBranchId.trans h.activeBranchId

end Grown

/-- The record is neither a creation nor about a branch as a whole. -/
def Plain (e : RecordEnvelope) : Prop :=
  isBranchRecord e.record = false ∧ isSessionCreated e.record = false

end SessionReducer

/-- Envelopes that continue a log on one branch, from the sequence number of its tail. -/
def Chained (sessionId : SessionId) (branchId : Option BranchId) :
    SessionSequence → List RecordEnvelope → Prop
  | _, [] => True
  | tail, e :: records =>
    e.sessionId = sessionId ∧ e.branchId = branchId ∧ checkedNext tail = some e.sequence ∧
      Chained sessionId branchId e.sequence records

theorem Chained.sessionId_eq {sessionId : SessionId} {branchId : Option BranchId}
    {tail : SessionSequence} (h : Chained sessionId branchId tail records) (he : e ∈ records) :
    e.sessionId = sessionId := by
  induction records generalizing tail with
  | nil => cases he
  | cons first records ih =>
    rcases List.mem_cons.mp he with rfl | he
    · exact h.1
    · exact ih h.2.2.2 he

namespace SessionReducer

variable {fork : BranchId → RecordId → Except SessionReplayError (Option BranchSnapshot)}

theorem Step.recordStep (h : Step fork r e q) (plain : Plain e) :
    ∃ s p t s', RecordStep r s e p t ∧ q.state = some s' ∧
      capture s' = capture t := by
  cases h with
  | created _ _ _ record =>
    have := plain.2
    rw [record] at this
    cases this
  | unbranched follows scope active step | onBranch follows scope active step lookup listed =>
    exact ⟨_, _, _, _, step, rfl, rfl⟩
  | forked follows record | switched follows record =>
    have := plain.1
    rw [record] at this
    cases this

theorem Step.grown (h : Step fork r e q) (hs : r.state = some s) (plain : Plain e) :
    ∃ s', Grown r s [e] (q.push e) s' ∧ s'.tailSequence = e.sequence := by
  cases h with
  | created empty => cases empty.symm.trans hs
  | unbranched follows scope active step | onBranch follows scope active step lookup listed =>
    obtain rfl := Option.some.inj (follows.state.symm.trans hs)
    exact ⟨_, ⟨rfl, step.activeView_eq, ⟨step.allows, trivial⟩, step.sessionId_eq,
      step.activeBranchId_eq⟩, rfl⟩
  | forked follows record | switched follows record =>
    have := plain.1
    rw [record] at this
    cases this

theorem Step.sessionId_eq (h : Step fork r e q) {s' : MaterializedSessionState}
    (hs' : q.state = some s') :
    e.sessionId = s'.sessionId ∧ ∀ s, r.state = some s → s.sessionId = s'.sessionId := by
  cases h with
  | created empty =>
    cases hs'
    refine ⟨rfl, fun s hs => ?_⟩
    cases empty.symm.trans hs
  | unbranched follows _ _ step | onBranch follows _ _ step =>
    cases hs'
    refine ⟨follows.session.trans step.sessionId_eq.symm, fun s hs => ?_⟩
    cases hs.symm.trans follows.state
    exact step.sessionId_eq.symm
  | forked follows | switched follows =>
    cases hs'
    refine ⟨follows.session, fun s hs => ?_⟩
    cases hs.symm.trans follows.state
    rfl

namespace Accepted

theorem sessionId_eq (h : Accepted log r) (hs : r.state = some s) (he : e ∈ log) :
    e.sessionId = s.sessionId := by
  induction h using induct generalizing s with
  | nil => cases he
  | snoc before step after ih =>
    obtain ⟨session, same⟩ := step.sessionId_eq hs
    rcases List.mem_append.mp he with he | he
    · obtain ⟨s₀, hs₀⟩ := Option.ne_none_iff_exists'.mp
        (mt before.state_eq_none_iff.mp (List.ne_nil_of_mem he))
      exact (ih hs₀ he).trans (same s₀ hs₀)
    · rw [List.mem_singleton.mp he]
      exact session

/-- Accepted records of the active branch fold over the view. -/
theorem view_append (h : Accepted log r) (hs : r.state = some s)
    (after : Accepted (log ++ records) r') (plain : ∀ e ∈ records, Plain e) :
    ∃ s', Grown r s records r' s' := by
  induction records using List.reverseRecOn generalizing r' with
  | nil =>
    rw [List.append_nil] at after
    obtain rfl := h.eq after
    exact ⟨s, .refl hs⟩
  | append_singleton records e ih =>
    rw [← List.append_assoc] at after
    obtain ⟨r₁, q, before, step, rfl⟩ := snoc_iff.mp after
    obtain ⟨s₁, grown⟩ := ih before fun e he => plain e (List.mem_append_left _ he)
    obtain ⟨s₂, grown', -⟩ := step.grown grown.state (plain e (by simp))
    exact ⟨s₂, grown.trans grown'⟩

theorem snoc_of_recordStep (h : Accepted log r) (hs : r.state = some s)
    (chained : Chained s.sessionId s.activeBranchId s.tailSequence [e])
    (fresh : e.recordId ∉ log.map (·.recordId)) (step : RecordStep r s e q t) :
    ∃ r' s', Accepted (log ++ [e]) r' ∧ Grown r s [e] r' s' ∧ s'.tailSequence = e.sequence := by
  obtain ⟨session, scope, next, -⟩ := chained
  have plain : Plain e := ⟨step.isBranchRecord_eq_false, step.isSessionCreated_eq_false⟩
  have follows : Follows r s e := ⟨hs, mt h.mem_recordIds_iff.mp fresh, session, next⟩
  have accepted : ∃ q', Step (replayBranchSnapshot r) r e q' := by
    cases active : s.activeBranchId with
    | none => exact ⟨_, .unbranched follows (scope.trans active) active step⟩
    | some b =>
      obtain ⟨head, lookup, -⟩ := h.active_head hs active
      obtain ⟨summary, listed⟩ := exists_getElem?_of_mem (h.active_listed hs active)
      exact ⟨_, .onBranch follows (scope.trans active) active step lookup listed⟩
  obtain ⟨q', accepted⟩ := accepted
  obtain ⟨s', grown⟩ := accepted.grown hs plain
  exact ⟨q'.push e, s', snoc_iff.mpr ⟨r, q', h, accepted, rfl⟩, grown⟩

/-- Records that the view admits are accepted. -/
theorem append_of_admits (h : Accepted log r) (hs : r.state = some s)
    (chained : Chained s.sessionId s.activeBranchId s.tailSequence records)
    (nodup : (log ++ records).Pairwise fun a b => a.recordId ≠ b.recordId)
    (admits : (r.activeView s).AdmitsAll records) :
    ∃ r' s', Accepted (log ++ records) r' ∧ Grown r s records r' s' := by
  induction records generalizing log r s with
  | nil => exact ⟨r, s, by rwa [List.append_nil], .refl hs⟩
  | cons e records ih =>
    obtain ⟨session, scope, next, chained⟩ := chained
    obtain ⟨first, rest⟩ := admits
    obtain ⟨q, t, step⟩ := recordStep_of_admits first
    have fresh : e.recordId ∉ log.map (·.recordId) := by
      rw [List.mem_map]
      rintro ⟨e', he', same⟩
      exact (List.pairwise_append.mp nodup).2.2 e' he' e (by simp) same
    obtain ⟨r₁, s₁, accepted, grown, tail⟩ :=
      h.snoc_of_recordStep hs ⟨session, scope, next, trivial⟩ fresh step
    have rest' : (r₁.activeView s₁).AdmitsAll records := by
      rw [grown.view]
      exact rest
    have chained' : Chained s₁.sessionId s₁.activeBranchId s₁.tailSequence records := by
      rw [grown.sessionId, grown.activeBranchId, tail]
      exact chained
    rw [List.append_cons] at nodup
    obtain ⟨r₂, s₂, accepted', grown'⟩ := ih accepted grown.state chained' nodup rest'
    exact ⟨r₂, s₂, by rwa [List.append_cons], grown.trans grown'⟩

end Accepted

end SessionReducer

/-! ### Transactions without journal entries -/

theorem noteContext_eq_ok {t : SessionReducer}
    (step : SessionReducer.apply e r = .ok () t) (contexts : BTreeMap ApprovalId ApprovalContext) :
    ∃ contexts', noteContext e t contexts = .ok contexts' := by
  rw [noteContext]
  split
  case h_2 => exact ⟨contexts, rfl⟩
  case h_1 approvalId toolCallId expiresAt record =>
    obtain ⟨q, accepted, rfl⟩ := SessionReducer.apply_eq_ok.mp step
    obtain ⟨s, p, t, s', recordStep, state, projection⟩ :=
      accepted.recordStep ⟨by rw [record]; rfl, by rw [record]; rfl⟩
    have found : ∃ tool, s'.toolCalls[toolCallId]? = some tool := by
      have same : s'.toolCalls = t.toolCalls := congrArg toolCalls projection
      rw [same]
      cases recordStep with
      | @approvalRequested a t₀ expires tool record' =>
        obtain ⟨-, rfl, -⟩ := SessionRecord.approvalRequested.inj (record.symm.trans record')
        exact exists_getElem?_of_mem (mem_insert_iff.mpr (.inl rfl))
      | tool kind step => rw [record] at kind; rw [← kind] at step; cases step
      | message record' | toolResult record' | configuration record' | requested record'
      | approvalResolved record' | runInterrupted record' | runCancelled record'
      | compacted record' | checkpointed record' => cases record.symm.trans record'
    obtain ⟨tool, found⟩ := found
    have state' : (q.push e).state = some s' := state
    simp only [state', found]
    exact ⟨_, rfl⟩

theorem approvalContexts_eq_ok
    (h : SessionReducer.Accepted log r) : ∃ contexts, approvalContexts log = .ok contexts := by
  have loop (log : List RecordEnvelope) (r r' : SessionReducer)
      (run : Run (fun r e r' => SessionReducer.apply e r = .ok () r') r log r')
      (contexts : BTreeMap ApprovalId ApprovalContext) :
      ∃ contexts', contextsFrom log r contexts = .ok contexts' := by
    induction log generalizing r contexts with
    | nil => exact ⟨contexts, rfl⟩
    | cons e log ih =>
      obtain ⟨t, step, run⟩ := Run.cons_iff.mp run
      rw [contextsFrom_cons step]
      obtain ⟨contexts', noted⟩ := noteContext_eq_ok step contexts
      rw [noted]
      exact ih t run contexts'
  exact loop log _ r h ∅

theorem applyRecords_eq_ok {stored : StoredSession}
    (run : Run (fun r e r' => SessionReducer.apply e r = .ok () r') r records r') :
    applyRecords records { stored with reducer := r } = .ok () { stored with reducer := r' } := by
  induction records generalizing r with
  | nil =>
    rw [Run.nil_iff] at run
    rw [run]
    rfl
  | cons e records ih =>
    obtain ⟨t, step, run⟩ := Run.cons_iff.mp run
    have first : applyRecord e { stored with reducer := r } =
        .ok () { stored with reducer := t } := by
      simp [applyRecord, step]
    rw [applyRecords, bind_run, first]
    exact ih run

section Commit

variable {stored : StoredSession} {transaction : AppendTransaction} {existed : Bool}
  {grantIdInUse : GrantId → Bool}

/-- A transaction with accepted records and journals commits. -/
theorem StoredSession.Consistent.applyTransactionInPlace_eq_ok (h : stored.Consistent)
    {guarded : Option SessionSequence × Nat}
    (hguard : guardTransaction transaction stored existed grantIdInUse = .ok guarded)
    (accepted : SessionReducer.Accepted (stored.records ++ transaction.records) r)
    {artifacts : ArtifactState}
    (journals : ArtifactState.apply transaction.sessionId (stored.records ++ transaction.records)
      transaction.records transaction.approvalArtifacts transaction.grantEntries stored.artifacts =
        .ok () artifacts) :
    ∃ outcome stored', applyTransactionInPlace transaction existed grantIdInUse stored =
      .ok outcome stored' := by
  obtain ⟨base, before, run⟩ := append_iff.mp accepted
  obtain rfl := before.eq h.accepted
  have records : applyRecords transaction.records stored = .ok () { stored with reducer := r } :=
    applyRecords_eq_ok run
  have nonempty := records_ne_nil_of_validateExpectation (guardTransaction_eq_ok.mp hguard).2.1
  obtain ⟨state, hstate⟩ : ∃ state, r.state = some state :=
    Option.ne_none_iff_exists'.mp fun empty => nonempty (accepted.eq_nil_of_state empty)
  refine ⟨⟨guarded.1, state.tailSequence, state, guarded.2⟩,
    { records := stored.records ++ transaction.records
      approvalArtifacts := stored.approvalArtifacts ++ transaction.approvalArtifacts
      grantJournal := stored.grantJournal ++ transaction.grantEntries
      artifacts := artifacts
      journalRevision := guarded.2
      reducer := r }, ?_⟩
  simp only [applyTransactionInPlace, bind_run, get_run, hguard, check_ok, records, applyJournals,
    journals, modify_run, hstate, okOr, pure_run]

theorem StoredSession.Consistent.guardTransaction_eq_ok (h : stored.Consistent)
    (hs : stored.reducer.state = some s) (session : transaction.sessionId = s.sessionId)
    (expected : transaction.expectedSequence = some s.tailSequence)
    (nonempty : transaction.records ≠ [])
    (chained : Chained s.sessionId s.activeBranchId s.tailSequence transaction.records)
    (grants : validateGlobalGrantIds (some stored) transaction.grantEntries grantIdInUse = .ok ())
    {revision : Nat} (journals : nextJournalRevision stored transaction = .ok revision) :
    guardTransaction transaction stored true grantIdInUse =
      .ok (some s.tailSequence, revision) := by
  have existing : stored.records ≠ [] := fun empty => by
    have none := (state_eq_none_iff h.accepted).mpr empty
    rw [hs] at none
    cases none
  have hlast : stored.records.getLast? = some (stored.records.getLast existing) :=
    List.getLast?_eq_some_getLast existing
  have tail : (stored.records.getLast existing).sequence = s.tailSequence := Nat.succ.inj
    ((getLast?_sequence h.accepted hlast).trans
      (tailSequence_eq h.accepted hs).symm)
  obtain ⟨e, records, split⟩ := List.exists_cons_of_ne_nil nonempty
  have next := chained
  rw [split] at next
  refine TeaRs.guardTransaction_eq_ok.mpr ⟨?_, ?_, grants, ?_, journals⟩
  · have sameSession : transaction.records.any (·.sessionId != transaction.sessionId) = false := by
      rw [List.any_eq_false]
      intro e he
      simp [chained.sessionId_eq he, session]
    rw [validateTransactionShape, if_neg (by simp [nonempty]), sameSession]
    rfl
  · simp [validateExpectation, hlast, expected, tail, next.2.2.1, split]
  · simp [previousSequence, hs]

theorem ArtifactState.apply_nil {log records : List RecordEnvelope}
    (h : SessionReducer.Accepted log r) (sessionId : SessionId) (artifacts : ArtifactState) :
    ArtifactState.apply sessionId log records [] [] artifacts = .ok () artifacts := by
  obtain ⟨contexts, read⟩ := approvalContexts_eq_ok h
  simp only [ArtifactState.apply, bind_run, read, propagate, pure_run, applyApprovals, applyGrants,
    applyEntries]
  simp [ensure]

/-- The transaction appends, without journal entries, records that the active branch of a stored
session admits. -/
structure AppendTransaction.Fits (transaction : AppendTransaction) (stored : StoredSession)
    (s : MaterializedSessionState) : Prop where
  sessionId : transaction.sessionId = s.sessionId
  expected : transaction.expectedSequence = some s.tailSequence
  nonempty : transaction.records ≠ []
  chained : Chained s.sessionId s.activeBranchId s.tailSequence transaction.records
  nodup : (stored.records ++ transaction.records).Pairwise fun a b => a.recordId ≠ b.recordId
  admits : (stored.reducer.activeView s).AdmitsAll transaction.records
  approvals : transaction.approvalArtifacts = []
  grants : transaction.grantEntries = []

/-- Admitted records without journal entries commit. -/
theorem AppendTransaction.Fits.applyTransactionInPlace_eq_ok
    (fits : transaction.Fits stored s) (h : stored.Consistent)
    (hs : stored.reducer.state = some s) (bounded : stored.journalRevision < 2 ^ 64) :
    ∃ outcome stored', applyTransactionInPlace transaction true grantIdInUse stored =
      .ok outcome stored' := by
  obtain ⟨r, s', accepted, -⟩ :=
    append_of_admits h.accepted hs fits.chained fits.nodup fits.admits
  have revision : nextJournalRevision stored transaction = .ok stored.journalRevision := by
    have unchanged : checkedAdd stored.journalRevision 0 = some stored.journalRevision :=
      if_pos bounded
    have none : checkedAdd 0 0 = some 0 := rfl
    simp [nextJournalRevision, fits.approvals, fits.grants, none, unchanged]
  have unissued : validateGlobalGrantIds (some stored) transaction.grantEntries grantIdInUse =
      .ok () := by
    rw [fits.grants]
    rfl
  have journals : ArtifactState.apply transaction.sessionId (stored.records ++ transaction.records)
      transaction.records transaction.approvalArtifacts transaction.grantEntries stored.artifacts =
        .ok () stored.artifacts := by
    rw [fits.approvals, fits.grants]
    exact ArtifactState.apply_nil accepted _ _
  exact h.applyTransactionInPlace_eq_ok (h.guardTransaction_eq_ok hs fits.sessionId fits.expected
    fits.nonempty fits.chained unissued revision) accepted journals

end Commit

end TeaRs
