import TeaRs.Session.Authorization
import TeaRs.Session.Branching

/-!
# The transcript of a session

The messages a model sees are those of the active branch. A compaction replaces them by its summary,
and a branch brings back the messages of its fork point. Each result in a transcript should answer a
call that the same transcript declares, with the outcome the log records for the call.

## Main definitions

* `SessionReducer.recordsAfter`, `SessionReducer.messagesAfter`: what a history has after a record.
* `SessionReducer.Guarded`: every record of a log meets a condition in the state before it.
* `SessionReducer.Paired`: a transcript and the tool calls of its branch fit together.
* `SessionReducer.TranscriptPaired`: the results of a transcript answer its declarations.

## Main results

* `SessionReducer.compaction_keeps_iff`: a compaction keeps the messages after its cut point only if
  there are none.
* `SessionReducer.Accepted.projections`: what every record preserves holds of every branch, every
  fork point and the active state.
* `SessionReducer.transcript_paired`: results are paired when each request names a call that the
  transcript declares.
-/

namespace TeaRs

open BranchProjection ToolExecutionState BTreeMap List Option

/-- The tool call a result message answers, and its outcome. -/
structure ToolAnswer where
  toolCallId : ToolCallId
  toolName : String
  content : List ContentBlock
  isError : Bool
  error : Option ToolFailure
  deriving DecidableEq

/-- The answer of a tool-result message. -/
def CanonicalMessage.answer? : CanonicalMessage → Option ToolAnswer
  | .toolResult _ toolCallId toolName content isError error _ =>
    some { toolCallId, toolName, content, isError, error }
  | .user .. | .assistant .. => none

/-- Some message declares the call under the name. -/
def DeclaresCall (messages : List CanonicalMessage) (t : ToolCallId) (name : String) : Prop :=
  ∃ m ∈ messages, ∃ call ∈ m.declaredToolCalls, call.1 = t ∧ call.2.1 = name

instance (messages : List CanonicalMessage) (t : ToolCallId) (name : String) :
    Decidable (DeclaresCall messages t name) :=
  inferInstanceAs (Decidable (∃ m ∈ messages, ∃ call ∈ m.declaredToolCalls,
    call.1 = t ∧ call.2.1 = name))

namespace SessionReducer

open StateError

variable {r r' q : SessionReducer} {s t' : MaterializedSessionState} {e : RecordEnvelope}
variable {log H : List RecordEnvelope} {head : BranchSnapshot} {t : ToolCallId}

/-! ### What a compaction drops -/

/-- The message a record commits. -/
def committedMessage? : SessionRecord → Option CanonicalMessage
  | .messageCommitted m => some m
  | _ => none

/-- The records of a history after the one with the identity given. -/
def recordsAfter (id : RecordId) (H : List RecordEnvelope) : List RecordEnvelope :=
  (H.dropWhile fun e => e.recordId != id).tail

/-- The messages that a history commits after a record. -/
def messagesAfter (id : RecordId) (H : List RecordEnvelope) : List CanonicalMessage :=
  (recordsAfter id H).filterMap (committedMessage? ·.record)

theorem Accepted.mem_activeHistory_of_source (h : Accepted log r) (hs : r.state = some s)
    {id : RecordId} (source : r.sourceIsActive s id = true) :
    id ∈ r.activeHistory.map (·.recordId) := by
  cases active : s.activeBranchId with
  | none =>
    rw [sourceIsActive, active] at source
    rw [activeHistory_of_none hs active, h.records_eq]
    exact h.mem_recordIds_iff.mp (Std.ExtTreeSet.contains_iff_mem.mp source)
  | some b =>
    obtain ⟨head, lookup, -⟩ := h.active_head hs active
    rw [sourceIsActive, active] at source
    simp only [lookup] at source
    have known := (h.headInvariant.1 b head lookup).known id
      (Std.ExtTreeSet.contains_iff_mem.mp source)
    obtain ⟨x, hx, rfl⟩ := mem_map.mp known
    rw [activeHistory_of_some hs active lookup, h.records_eq]
    exact mem_map_of_mem (mem_filter.mpr ⟨hx, source⟩)

variable {fork : BranchId → RecordId → Except SessionReplayError (Option BranchSnapshot)}
  {P : BranchProjection → Prop}

/-- An accepted compaction leaves the summary alone in the transcript. -/
theorem Step.compacted_messages
    (h : Step fork r e q) {summary : CanonicalMessage} {through : RecordId}
    (record : e.record = .sessionCompacted summary through) :
    ∃ s s', r.state = some s ∧ r.sourceIsActive s through = true ∧ q.state = some s' ∧
      s'.messages = [summary] := by
  have inner {s t' : MaterializedSessionState} {q' : SessionReducer}
      (step : RecordStep r s e q' t') :
      r.sourceIsActive s through = true ∧ t'.messages = [summary] := by
    cases step with
    | compacted record' _ source =>
      cases record.symm.trans record'
      exact ⟨source, rfl⟩
    | tool kind step =>
      cases kind.symm.trans record
      cases step
    | _ => simp_all
  cases h with
  | created _ _ _ record' | forked _ record' | switched _ record' => cases record.symm.trans record'
  | unbranched follows _ _ step | onBranch follows _ _ step =>
    exact ⟨_, _, follows.state, (inner step).1, rfl, (inner step).2⟩

/-- After an accepted compaction the transcript is the summary followed by the messages committed
after the cut point, if and only if no message was committed after it. -/
theorem compaction_keeps_iff {summary : CanonicalMessage} {through : RecordId}
    (accepted : Accepted log r) (step : apply e r = .ok () r')
    (record : e.record = .sessionCompacted summary through) :
    through ∈ r.activeHistory.map (·.recordId) ∧ ∃ s', r'.state = some s' ∧
      (s'.messages = summary :: messagesAfter through r.activeHistory ↔
        ∀ x ∈ recordsAfter through r.activeHistory, committedMessage? x.record = none) := by
  obtain ⟨q, inner, rfl⟩ := apply_eq_ok.mp step
  obtain ⟨s, s', hs, source, hs', messages⟩ := inner.compacted_messages record
  refine ⟨accepted.mem_activeHistory_of_source hs source, s', hs', ?_⟩
  rw [messages, cons_eq_cons, eq_comm (a := []), messagesAfter, filterMap_eq_nil_iff]
  exact and_iff_right rfl

/-- A session with two messages. -/
def twoMessages : List RecordEnvelope :=
  [numberedCreation,
    numbered 1 (some ⟨0⟩) (.messageCommitted (.user ⟨0⟩ [.text "first"] 1)) rfl,
    numbered 2 (some ⟨0⟩) (.messageCommitted (.user ⟨1⟩ [.text "second"] 2)) rfl]

/-- The compaction of `twoMessages` through the record given. -/
def compactionThrough (through : RecordId) : RecordEnvelope :=
  numbered 3 (some ⟨0⟩)
    (.sessionCompacted (.assistant ⟨2⟩ [.text "summary"] .completed 3) through) rfl

theorem accepted_twoMessages : Accepted twoMessages (reducerOf twoMessages) :=
  accepted_reducerOf (by decide +kernel)

/-- A compaction through the last record keeps what there is to keep. -/
theorem compaction_keeps_iff_tail : ∃ r' s', apply (compactionThrough ⟨2⟩) (reducerOf twoMessages) =
    .ok () r' ∧ r'.state = some s' ∧ s'.messages = .assistant ⟨2⟩ [.text "summary"] .completed 3 ::
      messagesAfter ⟨2⟩ (reducerOf twoMessages).activeHistory := by
  have step : resultError? (apply (compactionThrough ⟨2⟩) (reducerOf twoMessages)) = none := by
    decide +kernel
  have nothing : recordsAfter ⟨2⟩ (reducerOf twoMessages).activeHistory = [] := by decide +kernel
  obtain ⟨-, s', hs', keeps⟩ :=
    compaction_keeps_iff accepted_twoMessages (eq_ok_of_resultError? step) rfl
  exact ⟨_, s', eq_ok_of_resultError? step, hs', keeps.mpr (by simp [nothing])⟩

/-- A compaction through the first message drops the second one. -/
theorem compaction_drops_message : ∃ r' s', apply (compactionThrough ⟨1⟩) (reducerOf twoMessages) =
    .ok () r' ∧ r'.state = some s' ∧ s'.messages ≠ .assistant ⟨2⟩ [.text "summary"] .completed 3 ::
      messagesAfter ⟨1⟩ (reducerOf twoMessages).activeHistory := by
  have step : resultError? (apply (compactionThrough ⟨1⟩) (reducerOf twoMessages)) = none := by
    decide +kernel
  have dropped : (resultState (apply (compactionThrough ⟨1⟩) (reducerOf twoMessages))).state.any
      (fun s' => decide (s'.messages ≠ .assistant ⟨2⟩ [.text "summary"] .completed 3 ::
        messagesAfter ⟨1⟩ (reducerOf twoMessages).activeHistory)) = true := by decide +kernel
  obtain ⟨s', hs', messages⟩ := (any_eq_true _ _).mp dropped
  exact ⟨_, s', eq_ok_of_resultError? step, hs', of_decide_eq_true messages⟩

/-! ### Properties of every projection -/

/-- Every record of the log meets the condition in the state before it. -/
def Guarded (C : MaterializedSessionState → RecordEnvelope → Prop) (log : List RecordEnvelope) :
    Prop :=
  ∀ l e r s, l ++ [e] <+: log → Accepted l r → r.state = some s → C s e

theorem guarded_of_forall {C : MaterializedSessionState → RecordEnvelope → Prop}
    (h : ∀ k : Fin log.length, ∀ s ∈ (reducerOf (log.take k)).state, C s (log.get k)) :
    Guarded C log := by
  rintro l e r s ⟨rest, rfl⟩ accepted hs
  have inside : l.length < (l ++ [e] ++ rest).length := by simp
  have holds := h ⟨l.length, inside⟩
  have front : (l ++ [e] ++ rest).take l.length = l := by simp
  have here : (l ++ [e] ++ rest).get ⟨l.length, inside⟩ = e := by simp
  have state : reducerOf l = r := by rw [reducerOf, accepted_iff.mp accepted]; rfl
  rw [here, front, state] at holds
  exact holds s hs

section

variable
  (root : ∀ profileId metadata, P (capture (createdState e profileId metadata)))
  (heads : ∀ (b : BranchId) head, r.branchHeads[b]? = some head → P head.projection)
  (record : ∀ s q t, r.state = some s → RecordStep r s e q t → P (capture t))

include root heads record

theorem Accepted.projection_tip (before : Accepted log r)
    (step : Step (replayBranchSnapshot r) r e q) (tip : tipSnapshot q e = some head)
    (tips : ∀ id snapshot, TipAt log id snapshot → P snapshot.projection) : P head.projection := by
  cases step with
  | created empty _ _ created =>
    rw [tipSnapshot_created created, map_eq_some_iff] at tip
    obtain ⟨_, -, rfl⟩ := tip
    exact root _ _
  | unbranched follows scope active step =>
    rw [tipSnapshot, tipBranch_of_record step.isBranchRecord_eq_false] at tip
    simp [sealed, step.activeBranchId_eq.trans active] at tip
  | onBranch follows scope active step =>
    have active' := step.activeBranchId_eq.trans active
    have hb := step.isBranchRecord_eq_false
    obtain rfl := some.inj ((tipSnapshot_onBranch hb (by exact active')).symm.trans tip)
    exact record _ _ _ follows.state step
  | @forked _ _ _ _ _ snapshot follows created _ _ _ found =>
    rw [tipSnapshot_withHead (.inl ⟨_, _, created⟩)] at tip
    obtain rfl := some.inj tip
    exact tips _ snapshot (before.tipAt_of_replayBranchSnapshot found)
  | @switched _ b old _ follows activates lookup =>
    rw [tipSnapshot_withHead (.inr activates)] at tip
    obtain rfl := some.inj tip
    exact heads b old lookup

theorem Step.projection_state (step : Step fork r e q)
    (state : ∀ s, r.state = some s → P (capture s)) (hs : q.state = some s) :
    P (capture s) := by
  cases step with
  | created =>
    cases hs
    exact root _ _
  | @unbranched s₀ q₀ t₀ follows _ _ step | @onBranch s₀ q₀ t₀ _ _ _ follows _ _ step =>
    cases hs
    exact record s₀ q₀ t₀ follows.state step
  | @forked s₀ _ _ _ _ _ follows =>
    cases hs
    exact state s₀ follows.state
  | @switched _ b head _ _ _ lookup =>
    cases hs
    exact heads b head lookup

end

/-- What holds of a new session and is preserved by every record of the log holds of every branch,
of every fork point and of the active state. -/
theorem Accepted.projections (h : Accepted log r) (root : ∀ e profileId metadata,
      P (capture (createdState e profileId metadata)))
    (record : ∀ l e r s q t, l ++ [e] <+: log → Accepted l r → r.state = some s →
      RecordStep r s e q t → P (capture s) → P (capture t)) :
    (∀ (b : BranchId) head, r.branchHeads[b]? = some head → P head.projection) ∧
      (∀ id snapshot, TipAt log id snapshot → P snapshot.projection) ∧
      ∀ s, r.state = some s → P (capture s) := by
  induction h using induct with
  | nil =>
    refine ⟨fun b head lookup => ?_, fun id snapshot tip => absurd tip.mem (by simp), ?_⟩
    · simp [new] at lookup
    · rintro s ⟨⟩
  | @snoc log r q e before step after ih =>
    obtain ⟨heads, tips, state⟩ := ih fun l e r s q t inside =>
      record l e r s q t (inside.trans (prefix_append _ _))
    have last : ∀ s q t, r.state = some s → RecordStep r s e q t →
        P (capture t) := fun s q t hs inner =>
      record log e r s q t prefix_rfl before hs inner (state s hs)
    have tip : ∀ head, tipSnapshot q e = some head → P head.projection := fun head tip =>
      before.projection_tip (root e) heads last step tip tips
    refine ⟨fun b head lookup => ?_, fun id snapshot found => ?_, fun s hs => ?_⟩
    · rcases step.head_cases lookup with old | new
      · exact heads b head old
      · exact tip head (tipSnapshot_of_branch new lookup)
    · rcases (TipAt.snoc_iff after).mp found with old | ⟨-, new⟩
      · exact tips id snapshot old
      · exact tip snapshot new
    · exact step.projection_state (root e) heads last state hs

/-! ### Results answer declarations -/

/-- A transcript and the tool calls of its branch fit together: a result comes after a declaration
of its call, repeats the outcome of the call and is the only one for it, and a call without a result
is declared. -/
structure Paired (messages : List CanonicalMessage)
    (toolCalls : BTreeMap ToolCallId ToolCallState) : Prop where
  declared : ∀ before m answer, before ++ [m] <+: messages → m.answer? = some answer →
    DeclaresCall before answer.toolCallId answer.toolName
  answered : ∀ m ∈ messages, ∀ answer, m.answer? = some answer → ∃ tool presentation,
    toolCalls[answer.toolCallId]? = some tool ∧ tool.resultMessageId.isSome = true ∧
      tool.execution = .finished answer.isError answer.content answer.error presentation
  distinct : ((messages.filterMap CanonicalMessage.answer?).map (·.toolCallId)).Nodup
  pending : ∀ (t : ToolCallId) tool, toolCalls[t]? = some tool → tool.resultMessageId = none →
    DeclaresCall messages t tool.toolName

theorem declaresCall_append {messages : List CanonicalMessage} {name : String}
    (h : DeclaresCall messages t name) (more : List CanonicalMessage) :
    DeclaresCall (messages ++ more) t name := by
  obtain ⟨m, hm, call⟩ := h
  exact ⟨m, mem_append_left _ hm, call⟩

variable {toolCalls : BTreeMap ToolCallId ToolCallState} {tool : ToolCallState}

namespace Paired

variable {messages : List CanonicalMessage}
variable {m : CanonicalMessage} {tool' : ToolCallState}

theorem empty : Paired [] ∅ where
  declared := fun before m _ inside => absurd (prefix_nil.mp inside) (by simp)
  answered := fun m hm => absurd hm (by simp)
  distinct := nodup_nil
  pending := fun t tool lookup => absurd lookup (by simp)

variable (h : Paired messages toolCalls)

include h

theorem snoc_message (silent : m.answer? = none) : Paired (messages ++ [m]) toolCalls where
  declared := by
    intro before m' answer inside hanswer
    rcases prefix_concat_iff.mp inside with heq | old
    · obtain ⟨-, rfl⟩ := append_singleton_inj.mp heq
      cases silent.symm.trans hanswer
    · exact h.declared before m' answer old hanswer
  answered := by
    intro m' hm' answer hanswer
    rcases mem_append.mp hm' with old | new
    · exact h.answered m' old answer hanswer
    · obtain rfl := mem_singleton.mp new
      cases silent.symm.trans hanswer
  distinct := by
    rw [filterMap_append, filterMap_cons_none silent]
    simpa using h.distinct
  pending := fun t tool lookup none => declaresCall_append (h.pending t tool lookup none) [m]

/-- A call that changes without losing its name, its result or its outcome. -/
theorem insert_tool (lookup : toolCalls[t]? = some tool) (name : tool'.toolName = tool.toolName)
    (result : tool'.resultMessageId = tool.resultMessageId)
    (outcome : tool.execution.isFinished = true → tool'.execution = tool.execution) :
    Paired messages (toolCalls.insert t tool') where
  declared := h.declared
  distinct := h.distinct
  answered := by
    intro m hm answer hanswer
    obtain ⟨old, presentation, found, some, finished⟩ := h.answered m hm answer hanswer
    by_cases ht : answer.toolCallId = t
    · subst ht
      obtain rfl := Option.some.inj (lookup.symm.trans found)
      refine ⟨tool', presentation, by simp, result ▸ some, ?_⟩
      rw [outcome (by rw [finished]; rfl), finished]
    · exact ⟨old, presentation, (getElem?_insert_of_ne ht).trans found, some, finished⟩
  pending := by
    intro u new found none
    by_cases hu : u = t
    · subst hu
      obtain rfl : tool' = new := by simpa using found
      rw [name]
      exact h.pending u tool lookup (result ▸ none)
    · exact h.pending u new ((getElem?_insert_of_ne hu).symm.trans found) none

theorem insert_new (absent : t ∉ toolCalls) (declared : DeclaresCall messages t tool.toolName) :
    Paired messages (toolCalls.insert t tool) where
  declared := h.declared
  distinct := h.distinct
  answered := by
    intro m hm answer hanswer
    obtain ⟨old, presentation, found, rest⟩ := h.answered m hm answer hanswer
    have hne : answer.toolCallId ≠ t := by
      rintro rfl
      exact absent (mem_of_getElem? found)
    exact ⟨old, presentation, (getElem?_insert_of_ne hne).trans found, rest⟩
  pending := by
    intro u new found none
    by_cases hu : u = t
    · subst hu
      obtain rfl : tool = new := by simpa using found
      exact declared
    · exact h.pending u new ((getElem?_insert_of_ne hu).symm.trans found) none

theorem snoc_result {id : MessageId} {name : String}
    {content : List ContentBlock} {isError : Bool} {error : Option ToolFailure}
    {at_ : ProtocolTimestamp} (lookup : toolCalls[t]? = some tool)
    (pending : tool.resultMessageId = none)
    (terminal : tool.matchesResult name content isError error = true) :
    Paired (messages ++ [.toolResult id t name content isError error at_])
      (toolCalls.insert t (tool.commitResult id)) := by
  obtain ⟨presentation, outcome, rfl⟩ : ∃ presentation,
      tool.execution = .finished isError content error presentation ∧ tool.toolName = name := by
    rw [ToolCallState.matchesResult] at terminal
    split at terminal
    · next execution =>
      simp only [Bool.and_eq_true, beq_iff_eq] at terminal
      obtain ⟨⟨⟨rfl, rfl⟩, rfl⟩, rfl⟩ := terminal
      exact ⟨_, execution, rfl⟩
    all_goals cases terminal
  have unanswered : ∀ m ∈ messages, ∀ answer, m.answer? = some answer →
      answer.toolCallId ≠ t := by
    rintro m hm answer hanswer rfl
    obtain ⟨_, _, found, some, -⟩ := h.answered m hm answer hanswer
    obtain rfl := Option.some.inj (lookup.symm.trans found)
    simp [pending] at some
  refine ⟨?_, ?_, ?_, ?_⟩
  · intro before m answer inside hanswer
    rcases prefix_concat_iff.mp inside with heq | old
    · obtain ⟨rfl, rfl⟩ := append_singleton_inj.mp heq
      obtain rfl := some.inj hanswer
      exact h.pending t tool lookup pending
    · exact h.declared before m answer old hanswer
  · intro m hm answer hanswer
    rcases mem_append.mp hm with old | new
    · obtain ⟨tool₀, presentation₀, found, rest⟩ := h.answered m old answer hanswer
      have hne := unanswered m old answer hanswer
      exact ⟨tool₀, presentation₀, (getElem?_insert_of_ne hne).trans found, rest⟩
    · obtain rfl := mem_singleton.mp new
      obtain rfl := some.inj hanswer
      exact ⟨tool.commitResult id, presentation, by simp, rfl, outcome⟩
  · rw [filterMap_append, map_append, nodup_append]
    refine ⟨h.distinct, by simp [CanonicalMessage.answer?], ?_⟩
    intro a ha b hb
    obtain ⟨answer, hanswer, rfl⟩ := mem_map.mp ha
    obtain ⟨m, hm, hanswer⟩ := mem_filterMap.mp hanswer
    obtain rfl : b = t := by simpa [CanonicalMessage.answer?] using hb
    exact unanswered m hm answer hanswer
  · intro u new found none
    by_cases hu : u = t
    · subst hu
      obtain rfl : tool.commitResult id = new := by simpa using found
      cases none
    · have old := (getElem?_insert_of_ne hu).symm.trans found
      exact declaresCall_append (h.pending u new old none) _

end Paired

/-- The calls a record requests. -/
def requestedCall? : SessionRecord → Option (ToolCallId × String)
  | .toolCallRequested t name _ => some (t, name)
  | _ => none

/-- A record that compacts the session. -/
def isSessionCompacted : SessionRecord → Bool
  | .sessionCompacted .. => true
  | _ => false

/-- A compaction happens only when nothing is pending. -/
def CompactsSettled (s : MaterializedSessionState) (e : RecordEnvelope) : Prop :=
  isSessionCompacted e.record = true → s.validateNewRunState = .ok ()

instance (s : MaterializedSessionState) (e : RecordEnvelope) : Decidable (CompactsSettled s e) :=
  inferInstanceAs (Decidable (isSessionCompacted e.record = true → s.validateNewRunState = .ok ()))

/-- A requested call is declared by the active transcript, under the requested name. -/
def RequestsDeclared (s : MaterializedSessionState) (e : RecordEnvelope) : Prop :=
  ∀ call ∈ requestedCall? e.record, DeclaresCall s.messages call.1 call.2

instance (s : MaterializedSessionState) (e : RecordEnvelope) : Decidable (RequestsDeclared s e) :=
  inferInstanceAs (Decidable (∀ call ∈ requestedCall? e.record,
    DeclaresCall s.messages call.1 call.2))

theorem answered_of_validateNewRunState (h : s.validateNewRunState = .ok ()) {tool : ToolCallState}
    (lookup : s.toolCalls[t]? = some tool) : tool.resultMessageId ≠ none := by
  intro none
  rw [MaterializedSessionState.validateNewRunState] at h
  split_ifs at h with approval incomplete
  refine incomplete (any_eq_true.mpr ⟨tool, mem_valueList.mpr ⟨t, lookup⟩, ?_⟩)
  rw [none]
  rfl

theorem not_finished_of_unsettled {tool : ToolCallState} {isError : Bool}
    (h : tool.execution.isStarted = true ∨ tool.deniedWithoutExecution isError = true) :
    tool.execution.isFinished = false := by
  rcases h with started | denied
  · obtain ⟨target, idempotency, execution⟩ := isStarted_iff.mp started
    rw [execution]
    rfl
  · rw [ToolCallState.deniedWithoutExecution, Bool.and_eq_true, Bool.and_eq_true,
      isNotStarted_iff] at denied
    rw [denied.1.1]
    rfl

theorem Paired.recordStep (h : Paired s.messages s.toolCalls) (step : RecordStep r s e q t')
    (compacts : CompactsSettled s e) (requests : RequestsDeclared s e) :
    Paired t'.messages t'.toolCalls := by
  cases step with
  | @message m record fresh declares notResult =>
    refine h.snoc_message ?_
    cases m with
    | toolResult => cases notResult
    | user | assistant => rfl
  | toolResult record fresh lookup pending terminal => exact h.snoc_result lookup pending terminal
  | requested record visible declared fresh absent =>
    refine h.insert_new absent (requests (_, _) ?_)
    rw [record]
    rfl
  | tool kind step lookup =>
    cases step with
    | policy undecided => exact h.insert_tool lookup rfl rfl fun _ => rfl
    | started authorized fresh =>
      refine h.insert_tool lookup rfl rfl fun finished => ?_
      rw [fresh] at finished
      cases finished
    | finished unsettled =>
      refine h.insert_tool lookup rfl rfl fun finished => ?_
      rw [not_finished_of_unsettled unsettled] at finished
      cases finished
    | interrupted started =>
      obtain ⟨target, idempotency, execution⟩ := isStarted_iff.mp started
      refine h.insert_tool lookup ?_ ?_ fun finished => ?_
      · rw [ToolCallState.interrupt, execution]
      · rw [ToolCallState.interrupt, execution]
      · rw [execution] at finished
        cases finished
  | approvalRequested record fresh lookup | approvalResolved record found begun live lookup =>
    exact h.insert_tool lookup rfl rfl fun _ => rfl
  | @compacted summary through record role source fresh =>
    have settled := compacts (by rw [record]; rfl)
    have silent : summary.answer? = none := by
      cases summary with
      | assistant => rfl
      | user | toolResult => cases role
    refine ⟨?_, ?_, ?_, ?_⟩
    · intro before m answer inside hanswer
      obtain rfl : m = summary := mem_singleton.mp (inside.subset (by simp))
      cases silent.symm.trans hanswer
    · intro m hm answer hanswer
      obtain rfl := mem_singleton.mp hm
      cases silent.symm.trans hanswer
    · simp [MaterializedSessionState.setCompaction, silent]
    · intro t tool lookup none
      exact absurd none (answered_of_validateNewRunState settled lookup)
  | configuration | runInterrupted | runCancelled | checkpointed => exact h

/-! ### Outcomes are recorded -/

/-- The call has finished with the outcome given. -/
def FinishedAs (toolCalls : BTreeMap ToolCallId ToolCallState) (t : ToolCallId) (isError : Bool)
    (content : List ContentBlock) (error : Option ToolFailure)
    (presentation : Option ToolPresentation) : Prop :=
  ∃ tool, toolCalls[t]? = some tool ∧
    tool.execution = .finished isError content error presentation

section Outcome

variable {isError : Bool} {content : List ContentBlock} {error : Option ToolFailure}
variable {presentation : Option ToolPresentation} {u : ToolCallId}

theorem finishedAs_insert :
    FinishedAs (toolCalls.insert u tool) t isError content error presentation ↔
      if t = u then tool.execution = .finished isError content error presentation
      else FinishedAs toolCalls t isError content error presentation := by
  rw [FinishedAs, getElem?_insert_eq]
  split <;> simp [FinishedAs]

theorem finishedAs_insert_same {tool' : ToolCallState} (lookup : toolCalls[u]? = some tool)
    (same : tool'.execution = tool.execution ∨
      tool.execution.isFinished = false ∧ tool'.execution.isFinished = false) :
    FinishedAs (toolCalls.insert u tool') t isError content error presentation ↔
      FinishedAs toolCalls t isError content error presentation := by
  rw [finishedAs_insert]
  by_cases ht : t = u
  · subst ht
    rw [if_pos rfl]
    simp only [FinishedAs, lookup, some.injEq, exists_eq_left']
    rcases same with same | ⟨old, new⟩
    · rw [same]
    · constructor <;> intro h
      · simp [h, isFinished] at new
      · simp [h, isFinished] at old
  · rw [if_neg ht]

theorem RecordStep.finishedAs_iff (h : RecordStep r s e q t') :
    FinishedAs t'.toolCalls t isError content error presentation ↔
      FinishedAs s.toolCalls t isError content error presentation ∨
        e.record = .toolExecutionFinished t isError content error presentation := by
  have other (kept : FinishedAs t'.toolCalls t isError content error presentation ↔
      FinishedAs s.toolCalls t isError content error presentation)
      (record : e.record ≠ .toolExecutionFinished t isError content error presentation) :
      FinishedAs t'.toolCalls t isError content error presentation ↔
        FinishedAs s.toolCalls t isError content error presentation ∨
          e.record = .toolExecutionFinished t isError content error presentation := by
    rw [kept, or_iff_left record]
  cases h with
  | toolResult record fresh lookup | approvalRequested record fresh lookup
  | approvalResolved record found begun live lookup =>
    exact other (finishedAs_insert_same lookup (.inl rfl)) (by simp [record])
  | @requested u name arguments record visible declared fresh absent =>
    refine other (finishedAs_insert.trans ?_) (by simp [record])
    by_cases ht : t = u
    · subst ht
      simp [FinishedAs, newToolCall, getElem?_eq_none_iff_notMem.mpr absent]
    · rw [if_neg ht]
  | @tool _ u tool tool' kind step lookup =>
    cases step with
    | policy => exact other (finishedAs_insert_same lookup (.inl rfl)) (by simp [kind])
    | started authorized fresh =>
      have idle : tool.execution.isFinished = false := by rw [fresh]; rfl
      exact other (finishedAs_insert_same lookup (.inr ⟨idle, rfl⟩)) (by simp [kind])
    | finished unsettled =>
      rw [kind, MaterializedSessionState.withTool, finishedAs_insert]
      by_cases ht : t = u
      · subst ht
        have running := not_finished_of_unsettled unsettled
        have unfinished : ¬FinishedAs s.toolCalls t isError content error presentation := by
          rintro ⟨_, found, finished⟩
          obtain rfl := some.inj (lookup.symm.trans found)
          simp [finished, isFinished] at running
        simp [unfinished, ToolCallState.finish]
      · simp [ht, Ne.symm ht]
    | @interrupted _ reason _ started =>
      obtain ⟨target, idempotency, execution⟩ := isStarted_iff.mp started
      have running : tool.execution.isFinished = false := by rw [execution]; rfl
      have stopped : (tool.interrupt reason).execution.isFinished = false := by
        rw [ToolCallState.interrupt, execution]
        rfl
      exact other (finishedAs_insert_same lookup (.inr ⟨running, stopped⟩)) (by simp [kind])
  | message record | configuration record | runInterrupted record | runCancelled record
  | compacted record | checkpointed record => exact other Iff.rfl (by simp [record])

theorem Lineage.finishedAs_iff {p : BranchProjection} (h : Lineage H p) :
    FinishedAs p.toolCalls t isError content error presentation ↔
      ∃ x ∈ H, x.record = .toolExecutionFinished t isError content error presentation := by
  induction h with
  | root record =>
    simp [FinishedAs, capture, createdState, newState, record]
  | record accepted state lineage step ih =>
    simp only [mem_append, or_and_right, exists_or, ← ih, mem_singleton, exists_eq_left]
    exact step.finishedAs_iff
  | @branch H p e lineage record ih =>
    simp only [mem_append, or_and_right, exists_or, ← ih]
    refine (or_iff_left ?_).symm
    rintro ⟨x, hx, finished⟩
    obtain rfl := mem_singleton.mp hx
    rw [finished] at record
    cases record

end Outcome

/-- Each result of the transcript answers a call that an earlier message of the transcript declares
under the same name, with the outcome of the one finish record of the call in the history, and no
call is answered twice. -/
structure TranscriptPaired (H : List RecordEnvelope) (messages : List CanonicalMessage) : Prop where
  declared : ∀ before m answer, before ++ [m] <+: messages → m.answer? = some answer →
    DeclaresCall before answer.toolCallId answer.toolName
  recorded : ∀ m ∈ messages, ∀ answer, m.answer? = some answer → ∃ x ∈ H, ∃ presentation,
    x.record = .toolExecutionFinished answer.toolCallId answer.isError answer.content answer.error
      presentation
  unique : ∀ m ∈ messages, ∀ answer, m.answer? = some answer → ∀ x ∈ H,
    ∀ isError content error presentation,
      x.record = .toolExecutionFinished answer.toolCallId isError content error presentation →
        isError = answer.isError ∧ content = answer.content ∧ error = answer.error
  distinct : ((messages.filterMap CanonicalMessage.answer?).map (·.toolCallId)).Nodup

/-- A log whose records keep the transcript and the tool calls together has a paired transcript. -/
theorem Accepted.transcriptPaired (accepted : Accepted log r) (hs : r.state = some s)
    (conditions : ∀ l e r s q t, l ++ [e] <+: log → Accepted l r → r.state = some s →
      RecordStep r s e q t → CompactsSettled s e ∧ RequestsDeclared s e) :
    TranscriptPaired r.activeHistory s.messages := by
  have paired : Paired s.messages s.toolCalls :=
    (accepted.projections (P := fun p => Paired p.messages p.toolCalls) (fun _ _ _ => .empty)
      fun l e r s q t inside before hs step h => h.recordStep step
        (conditions l e r s q t inside before hs step).1
        (conditions l e r s q t inside before hs step).2).2.2 s hs
  have lineage := accepted.lineage_active hs
  refine ⟨paired.declared, ?_, ?_, paired.distinct⟩
  · intro m hm answer hanswer
    obtain ⟨tool, presentation, lookup, -, finished⟩ := paired.answered m hm answer hanswer
    obtain ⟨x, hx, record⟩ := lineage.finishedAs_iff.mp ⟨tool, lookup, finished⟩
    exact ⟨x, hx, presentation, record⟩
  · intro m hm answer hanswer x hx isError content error presentation record
    obtain ⟨tool, _, lookup, -, finished⟩ := paired.answered m hm answer hanswer
    obtain ⟨tool', lookup', finished'⟩ := lineage.finishedAs_iff.mpr ⟨x, hx, record⟩
    cases lookup.symm.trans lookup'
    cases finished.symm.trans finished'
    exact ⟨rfl, rfl, rfl⟩

/-- In a log that compacts settled sessions only and requests only calls that the active transcript
declares under the requested name, the active transcript is paired. -/
theorem transcript_paired (accepted : Accepted log r) (hs : r.state = some s)
    (compacts : Guarded CompactsSettled log) (requests : Guarded RequestsDeclared log) :
    TranscriptPaired r.activeHistory s.messages :=
  accepted.transcriptPaired hs fun l e r s _ _ inside before hs _ =>
    ⟨compacts l e r s inside before hs, requests l e r s inside before hs⟩

/-- The records of a requested call that is denied and answered, from the number given on. -/
def deniedCall (n : Nat) (branchId : Option BranchId) : List RecordEnvelope :=
  [readRequested n branchId,
    readDecided (n + 1) branchId .deny,
    numbered (n + 2) branchId (.toolExecutionFinished ⟨0⟩ true [.text "denied"]
      (some ⟨"policy_denied", "denied", by decide +kernel⟩) none) rfl,
    numbered (n + 3) branchId (.messageCommitted (.toolResult ⟨2⟩ ⟨0⟩ "read" [.text "denied"] true
      (some ⟨"policy_denied", "denied", by decide +kernel⟩) 0)) rfl]

/-- A call is declared, requested, denied and answered. -/
def answeredLog : List RecordEnvelope :=
  [numberedCreation, readDeclared 1 (some ⟨0⟩)] ++
    deniedCall 2 (some ⟨0⟩)

/-- The answer of `answeredLog` is paired with the declaration. -/
theorem transcript_paired_answeredLog : ∃ s, (reducerOf answeredLog).state = some s ∧
    s.messages.length = 2 ∧ TranscriptPaired (reducerOf answeredLog).activeHistory s.messages := by
  have state : (reducerOf answeredLog).state.any (fun s => decide (s.messages.length = 2)) =
      true := by decide +kernel
  obtain ⟨s, hs, messages⟩ := (any_eq_true _ _).mp state
  have accepted : Accepted answeredLog (reducerOf answeredLog) :=
    accepted_reducerOf (by decide +kernel)
  refine ⟨s, hs, of_decide_eq_true messages, transcript_paired accepted hs ?_ ?_⟩
  · exact guarded_of_forall (by decide +kernel)
  · exact guarded_of_forall (by decide +kernel)

/-- A session without branches that is compacted between the declaration of a call and its
request. -/
def droppedLog : List RecordEnvelope :=
  [unbranchedCreation,
    readDeclared 1 none,
    numbered 2 none (.sessionCompacted (.assistant ⟨1⟩ [.text "summary"] .completed 2) ⟨1⟩) rfl] ++
    deniedCall 3 none

/-- The answer of `droppedLog` has no declaration in its transcript. -/
theorem transcript_unpaired : Accepted droppedLog (reducerOf droppedLog) ∧
    Guarded CompactsSettled droppedLog ∧ ∃ s, (reducerOf droppedLog).state = some s ∧
      ¬TranscriptPaired (reducerOf droppedLog).activeHistory s.messages := by
  refine ⟨accepted_reducerOf (by decide +kernel), guarded_of_forall (by decide +kernel), ?_⟩
  have state : (reducerOf droppedLog).state.any (fun s => decide (∃ m ∈ s.messages.drop 1,
      s.messages = s.messages.take 1 ++ [m] ∧ m.answer?.any (fun answer =>
        decide (¬DeclaresCall (s.messages.take 1) answer.toolCallId answer.toolName)) = true)) =
      true := by decide +kernel
  obtain ⟨s, hs, undeclared⟩ := (any_eq_true _ _).mp state
  obtain ⟨m, -, messages, hanswer⟩ := of_decide_eq_true undeclared
  obtain ⟨answer, hanswer, undeclared⟩ := (any_eq_true _ _).mp hanswer
  refine ⟨s, hs, fun paired => of_decide_eq_true undeclared ?_⟩
  exact paired.declared _ m answer ⟨[], by rw [← messages, append_nil]⟩ hanswer

/-! ### Requests on a branch -/

end SessionReducer

end TeaRs
