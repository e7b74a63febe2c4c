import TeaRs.Session.Authorization
import TeaRs.Session.Transcript

/-!
# The representation invariant of the reducer

The reducer keeps its identity sets, the table of branch heads and the materialized state in
separate collections, and each record updates several of them. The facts that tie them together are
proved for one record and then for every accepted log: those about one branch through
`SessionReducer.Accepted.projections`, so that they also hold of a branch that is forked from an
older record or that is left and entered again.

## Main definitions

* `SessionRecord.transcriptMessage?`: the message that a record adds to a transcript.
* `BranchProjection.Awaits`: a tool call of a branch waits for the answer to an approval.
* `SessionReducer.Represents`: the representation invariant.

## Main results

* `SessionReducer.Accepted.approvalsExact`: the pending approvals of a branch are those its tool
  calls wait for.
* `SessionReducer.accepted_represents`: every accepted log leaves a reducer with the invariant.
-/

namespace TeaRs

open SessionReducer BranchProjection

/-- The message identity that a record uses. -/
def SessionRecord.messageId? : SessionRecord → Option MessageId
  | .messageCommitted message => some message.messageId
  | .sessionCompacted summary _ => some summary.messageId
  | _ => none

/-- The message that a record adds to the transcript of its branch. -/
def SessionRecord.transcriptMessage? : SessionRecord → Option CanonicalMessage
  | .messageCommitted message => some message
  | .sessionCompacted summary _ => some summary
  | _ => none

/-- The tool call needs an approval, has asked for it and has no answer yet. -/
def BranchProjection.Awaits (p : BranchProjection) (a : ApprovalId) (t : ToolCallId) : Prop :=
  ∃ tool, p.toolCalls[t]? = some tool ∧ tool.policyDecision = some .requireApproval ∧
    tool.approvalId = some a ∧ tool.approvalDecision = none

namespace SessionReducer

variable {log : List RecordEnvelope} {r q : SessionReducer} {s t' : MaterializedSessionState}
variable {e : RecordEnvelope}

/-! ### Messages -/

theorem RecordStep.mem_messageIds_iff (h : RecordStep r s e q t') {id : MessageId} :
    id ∈ q.messageIds ↔ id ∈ r.messageIds ∨ e.record.messageId? = some id := by
  cases h with
  | message record | toolResult record | compacted record =>
    rw [record, BTreeSet.mem_insert_iff, or_comm]
    simp [SessionRecord.messageId?, CanonicalMessage.messageId, eq_comm]
  | configuration record | requested record | approvalRequested record | approvalResolved record
  | runInterrupted record | runCancelled record | checkpointed record =>
    simp [record, SessionRecord.messageId?]
  | tool kind step => cases step <;> simp [kind, SessionRecord.messageId?]

theorem RecordStep.messageId_fresh (h : RecordStep r s e q t') {id : MessageId}
    (uses : e.record.messageId? = some id) : id ∉ r.messageIds := by
  cases h with
  | message record fresh | toolResult record fresh | compacted record _ _ fresh =>
    rw [record] at uses
    cases uses
    exact fresh
  | configuration record | requested record | approvalRequested record | approvalResolved record
  | runInterrupted record | runCancelled record | checkpointed record =>
    rw [record] at uses
    cases uses
  | tool kind step =>
    rw [kind] at uses
    cases step <;> cases uses

theorem Accepted.messageIds (h : Accepted log r) :
    (∀ id, id ∈ r.messageIds ↔ id ∈ log.filterMap (·.record.messageId?)) ∧
      (log.filterMap (·.record.messageId?)).Nodup := by
  induction h using Accepted.induct with
  | nil => simp [new]
  | @snoc log r q e before step _ ih =>
    obtain ⟨used, distinct⟩ := ih
    have last : ([e] : List RecordEnvelope).filterMap (·.record.messageId?) =
        e.record.messageId?.toList := by
      cases h : e.record.messageId? <;> simp [h]
    rw [List.filterMap_append, last, push]
    rcases step.sameTables with ⟨s, p, t', -, step, tables⟩ | ⟨other, tables⟩
    · refine ⟨fun id => ?_, ?_⟩
      · rw [tables.messageIds, step.mem_messageIds_iff, used, List.mem_append, Option.mem_toList]
      · refine List.nodup_append.mpr ⟨distinct, by cases e.record.messageId? <;> simp, ?_⟩
        rintro id member id' uses rfl
        exact step.messageId_fresh (Option.mem_toList.mp uses) ((used id).mpr member)
    · have silent : e.record.messageId? = none := by
        cases record : e.record <;> simp_all [SessionRecord.messageId?, isBranchRecord,
          isSessionCreated]
      rw [silent, tables.messageIds, Option.toList_none, List.append_nil]
      exact ⟨used, distinct⟩

/-- The transcript of a lineage is built from the messages of its records, in order. -/
theorem Lineage.messages_sublist {H : List RecordEnvelope} {p : BranchProjection}
    (h : Lineage H p) : p.messages.Sublist (H.filterMap (·.record.transcriptMessage?)) := by
  induction h with
  | root => exact List.nil_sublist _
  | @record log r q s t e _ _ _ step ih =>
    rw [List.filterMap_append]
    cases step with
    | message record | toolResult record =>
      refine ih.append ?_
      simp [record, SessionRecord.transcriptMessage?]
    | compacted record =>
      refine List.Sublist.trans ?_ (List.sublist_append_right _ _)
      simp [record, SessionRecord.transcriptMessage?, capture,
        MaterializedSessionState.setCompaction]
    | configuration | requested | tool | approvalRequested | approvalResolved | runInterrupted
    | runCancelled | checkpointed => exact ih.trans (List.sublist_append_left _ _)
  | branch _ _ ih =>
    rw [List.filterMap_append]
    exact ih.trans (List.sublist_append_left _ _)

/-! ### Approvals -/

/-- What a record does to the authorities of the calls and to the pending approvals. -/
inductive AuthorityStep (r : SessionReducer) (p : BranchProjection) (e : RecordEnvelope)
    (p' : BranchProjection) : Prop
  | silent (calls : authorities p' = authorities p)
      (pending : p'.pendingApprovals = p.pendingApprovals)
  | requested {t : ToolCallId} {name : String} {arguments : Value}
      (absent : authorities p t = none)
      (calls : ∀ u, authorities p' u =
        if u = t then some ⟨name, arguments, none, none, none⟩ else authorities p u)
      (pending : p'.pendingApprovals = p.pendingApprovals)
  | policy {t : ToolCallId} {x : Authority} {d : PolicyDecision}
      (lookup : authorities p t = some x) (undecided : x.policyDecision = none)
      (calls : ∀ u, authorities p' u =
        if u = t then some { x with policyDecision := some d } else authorities p u)
      (pending : p'.pendingApprovals = p.pendingApprovals)
  | asked {t : ToolCallId} {x : Authority} {a : ApprovalId} {expiresAt : ProtocolTimestamp}
      (record : e.record = .approvalRequested a t expiresAt) (fresh : a ∉ r.approvalIds)
      (lookup : authorities p t = some x) (policy : x.policyDecision = some .requireApproval)
      (first : x.approvalId = none)
      (calls : ∀ u, authorities p' u =
        if u = t then some { x with approvalId := some a } else authorities p u)
      (pending : p'.pendingApprovals = p.pendingApprovals.insert a
        { approvalId := a, toolCallId := t, expiresAt, requestedAt := e.timestamp })
  | answered {pending : PendingApproval} {x : Authority} {a : ApprovalId} {d : ApprovalDecision}
      (found : p.pendingApprovals[a]? = some pending)
      (lookup : authorities p pending.toolCallId = some x)
      (calls : ∀ u, authorities p' u = if u = pending.toolCallId then
        some { x with approvalDecision := some d } else authorities p u)
      (removed : p'.pendingApprovals = p.pendingApprovals.erase a)

theorem RecordStep.authorityStep (h : RecordStep r s e q t') :
    AuthorityStep r (capture s) e (capture t') := by
  cases h with
  | message | configuration | runInterrupted | runCancelled | compacted | checkpointed =>
    exact .silent rfl rfl
  | toolResult _ _ lookup => exact .silent (authorities_insert_same rfl lookup rfl) rfl
  | requested _ _ _ _ absent =>
    refine .requested ?_ (authorities_insert rfl rfl) rfl
    rw [authorities, Option.map_eq_none_iff]
    exact BTreeMap.getElem?_eq_none_iff_notMem.mpr absent
  | tool _ step lookup =>
    cases step with
    | policy undecided =>
      exact .policy (congrArg (Option.map authority) lookup) undecided (authorities_insert rfl rfl)
        rfl
    | started | finished => exact .silent (authorities_insert_same rfl lookup rfl) rfl
    | interrupted =>
      exact .silent (authorities_insert_same rfl lookup (authority_interrupt _ _)) rfl
  | approvalRequested record fresh lookup policy first =>
    exact .asked record fresh (congrArg (Option.map authority) lookup) policy first
      (authorities_insert rfl rfl) rfl
  | approvalResolved _ found _ _ lookup =>
    exact .answered found (congrArg (Option.map authority) lookup) (authorities_insert rfl rfl) rfl

theorem Accepted.asks_of_approvalId (h : Accepted log r) (hs : r.state = some s) {t : ToolCallId}
    {x : Authority} {a : ApprovalId} (lookup : authorities (capture s) t = some x)
    (approval : x.approvalId = some a) : Asks log a t := by
  refine (h.projections (P := fun p => ∀ t x a, authorities p t = some x →
    x.approvalId = some a → Asks log a t) ?_ ?_).2.2 s hs t x a lookup approval
  · rintro e profileId metadata t x a lookup
    simp [authorities, capture, createdState, newState] at lookup
  · intro l e r s q t' inside _ _ step ih u y b lookup approval
    cases step.authorityStep with
    | silent calls => exact ih u y b (calls ▸ lookup) approval
    | requested _ calls =>
      rw [calls] at lookup
      split_ifs at lookup
      · cases lookup
        cases approval
      · exact ih u y b lookup approval
    | policy known _ calls | answered _ known calls =>
      rw [calls] at lookup
      split_ifs at lookup with hu
      · cases lookup
        exact hu ▸ ih _ _ b known approval
      · exact ih u y b lookup approval
    | @asked _ _ _ expiresAt record _ _ _ _ calls =>
      rw [calls] at lookup
      split_ifs at lookup with hu
      · cases lookup
        cases approval
        exact hu ▸ ⟨e, inside.subset (by simp), expiresAt, record⟩
      · exact ih u y b lookup approval

/-- The call waits for the answer to the approval, read off its authority. -/
def Authority.Awaits (x : Authority) (a : ApprovalId) : Prop :=
  x.policyDecision = some .requireApproval ∧ x.approvalId = some a ∧ x.approvalDecision = none

/-- The pending approvals of a branch are those its tool calls wait for. -/
structure ApprovalsExact (p : BranchProjection) : Prop where
  pending : ∀ a t, (∃ pending, p.pendingApprovals[a]? = some pending ∧ pending.toolCallId = t) ↔
    ∃ x, authorities p t = some x ∧ x.Awaits a
  asked : ∀ t x a, authorities p t = some x → x.approvalId = some a →
    x.policyDecision = some .requireApproval
  answered : ∀ t x, authorities p t = some x → x.approvalId = none → x.approvalDecision = none

/-- A record keeps the pending approvals exact, if no call has the approval that it asks for. -/
theorem ApprovalsExact.step {p p' : BranchProjection} (h : ApprovalsExact p)
    (step : AuthorityStep r p e p')
    (fresh : ∀ t x a, authorities p t = some x → x.approvalId = some a → a ∈ r.approvalIds) :
    ApprovalsExact p' := by
  cases step with
  | silent calls pending =>
    refine ⟨?_, ?_, ?_⟩
    · rw [calls, pending]
      exact h.pending
    · rw [calls]
      exact h.asked
    · rw [calls]
      exact h.answered
  | @requested t name arguments absent calls pending =>
    refine ⟨fun a u => ?_, fun u x a lookup => ?_, fun u x lookup => ?_⟩
    · rw [pending, h.pending, calls]
      split_ifs with hu
      · simp [hu, absent, Authority.Awaits]
      · rfl
    all_goals
      rw [calls] at lookup
      split_ifs at lookup
    · cases lookup
      nofun
    · exact h.asked u x a lookup
    · cases lookup
      exact fun _ => rfl
    · exact h.answered u x lookup
  | @policy t x d lookup undecided calls pending =>
    have unasked : x.approvalId = none := Option.eq_none_iff_forall_ne_some.mpr fun a approval =>
      nomatch undecided.symm.trans (h.asked t x a lookup approval)
    refine ⟨fun a u => ?_, fun u y a found => ?_, fun u y found => ?_⟩
    · rw [pending, h.pending, calls]
      split_ifs with hu
      · simp [hu, lookup, Authority.Awaits, unasked]
      · rfl
    all_goals
      rw [calls] at found
      split_ifs at found
    · cases found
      exact fun approval => nomatch unasked.symm.trans approval
    · exact h.asked u y a found
    · cases found
      exact h.answered t x lookup
    · exact h.answered u y found
  | @asked t x a expiresAt record new lookup policy first calls pending =>
    refine ⟨fun b u => ?_, fun u y b found => ?_, fun u y found => ?_⟩
    · rw [pending, calls, BTreeMap.getElem?_insert_eq]
      split_ifs with hb hu hu
      · simp [hb, hu, Authority.Awaits, policy, h.answered t x lookup first]
      · refine iff_of_false ?_ ?_
        · rintro ⟨_, ⟨⟩, rfl⟩
          exact hu rfl
        · rintro ⟨y, found, -, approval, -⟩
          exact new (hb ▸ fresh u y b found approval)
      · rw [h.pending]
        simp [hu, lookup, Authority.Awaits, first, Ne.symm hb]
      · exact h.pending b u
    all_goals
      rw [calls] at found
      split_ifs at found
    · cases found
      exact fun _ => policy
    · exact h.asked u y b found
    · cases found
      nofun
    · exact h.answered u y found
  | @answered pending x a d found lookup calls removed =>
    obtain ⟨x', lookup', policy, approval, -⟩ := (h.pending a pending.toolCallId).mp ⟨_, found, rfl⟩
    obtain rfl := Option.some.inj (lookup.symm.trans lookup')
    refine ⟨fun b u => ?_, fun u y b known => ?_, fun u y known => ?_⟩
    · rw [removed, calls, BTreeMap.getElem?_erase_eq]
      split_ifs with hb hu hu
      · simp [Authority.Awaits]
      · refine iff_of_false (by simp) ?_
        rintro known
        obtain ⟨other, again, same⟩ := (h.pending b u).mpr known
        cases (hb ▸ again).symm.trans found
        exact hu same.symm
      · rw [h.pending]
        simp [hu, lookup, Authority.Awaits, approval, Ne.symm hb]
      · exact h.pending b u
    all_goals
      rw [calls] at known
      split_ifs at known
    · cases known
      exact fun _ => policy
    · exact h.asked u y b known
    · cases known
      exact fun none => nomatch approval.symm.trans none
    · exact h.answered u y known

theorem Accepted.approvalsExact (h : Accepted log r) (hs : r.state = some s) :
    ApprovalsExact (capture s) := by
  refine (h.projections (P := ApprovalsExact) ?_ ?_).2.2 s hs
  · intro e profileId metadata
    constructor <;>
      simp [authorities, capture, createdState, newState]
  · intro l e r s q t' _ accepted hs step ih
    refine ih.step step.authorityStep fun t x a lookup approval => ?_
    exact accepted.mem_approvalIds_iff.mpr ⟨t, accepted.asks_of_approvalId hs lookup approval⟩

/-! ### The invariant -/

/-- The representation invariant of a reducer that has accepted the log. -/
structure Represents (log : List RecordEnvelope) (r : SessionReducer)
    (s : MaterializedSessionState) : Prop where
  tail : s.tailSequence + 1 = log.length
  recordIds : (log.map (·.recordId)).Nodup ∧ ∀ id, id ∈ r.recordIds ↔ id ∈ log.map (·.recordId)
  messageIds : ((log.filterMap (·.record.transcriptMessage?)).map (·.messageId)).Nodup
  transcripts : s.messages.Sublist (log.filterMap (·.record.transcriptMessage?)) ∧
    ∀ (b : BranchId) head, r.branchHeads[b]? = some head →
      head.projection.messages.Sublist (log.filterMap (·.record.transcriptMessage?))
  branches : ∀ b, b ∈ s.branches ↔ b ∈ r.branchHeads
  active : ∀ b, s.activeBranchId = some b → b ∈ r.branchHeads
  leaves : ∀ (b : BranchId) summary head, s.branches[b]? = some summary →
    r.branchHeads[b]? = some head → summary.leafRecordId ∈ head.history
  pending : ∀ a t, (∃ pending, s.pendingApprovals[a]? = some pending ∧ pending.toolCallId = t) ↔
    (capture s).Awaits a t

/-- Every accepted log leaves a reducer with the representation invariant. -/
theorem accepted_represents (h : Accepted log r) (hs : r.state = some s) : Represents log r s where
  tail := h.tailSequence_eq hs
  recordIds := ⟨h.nodup, fun _ => h.mem_recordIds_iff⟩
  messageIds := by
    have ids (record : SessionRecord) :
        record.transcriptMessage?.map (·.messageId) = record.messageId? := by
      cases record <;> rfl
    simpa only [List.map_filterMap, ids] using h.messageIds.2
  transcripts :=
    ⟨(h.lineage_active hs).messages_sublist.trans (h.activeHistory_sublist.filterMap _),
      fun _ _ lookup =>
        (h.lineage_head lookup).messages_sublist.trans (List.filter_sublist.filterMap _)⟩
  branches := by
    intro b
    have rel := h.branches_rel hs b
    rw [Std.ExtTreeMap.mem_iff_isSome_getElem?, Std.ExtTreeMap.mem_iff_isSome_getElem?]
    generalize s.branches[b]? = summary, r.branchHeads[b]? = head at rel
    cases rel <;> rfl
  active := fun b active =>
    have ⟨_, lookup, _⟩ := h.active_head hs active
    BTreeMap.mem_of_getElem? lookup
  leaves := by
    intro b summary head listed lookup
    have rel := h.branches_rel hs b
    rw [listed, lookup] at rel
    cases rel with
    | some leaf => exact leaf
  pending := by
    intro a t
    refine ((h.approvalsExact hs).pending a t).trans ?_
    simp [authorities, Authority.Awaits, authority, BranchProjection.Awaits]

theorem accepted_represents_approvedLog : ∃ s, (reducerOf approvedLog).state = some s ∧
      Represents approvedLog (reducerOf approvedLog) s := by
  have accepted : Accepted approvedLog _ := accepted_reducerOf (by decide +kernel)
  obtain ⟨s, hs⟩ := Option.isSome_iff_exists.mp
    (show (reducerOf approvedLog).state.isSome = true by decide +kernel)
  exact ⟨s, hs, accepted_represents accepted hs⟩

end SessionReducer

end TeaRs
