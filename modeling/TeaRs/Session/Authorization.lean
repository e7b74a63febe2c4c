import TeaRs.Session.Lineage

/-!
# Every started call is authorized

A tool call may start when its recorded decisions allow it. Along the lineage of a branch, the
recorded decisions of a call are exactly what the records of that lineage say: the call was
declared by a committed message, requested with the declared name and arguments, and decided by
policy, or by an approval that was asked for and answered before it expired.

One check is missing in the reducer. The summary of a compaction replaces the transcript, and the
tool-call blocks it contains make calls visible that no message of the branch declared. The result
therefore asks that the summaries of the branch only mention calls its messages declare.

## Main definitions

* `SessionReducer.Authorized H t`: the history `H` authorizes the call `t` to start.
* `SessionReducer.Justified H p`: the tool calls of the projection `p` are what `H` records.
* `SessionReducer.SummariesDeclared H`: the compaction summaries of `H` only mention calls that
  earlier messages of `H` declare.

## Main results

* `SessionReducer.Lineage.justified`: the projection of every lineage is justified.
* `SessionReducer.started_authorized`: every accepted start is authorized by the history of its
  branch.
* `SessionReducer.started_unauthorized`: an accepted log that starts a call its branch never
  declared.
-/

namespace TeaRs

open StateError BranchProjection List

namespace SessionReducer

variable {r r' q : SessionReducer} {s t' : MaterializedSessionState} {e : RecordEnvelope}
variable {log H : List RecordEnvelope} {t : ToolCallId} {a : ApprovalId}

/-! ### What a history records about a call -/

/-- A committed assistant message declares the call with this name and these arguments. -/
def Declares (H : List RecordEnvelope) (t : ToolCallId) (name : String) (arguments : Value) :
    Prop :=
  ∃ f ∈ H, ∃ m : CanonicalMessage, f.record = .messageCommitted m ∧ m.isAssistant = true ∧
    (t, name, arguments) ∈ m.declaredToolCalls

/-- A record requests the call with this name and these arguments. -/
def Requests (H : List RecordEnvelope) (t : ToolCallId) (name : String) (arguments : Value) :
    Prop :=
  ∃ f ∈ H, f.record = .toolCallRequested t name arguments

/-- A record states the policy decision for the call. -/
def Decides (H : List RecordEnvelope) (t : ToolCallId) (d : PolicyDecision) : Prop :=
  ∃ f ∈ H, f.record = .policyDecisionRecorded t d

/-- A record asks for the approval of the call. -/
def Asks (H : List RecordEnvelope) (a : ApprovalId) (t : ToolCallId) : Prop :=
  ∃ f ∈ H, ∃ expiresAt, f.record = .approvalRequested a t expiresAt

/-- A record answers the approval. -/
def Answers (H : List RecordEnvelope) (a : ApprovalId) (d : ApprovalDecision) : Prop :=
  ∃ f ∈ H, f.record = .approvalResolved a d

/-- Policy required an approval, which was then asked for. -/
def AsksInOrder (H : List RecordEnvelope) (t : ToolCallId) (a : ApprovalId)
    (requestedAt expiresAt : ProtocolTimestamp) : Prop :=
  ∃ p q, [p, q].Sublist H ∧ p.record = .policyDecisionRecorded t .requireApproval ∧
    q.record = .approvalRequested a t expiresAt ∧ q.timestamp = requestedAt

/-- Policy required an approval, which was then asked for and then answered in time. -/
def AnswersInOrder (H : List RecordEnvelope) (t : ToolCallId) (a : ApprovalId)
    (d : ApprovalDecision) : Prop :=
  ∃ p q z expiresAt, [p, q, z].Sublist H ∧
    p.record = .policyDecisionRecorded t .requireApproval ∧
    q.record = .approvalRequested a t expiresAt ∧ z.record = .approvalResolved a d ∧
    q.timestamp ≤ z.timestamp ∧ z.timestamp < expiresAt

/-- The history authorizes the call to start: it was declared and requested alike, policy allowed
it or an approval did, and nothing denied it. -/
structure Authorized (H : List RecordEnvelope) (t : ToolCallId) : Prop where
  requested : ∃ name arguments, Declares H t name arguments ∧ Requests H t name arguments
  allowed : Decides H t .allow ∨
    ∃ a d, (d = .allowOnce ∨ d = .allowSession) ∧ AnswersInOrder H t a d
  policy : ¬Decides H t .deny
  approval : ∀ a, Asks H a t → ¬Answers H a .deny

variable {name : String} {arguments : Value} {expiresAt : ProtocolTimestamp} {v : DeclaredToolCall}

theorem declares_snoc : Declares (H ++ [e]) t name arguments ↔ Declares H t name arguments ∨
      ∃ m : CanonicalMessage, e.record = .messageCommitted m ∧ m.isAssistant = true ∧
        (t, name, arguments) ∈ m.declaredToolCalls := by
  simp only [Declares, mem_append, mem_singleton, or_and_right, exists_or,
    exists_eq_left]

theorem requests_snoc : Requests (H ++ [e]) t name arguments ↔
      Requests H t name arguments ∨ e.record = .toolCallRequested t name arguments := by
  simp only [Requests, mem_append, mem_singleton, or_and_right, exists_or,
    exists_eq_left]

theorem decides_snoc {d : PolicyDecision} : Decides (H ++ [e]) t d ↔
    Decides H t d ∨ e.record = .policyDecisionRecorded t d := by
  simp only [Decides, mem_append, mem_singleton, or_and_right, exists_or,
    exists_eq_left]

theorem asks_snoc : Asks (H ++ [e]) a t ↔
    Asks H a t ∨ ∃ expiresAt, e.record = .approvalRequested a t expiresAt := by
  simp only [Asks, mem_append, mem_singleton, or_and_right, exists_or, exists_eq_left]

theorem answers_snoc {d : ApprovalDecision} : Answers (H ++ [e]) a d ↔
    Answers H a d ∨ e.record = .approvalResolved a d := by
  simp only [Answers, mem_append, mem_singleton, or_and_right, exists_or,
    exists_eq_left]

theorem Asks.mono (h : Asks H a t) (sub : H.Sublist log) : Asks log a t := by
  obtain ⟨f, hf, h⟩ := h
  exact ⟨f, sub.subset hf, h⟩

theorem Declares.mono (h : Declares H t name arguments)
    (sub : H.Sublist log) : Declares log t name arguments := by
  obtain ⟨f, hf, h⟩ := h
  exact ⟨f, sub.subset hf, h⟩

theorem AsksInOrder.snoc {requestedAt : ProtocolTimestamp}
    (h : AsksInOrder H t a requestedAt expiresAt) (e : RecordEnvelope) :
    AsksInOrder (H ++ [e]) t a requestedAt expiresAt := by
  obtain ⟨p, q, sub, h⟩ := h
  exact ⟨p, q, sub.trans (sublist_append_left H [e]), h⟩

theorem AnswersInOrder.snoc {d : ApprovalDecision} (h : AnswersInOrder H t a d)
    (e : RecordEnvelope) : AnswersInOrder (H ++ [e]) t a d := by
  obtain ⟨p, q, z, x, sub, h⟩ := h
  exact ⟨p, q, z, x, sub.trans (sublist_append_left H [e]), h⟩

/-! ### The identity tables of the reducer -/

theorem isAssistant_of_mem_declaredToolCalls {m : CanonicalMessage}
    {c : ToolCallId × String × Value} (h : c ∈ m.declaredToolCalls) : m.isAssistant = true := by
  cases m with
  | assistant => rfl
  | user | toolResult => cases h

theorem getElem?_insertDeclared {declared : BTreeMap ToolCallId DeclaredToolCall}
    {calls : List (ToolCallId × String × Value)} (nodup : (calls.map (·.1)).Nodup)
    (undeclared : ∀ c ∈ calls, c.1 ∉ declared) :
    (insertDeclared declared calls)[t]? = some v ↔
      declared[t]? = some v ∨ (t, v.toolName, v.arguments) ∈ calls := by
  induction calls generalizing declared with
  | nil => simp [insertDeclared]
  | cons c calls ih =>
    obtain ⟨t₀, name, arguments⟩ := c
    obtain ⟨hhead, nodup⟩ := nodup_cons.mp nodup
    have rest : ∀ c ∈ calls, c.1 ∉ declared.insert t₀ { toolName := name, arguments } := by
      intro c hc hmem
      rcases BTreeMap.mem_insert_iff.mp hmem with heq | hmem
      · exact hhead (mem_map.mpr ⟨c, hc, heq⟩)
      · exact undeclared c (mem_cons_of_mem _ hc) hmem
    have absent : declared[t₀]? = none :=
      BTreeMap.getElem?_eq_none_iff_notMem.mpr (undeclared _ mem_cons_self)
    rw [insertDeclared, foldl_cons]
    refine (ih nodup rest).trans ?_
    rw [BTreeMap.getElem?_insert_eq, mem_cons]
    by_cases ht : t = t₀
    · subst ht
      simp only [if_true, absent, Option.some.injEq, reduceCtorEq, false_or, Prod.mk.injEq,
        true_and]
      refine or_congr ?_ Iff.rfl
      constructor
      · rintro rfl
        exact ⟨rfl, rfl⟩
      · rintro ⟨rfl, rfl⟩
        rfl
    · simp [ht]

theorem RecordStep.declaredToolCalls_iff (h : RecordStep r s e q t') :
    q.declaredToolCalls[t]? = some v ↔ r.declaredToolCalls[t]? = some v ∨
      ∃ m : CanonicalMessage, e.record = .messageCommitted m ∧ m.isAssistant = true ∧
        (t, v.toolName, v.arguments) ∈ m.declaredToolCalls := by
  cases h with
  | message record fresh declares notResult =>
    rw [getElem?_insertDeclared declares.nodup declares.undeclared]
    refine or_congr_right ⟨fun hmem => ?_, ?_⟩
    · exact ⟨_, record, isAssistant_of_mem_declaredToolCalls hmem, hmem⟩
    · rintro ⟨m, record', -, hmem⟩
      cases record.symm.trans record'
      exact hmem
  | toolResult record =>
    refine (or_iff_left ?_).symm
    rintro ⟨m, record', assistant, -⟩
    cases record.symm.trans record'
    cases assistant
  | tool kind step =>
    refine (or_iff_left ?_).symm
    rintro ⟨m, record, -⟩
    cases kind.symm.trans record
    cases step
  | _ => simp_all

theorem RecordStep.approvalIds_iff (h : RecordStep r s e q t') : a ∈ q.approvalIds ↔
    a ∈ r.approvalIds ∨ ∃ t expiresAt, e.record = .approvalRequested a t expiresAt := by
  cases h with
  | approvalRequested record =>
    rw [BTreeSet.mem_insert_iff, record]
    simp [or_comm, eq_comm]
  | tool kind step =>
    refine (or_iff_left ?_).symm
    rintro ⟨t, x, record⟩
    cases kind.symm.trans record
    cases step
  | _ => simp_all

theorem RecordStep.approval_fresh (h : RecordStep r s e q t')
    (record : e.record = .approvalRequested a t expiresAt) : a ∉ r.approvalIds := by
  cases h with
  | approvalRequested record' fresh =>
    cases record.symm.trans record'
    exact fresh
  | tool kind step =>
    cases kind.symm.trans record
    cases step
  | _ => simp_all

/-- Two reducers with the same identity tables. -/
structure SameTables (r r' : SessionReducer) : Prop where
  messageIds : r'.messageIds = r.messageIds
  declaredToolCalls : r'.declaredToolCalls = r.declaredToolCalls
  requestedToolCallIds : r'.requestedToolCallIds = r.requestedToolCallIds
  approvalIds : r'.approvalIds = r.approvalIds

/-- Only the records of a branch change the identity tables. -/
theorem Step.sameTables
    {fork : BranchId → RecordId → Except SessionReplayError (Option BranchSnapshot)}
    (h : Step fork r e r') :
    (∃ s q t, r.state = some s ∧ RecordStep r s e q t ∧ SameTables q r') ∨
      (isBranchRecord e.record || isSessionCreated e.record) = true ∧ SameTables r r' := by
  cases h with
  | created _ _ _ record | forked _ record | switched _ record =>
    exact .inr ⟨by rw [record]; rfl, rfl, rfl, rfl, rfl⟩
  | unbranched follows _ _ step | onBranch follows _ _ step =>
    exact .inl ⟨_, _, _, follows.state, step, rfl, rfl, rfl, rfl⟩

namespace Accepted

theorem declaredToolCalls_iff (h : Accepted log r) {v : DeclaredToolCall} :
    r.declaredToolCalls[t]? = some v ↔ Declares log t v.toolName v.arguments := by
  induction h using induct with
  | nil => simp [new, Declares]
  | @snoc log r q e before step _ ih =>
    rw [declares_snoc, ← ih, push]
    rcases step.sameTables with ⟨s, p, t', -, step, tables⟩ | ⟨other, tables⟩
    · rw [tables.declaredToolCalls]
      exact step.declaredToolCalls_iff
    · rw [tables.declaredToolCalls]
      refine (or_iff_left ?_).symm
      rintro ⟨m, record, -⟩
      rw [record] at other
      cases other

theorem mem_approvalIds_iff (h : Accepted log r) : a ∈ r.approvalIds ↔ ∃ t, Asks log a t := by
  induction h using induct with
  | nil => simp [new, Asks]
  | @snoc log r q e before step _ ih =>
    simp only [asks_snoc, exists_or, ← ih]
    rcases step.sameTables with ⟨s, p, t', -, step, tables⟩ | ⟨other, tables⟩
    · rw [push, tables.approvalIds]
      exact step.approvalIds_iff
    · rw [push, tables.approvalIds]
      refine (or_iff_left ?_).symm
      rintro ⟨t, x, record⟩
      rw [record] at other
      cases other

theorem asks_unique (h : Accepted log r) {t u : ToolCallId} (ht : Asks log a t)
    (hu : Asks log a u) : t = u := by
  induction h using induct with
  | nil =>
    obtain ⟨f, hf, -⟩ := ht
    cases hf
  | @snoc log r q e before step _ ih =>
    have fresh {t : ToolCallId} {x : ProtocolTimestamp}
        (record : e.record = .approvalRequested a t x) (u : ToolCallId) : ¬Asks log a u := by
      intro hu
      rcases step.sameTables with ⟨s, p, t', -, step, -⟩ | ⟨other, -⟩
      · exact step.approval_fresh record (before.mem_approvalIds_iff.mpr ⟨u, hu⟩)
      · rw [record] at other
        cases other
    rcases asks_snoc.mp ht with ht | ⟨x, ht⟩ <;> rcases asks_snoc.mp hu with hu | ⟨y, hu⟩
    · exact ih ht hu
    · exact absurd ht (fresh hu t)
    · exact absurd hu (fresh ht u)
    · cases ht.symm.trans hu
      rfl

theorem activeHistory_sublist (h : Accepted log r) : r.activeHistory.Sublist log := by
  rw [activeHistory, h.records_eq]
  split
  · exact nil_sublist _
  · split
    · exact List.Sublist.refl _
    · split
      · exact nil_sublist _
      · exact filter_sublist

end Accepted

/-! ### Justified projections -/

/-- The part of a tool call that says whether it may start. -/
structure Authority where
  toolName : String
  arguments : Value
  policyDecision : Option PolicyDecision
  approvalId : Option ApprovalId
  approvalDecision : Option ApprovalDecision

/-- The authority of a tool call. -/
def authority (tool : ToolCallState) : Authority where
  toolName := tool.toolName
  arguments := tool.arguments
  policyDecision := tool.policyDecision
  approvalId := tool.approvalId
  approvalDecision := tool.approvalDecision

/-- The authority of a call is exactly what the history records about it. -/
structure CallJustified (H : List RecordEnvelope) (t : ToolCallId) (x : Authority) : Prop where
  declared : Declares H t x.toolName x.arguments
  requested : Requests H t x.toolName x.arguments
  policy : ∀ d, Decides H t d ↔ x.policyDecision = some d
  asked : ∀ a, Asks H a t ↔ x.approvalId = some a
  answered : ∀ d, x.approvalDecision = some d →
    ∃ a, x.approvalId = some a ∧ AnswersInOrder H t a d
  settled : ∀ a d, x.approvalId = some a → Answers H a d → x.approvalDecision = some d

/-- A pending approval waits for the answer of a call that asked for it. -/
structure PendingJustified (H : List RecordEnvelope)
    (authorities : ToolCallId → Option Authority) (a : ApprovalId) (p : PendingApproval) :
    Prop where
  call : ∃ x, authorities p.toolCallId = some x ∧ x.approvalId = some a ∧
    x.approvalDecision = none
  asked : AsksInOrder H p.toolCallId a p.requestedAt p.expiresAt

/-- The authority of every call of a projection. -/
def authorities (p : BranchProjection) (t : ToolCallId) : Option Authority :=
  p.toolCalls[t]?.map authority

/-- The tool calls of the projection are what the history records. -/
structure Justified (H : List RecordEnvelope) (p : BranchProjection) : Prop where
  calls : ∀ t x, authorities p t = some x → CallJustified H t x
  decided : ∀ t d, Decides H t d → authorities p t ≠ none
  asked : ∀ a t, Asks H a t → authorities p t ≠ none
  answered : ∀ a d, Answers H a d → ∃ t, Asks H a t
  pending : ∀ a pending, p.pendingApprovals[a]? = some pending →
    PendingJustified H (authorities p) a pending
  visible : ∀ m ∈ p.messages, ∀ c ∈ m.declaredToolCalls,
    ∃ name arguments, Declares H c.1 name arguments

/-- The record is none of those that change the authority of a call. -/
def isSilent : SessionRecord → Bool
  | .policyDecisionRecorded .. | .approvalRequested .. | .approvalResolved .. => false
  | _ => true

/-- A record about other calls and other approvals keeps a call justified. -/
theorem CallJustified.snoc {x : Authority} (h : CallJustified H t x)
    (policy : ∀ d, e.record ≠ .policyDecisionRecorded t d)
    (asked : ∀ a expiresAt, e.record ≠ .approvalRequested a t expiresAt)
    (answered : ∀ a d, x.approvalId = some a → e.record ≠ .approvalResolved a d) :
    CallJustified (H ++ [e]) t x where
  declared := declares_snoc.mpr (.inl h.declared)
  requested := requests_snoc.mpr (.inl h.requested)
  policy d := (decides_snoc.trans (or_iff_left (policy d))).trans (h.policy d)
  asked a := by
    refine (asks_snoc.trans (or_iff_left ?_)).trans (h.asked a)
    rintro ⟨expiresAt, record⟩
    exact asked a expiresAt record
  answered d hd := by
    obtain ⟨a, ha, order⟩ := h.answered d hd
    exact ⟨a, ha, order.snoc e⟩
  settled a d ha hd := h.settled a d ha ((answers_snoc.mp hd).resolve_right (answered a d ha))

theorem PendingJustified.snoc {f g : ToolCallId → Option Authority} {pending : PendingApproval}
    (h : PendingJustified H f a pending) (same : g pending.toolCallId = f pending.toolCallId) :
    PendingJustified (H ++ [e]) g a pending :=
  ⟨same ▸ h.call, h.asked.snoc e⟩

section Silent

variable (silent : isSilent e.record = true)

include silent

theorem decides_snoc_of_silent {d : PolicyDecision} : Decides (H ++ [e]) t d ↔ Decides H t d := by
  refine decides_snoc.trans (or_iff_left fun record => ?_)
  rw [record] at silent
  cases silent

theorem asks_snoc_of_silent : Asks (H ++ [e]) a t ↔ Asks H a t := by
  refine asks_snoc.trans (or_iff_left ?_)
  rintro ⟨_, record⟩
  rw [record] at silent
  cases silent

theorem answers_snoc_of_silent {d : ApprovalDecision} : Answers (H ++ [e]) a d ↔ Answers H a d := by
  refine answers_snoc.trans (or_iff_left fun record => ?_)
  rw [record] at silent
  cases silent

theorem CallJustified.snoc_silent {x : Authority} (h : CallJustified H t x) :
    CallJustified (H ++ [e]) t x := by
  refine h.snoc (fun d record => ?_) (fun a y record => ?_) fun a d _ record => ?_
  all_goals
    rw [record] at silent
    cases silent

/-- A record that changes no authority keeps a projection justified. -/
theorem Justified.snoc_silent {p p' : BranchProjection} (h : Justified H p)
    (same : authorities p' = authorities p) (pendings : p'.pendingApprovals = p.pendingApprovals)
    (visible : ∀ m ∈ p'.messages, ∀ c ∈ m.declaredToolCalls,
      ∃ name arguments, Declares (H ++ [e]) c.1 name arguments) :
    Justified (H ++ [e]) p' where
  calls t x hx := (h.calls t x (same ▸ hx)).snoc_silent silent
  decided t d hd := by
    rw [same]
    exact h.decided t d ((decides_snoc_of_silent silent).mp hd)
  asked a t ha := by
    rw [same]
    exact h.asked a t ((asks_snoc_of_silent silent).mp ha)
  answered a d hd := by
    obtain ⟨t, ht⟩ := h.answered a d ((answers_snoc_of_silent silent).mp hd)
    exact ⟨t, asks_snoc.mpr (.inl ht)⟩
  pending a pending found := by
    rw [pendings] at found
    exact (h.pending a pending found).snoc (by rw [same])
  visible := visible

end Silent

theorem Justified.visible_snoc {p : BranchProjection} (h : Justified H p) (e : RecordEnvelope) :
    ∀ m ∈ p.messages, ∀ c ∈ m.declaredToolCalls,
      ∃ name arguments, Declares (H ++ [e]) c.1 name arguments := by
  intro m hm c hc
  obtain ⟨name, arguments, hd⟩ := h.visible m hm c hc
  exact ⟨name, arguments, declares_snoc.mpr (.inl hd)⟩

section Update

variable {p p' : BranchProjection} {x y : Authority}

/-- A record that changes the authority of one call keeps a projection justified when this call
and the pending approvals are. -/
theorem Justified.snoc_update (h : Justified H p)
    (update : ∀ u, authorities p' u = if u = t then some y else authorities p u)
    (messages : p'.messages = p.messages)
    (decided : ∀ u d, e.record = .policyDecisionRecorded u d → u = t)
    (asked : ∀ b u expiresAt, e.record = .approvalRequested b u expiresAt → u = t)
    (resolved : ∀ b d, e.record = .approvalResolved b d → Asks H b t ∧ ∀ u, Asks H b u → u = t)
    (call : CallJustified (H ++ [e]) t y)
    (pending : ∀ b pending, p'.pendingApprovals[b]? = some pending →
      PendingJustified (H ++ [e]) (authorities p') b pending) : Justified (H ++ [e]) p' := by
  have known {u : ToolCallId} (hu : authorities p u ≠ none ∨ u = t) : authorities p' u ≠ none := by
    rw [update]
    split_ifs with ht
    · exact Option.some_ne_none y
    · exact hu.resolve_right ht
  refine ⟨fun u z hz => ?_, fun u d hd => known ((decides_snoc.mp hd).imp (h.decided u d)
    (decided u d)), fun b u hb => known ((asks_snoc.mp hb).imp (h.asked b u) ?_), fun b d hd => ?_,
    pending, messages ▸ h.visible_snoc e⟩
  · rw [update] at hz
    split_ifs at hz with hu
    · cases hz
      exact hu ▸ call
    · have other := h.calls u z hz
      exact other.snoc (fun d record => hu (decided u d record))
        (fun b expiresAt record => hu (asked b u expiresAt record))
        fun b d hb record => hu ((resolved b d record).2 u ((other.asked b).mpr hb))
  · rintro ⟨expiresAt, record⟩
    exact asked b u expiresAt record
  · rcases answers_snoc.mp hd with hd | record
    · obtain ⟨u, hu⟩ := h.answered b d hd
      exact ⟨u, asks_snoc.mpr (.inl hu)⟩
    · exact ⟨t, asks_snoc.mpr (.inl (resolved b d record).1)⟩

/-- A request keeps a projection justified when the call was declared alike and is new. -/
theorem Justified.snoc_requested (h : Justified H p) {name : String} {arguments : Value}
    (record : e.record = .toolCallRequested t name arguments)
    (declared : Declares H t name arguments) (absent : authorities p t = none)
    (update : ∀ u, authorities p' u =
      if u = t then some (authority (newToolCall t name arguments)) else authorities p u)
    (pendings : p'.pendingApprovals = p.pendingApprovals) (messages : p'.messages = p.messages) :
    Justified (H ++ [e]) p' := by
  have silent : isSilent e.record = true := by rw [record]; rfl
  refine h.snoc_update update messages (by simp [record]) (by simp [record]) (by simp [record]) {
    declared := declares_snoc.mpr (.inl declared)
    requested := requests_snoc.mpr (.inr record)
    policy := fun d => by
      rw [decides_snoc_of_silent silent]
      exact iff_of_false (fun hd => h.decided t d hd absent) (by simp [authority, newToolCall])
    asked := fun a => by
      rw [asks_snoc_of_silent silent]
      exact iff_of_false (fun ha => h.asked a t ha absent) (by simp [authority, newToolCall])
    answered := fun d hd => by cases hd
    settled := fun a d ha => by cases ha } fun a pending found => ?_
  rw [pendings] at found
  have before := h.pending a pending found
  refine before.snoc ?_
  rw [update, if_neg]
  intro hu
  obtain ⟨z, hz, -⟩ := before.call
  cases absent.symm.trans (hu ▸ hz)

/-- A policy decision keeps a projection justified when the call had none. -/
theorem Justified.snoc_policy (h : Justified H p) {d : PolicyDecision}
    (record : e.record = .policyDecisionRecorded t d) (lookup : authorities p t = some x)
    (undecided : x.policyDecision = none) (update : ∀ u, authorities p' u =
      if u = t then some { x with policyDecision := some d } else authorities p u)
    (pendings : p'.pendingApprovals = p.pendingApprovals) (messages : p'.messages = p.messages) :
    Justified (H ++ [e]) p' := by
  have call := h.calls t x lookup
  refine h.snoc_update update messages (by simp +contextual [record]) (by simp [record])
    (by simp [record]) {
      declared := declares_snoc.mpr (.inl call.declared)
      requested := requests_snoc.mpr (.inl call.requested)
      policy := fun d' => by
        rw [decides_snoc, call.policy, undecided, record]
        simp
      asked := fun a => (asks_snoc.trans (or_iff_left (by simp [record]))).trans (call.asked a)
      answered := fun d' hd => by
        obtain ⟨a, ha, order⟩ := call.answered d' hd
        exact ⟨a, ha, order.snoc e⟩
      settled := fun a d' ha hd =>
        call.settled a d' ha ((answers_snoc.mp hd).resolve_right (by simp [record])) }
    fun a pending found => ?_
  rw [pendings] at found
  have before := h.pending a pending found
  by_cases hu : pending.toolCallId = t
  · obtain ⟨z, hz, ha, hd⟩ := before.call
    rw [hu, lookup] at hz
    cases hz
    exact ⟨⟨{ x with policyDecision := some d }, by rw [update, if_pos hu], ha, hd⟩,
      before.asked.snoc e⟩
  · exact before.snoc (by rw [update, if_neg hu])

/-- An approval request keeps a projection justified when policy required it and its identity is
new. -/
theorem Justified.snoc_asked (h : Justified H p) {expiresAt : ProtocolTimestamp}
    (record : e.record = .approvalRequested a t expiresAt) (lookup : authorities p t = some x)
    (policy : x.policyDecision = some .requireApproval) (first : x.approvalId = none)
    (fresh : ∀ u, ¬Asks H a u) (update : ∀ u, authorities p' u =
      if u = t then some { x with approvalId := some a } else authorities p u)
    (pendings : p'.pendingApprovals = p.pendingApprovals.insert a
      { approvalId := a, toolCallId := t, expiresAt, requestedAt := e.timestamp })
    (messages : p'.messages = p.messages) : Justified (H ++ [e]) p' := by
  have call := h.calls t x lookup
  -- The call has no approval yet, so it has no answer either.
  have undecided : x.approvalDecision = none := by
    rw [Option.eq_none_iff_forall_ne_some]
    intro d hd
    obtain ⟨b, hb, -⟩ := call.answered d hd
    cases first.symm.trans hb
  refine h.snoc_update update messages (by simp [record]) (by simp +contextual [record])
    (by simp [record]) {
      declared := declares_snoc.mpr (.inl call.declared)
      requested := requests_snoc.mpr (.inl call.requested)
      policy := fun d => (decides_snoc.trans (or_iff_left (by simp [record]))).trans (call.policy d)
      asked := fun b => by
        rw [asks_snoc, call.asked, first, record]
        simp
      answered := fun d hd => by cases undecided.symm.trans hd
      settled := fun b d hb hd => by
        cases hb
        obtain ⟨u, hu⟩ := h.answered a d ((answers_snoc.mp hd).resolve_right (by simp [record]))
        exact absurd hu (fresh u) } fun b pending found => ?_
  rw [pendings, BTreeMap.getElem?_insert_eq] at found
  split_ifs at found with hb
  · subst hb
    cases found
    refine ⟨⟨{ x with approvalId := some b }, by simp [update], rfl, undecided⟩, ?_⟩
    obtain ⟨f, hf, hpolicy⟩ := (call.policy .requireApproval).mpr policy
    have sub : [f, e].Sublist (H ++ [e]) :=
      (singleton_sublist.mpr hf).append (List.Sublist.refl [e])
    exact ⟨f, e, sub, hpolicy, record, rfl⟩
  · have before := h.pending b pending found
    refine before.snoc ?_
    rw [update, if_neg]
    intro hu
    obtain ⟨z, hz, hzb, -⟩ := before.call
    cases lookup.symm.trans (hu ▸ hz)
    cases first.symm.trans hzb

theorem Justified.snoc_answered (h : Justified H p) {d : ApprovalDecision}
    {pending : PendingApproval} (record : e.record = .approvalResolved a d)
    (found : p.pendingApprovals[a]? = some pending)
    (begun : pending.requestedAt ≤ e.timestamp) (live : e.timestamp < pending.expiresAt)
    (lookup : authorities p pending.toolCallId = some x)
    (unique : ∀ t u, Asks H a t → Asks H a u → t = u) (update : ∀ u, authorities p' u =
      if u = pending.toolCallId then some { x with approvalDecision := some d }
      else authorities p u)
    (pendings : p'.pendingApprovals = p.pendingApprovals.erase a)
    (messages : p'.messages = p.messages) : Justified (H ++ [e]) p' := by
  have call := h.calls _ x lookup
  obtain ⟨⟨y, hy, hya, undecided⟩, f, g, sub, hpolicy, hasked, hat⟩ := h.pending a pending found
  obtain rfl : x = y := Option.some.inj (lookup.symm.trans hy)
  have hasks : Asks H a pending.toolCallId := (call.asked a).mpr hya
  refine h.snoc_update update messages (by simp [record]) (by simp [record])
    (fun b d' record' => ?_) {
      declared := declares_snoc.mpr (.inl call.declared)
      requested := requests_snoc.mpr (.inl call.requested)
      policy := fun d' =>
        (decides_snoc.trans (or_iff_left (by simp [record]))).trans (call.policy d')
      asked := fun b => (asks_snoc.trans (or_iff_left (by simp [record]))).trans (call.asked b)
      answered := fun d' hd => by
        cases hd
        have order : [f, g, e].Sublist (H ++ [e]) := sub.append (List.Sublist.refl [e])
        exact ⟨a, hya, f, g, e, _, order, hpolicy, hasked, record, hat ▸ begun, live⟩
      settled := fun b d' hb hd => by
        rcases answers_snoc.mp hd with hd | record'
        · cases undecided.symm.trans (call.settled b d' hb hd)
        · cases record.symm.trans record'
          rfl } fun b other hother => ?_
  · cases record.symm.trans record'
    exact ⟨hasks, fun u hu => unique u _ hu hasks⟩
  · rw [pendings, BTreeMap.getElem?_erase_eq] at hother
    split_ifs at hother with hb
    have before := h.pending b other hother
    refine before.snoc ?_
    rw [update, if_neg]
    intro hu
    obtain ⟨z, hz, hzb, -⟩ := before.call
    cases lookup.symm.trans (hu ▸ hz)
    exact hb (Option.some.inj (hzb.symm.trans hya))

end Update

/-! ### Every lineage is justified -/

/-- The compaction summaries of the history only mention calls that earlier messages of the
history declare. -/
def SummariesDeclared (H : List RecordEnvelope) : Prop :=
  ∀ before f after, H = before ++ f :: after → ∀ summary through,
    f.record = .sessionCompacted summary through → ∀ c ∈ summary.declaredToolCalls,
      ∃ name arguments, Declares before c.1 name arguments

theorem SummariesDeclared.of_snoc (h : SummariesDeclared (H ++ [e])) : SummariesDeclared H := by
  rintro before f after rfl
  exact h before f (after ++ [e]) (by simp)

variable {p p' : BranchProjection} {tool : ToolCallState}

theorem authorities_insert {x : Authority}
    (h : p'.toolCalls = p.toolCalls.insert t tool) (hx : authority tool = x) (u : ToolCallId) :
    authorities p' u = if u = t then some x else authorities p u := by
  rw [authorities, h, BTreeMap.getElem?_insert_eq, ← hx]
  split <;> rfl

theorem authorities_insert_same {tool' : ToolCallState}
    (h : p'.toolCalls = p.toolCalls.insert t tool') (lookup : p.toolCalls[t]? = some tool)
    (same : authority tool' = authority tool) : authorities p' = authorities p := by
  funext u
  rw [authorities_insert h same]
  split_ifs with hu
  · rw [hu, authorities, lookup]
    rfl
  · rfl

theorem authority_interrupt (tool : ToolCallState) (reason : String) :
    authority (tool.interrupt reason) = authority tool := by
  rw [ToolCallState.interrupt]
  split <;> rfl

theorem Justified.declares_of_visible (accepted : Accepted log r) (hs : r.state = some s)
    (h : Justified r.activeHistory (capture s)) {v : DeclaredToolCall}
    (visible : r.visibleOnBranch s t = true) (declared : r.declaredToolCalls[t]? = some v) :
    Declares r.activeHistory t v.toolName v.arguments := by
  cases active : s.activeBranchId with
  | none =>
    rw [activeHistory_of_none hs active, accepted.records_eq]
    exact accepted.declaredToolCalls_iff.mp declared
  | some b =>
    obtain ⟨head, lookup, projection⟩ := accepted.active_head hs active
    rw [visibleOnBranch, active] at visible
    simp only [lookup, (accepted.headInvariant.1 b head lookup).declared, projection,
      transcriptToolCalls, Std.ExtTreeSet.contains_iff_mem, BTreeSet.mem_insertMany_iff] at visible
    obtain ⟨c, hc, rfl⟩ : ∃ c ∈ s.messages.flatMap CanonicalMessage.declaredToolCalls, c.1 = t := by
      simpa [capture] using visible
    obtain ⟨m, hm, hc⟩ := mem_flatMap.mp hc
    obtain ⟨name, arguments, hdeclares⟩ := h.visible m hm c hc
    -- The table of declared calls knows one declaration of a call only.
    have known : r.declaredToolCalls[c.1]? = some { toolName := name, arguments } :=
      accepted.declaredToolCalls_iff.mpr (hdeclares.mono accepted.activeHistory_sublist)
    cases declared.symm.trans known
    exact hdeclares

theorem Justified.recordStep (accepted : Accepted log r) (hs : r.state = some s)
    (h : Justified r.activeHistory (capture s)) (step : RecordStep r s e q t')
    (summaries : SummariesDeclared (r.activeHistory ++ [e])) :
    Justified (r.activeHistory ++ [e]) (capture t') := by
  cases step with
  | @message m record fresh declares notResult =>
    refine h.snoc_silent (by rw [record]; rfl) rfl rfl fun m' hm' c hc => ?_
    rcases mem_append.mp hm' with hm' | hm'
    · exact h.visible_snoc e m' hm' c hc
    · obtain rfl := mem_singleton.mp hm'
      exact ⟨c.2.1, c.2.2, declares_snoc.mpr
        (.inr ⟨m', record, isAssistant_of_mem_declaredToolCalls hc, hc⟩)⟩
  | toolResult record fresh lookup pending terminal =>
    refine h.snoc_silent (by rw [record]; rfl) (authorities_insert_same rfl lookup rfl) rfl
      fun m' hm' c hc => ?_
    rcases mem_append.mp hm' with hm' | hm'
    · exact h.visible_snoc e m' hm' c hc
    · obtain rfl := mem_singleton.mp hm'
      cases hc
  | configuration record | runInterrupted record | runCancelled record | checkpointed record =>
    exact h.snoc_silent (by rw [record]; rfl) rfl rfl (h.visible_snoc e)
  | requested record visible declared fresh absent =>
    refine h.snoc_requested record (h.declares_of_visible accepted hs visible declared) ?_
      (authorities_insert rfl rfl) rfl rfl
    rw [authorities, Option.map_eq_none_iff]
    exact BTreeMap.getElem?_eq_none_iff_notMem.mpr absent
  | tool kind step lookup =>
    have hlookup := congrArg (Option.map authority) lookup
    cases step with
    | policy undecided =>
      exact h.snoc_policy kind hlookup undecided (authorities_insert rfl rfl) rfl rfl
    | started | finished =>
      exact h.snoc_silent (by rw [kind]; rfl) (authorities_insert_same rfl lookup rfl) rfl
        (h.visible_snoc e)
    | interrupted =>
      exact h.snoc_silent (by rw [kind]; rfl)
        (authorities_insert_same rfl lookup (authority_interrupt _ _)) rfl (h.visible_snoc e)
  | approvalRequested record fresh lookup policy first expires =>
    have hlookup := congrArg (Option.map authority) lookup
    refine h.snoc_asked record hlookup policy first (fun u hu => fresh ?_)
      (authorities_insert rfl rfl) rfl rfl
    exact accepted.mem_approvalIds_iff.mpr ⟨u, hu.mono accepted.activeHistory_sublist⟩
  | approvalResolved record found begun live lookup =>
    have hlookup := congrArg (Option.map authority) lookup
    refine h.snoc_answered record found begun live hlookup (fun t u ht hu => ?_)
      (authorities_insert rfl rfl) rfl rfl
    have sub := accepted.activeHistory_sublist
    exact accepted.asks_unique (ht.mono sub) (hu.mono sub)
  | @compacted summary through record role source fresh =>
    refine h.snoc_silent (by rw [record]; rfl) rfl rfl fun m hm c hc => ?_
    obtain rfl := mem_singleton.mp hm
    obtain ⟨name, arguments, hd⟩ := summaries r.activeHistory e [] rfl m through record c hc
    exact ⟨name, arguments, declares_snoc.mpr (.inl hd)⟩

/-- The projection of every lineage is what its records say. -/
theorem Lineage.justified (h : Lineage H p) (summaries : SummariesDeclared H) : Justified H p := by
  induction h with
  | @root e profileId metadata record =>
    have silent : isSilent e.record = true := by rw [record]; rfl
    have empty : Justified [] (capture (createdState e profileId metadata)) := by
      refine ⟨?_, ?_, ?_, ?_, ?_, ?_⟩ <;>
        simp [authorities, capture, createdState, newState, Decides, Asks, Answers]
    exact empty.snoc_silent silent rfl rfl (empty.visible_snoc e)
  | record accepted state lineage step ih =>
    exact (ih summaries.of_snoc).recordStep accepted state step summaries
  | @branch H p e lineage record ih =>
    have before := ih summaries.of_snoc
    refine before.snoc_silent ?_ rfl rfl (before.visible_snoc e)
    cases hr : e.record <;> simp_all [isBranchRecord, isSilent]

/-! ### Starts are authorized -/

/-- A start is accepted for a known call whose decisions allow it and that has not started. -/
theorem Step.started_tool
    {fork : BranchId → RecordId → Except SessionReplayError (Option BranchSnapshot)}
    (h : Step fork r e r') {target : ExecutionTarget} {idempotency : ToolIdempotency}
    (record : e.record = .toolExecutionStarted t target idempotency) :
    ∃ s tool, r.state = some s ∧ s.toolCalls[t]? = some tool ∧ tool.authorized = true ∧
      tool.execution = .notStarted := by
  have key {s t₁ : MaterializedSessionState} {q : SessionReducer} (hs : r.state = some s)
      (step : RecordStep r s e q t₁) : ∃ s tool, r.state = some s ∧ s.toolCalls[t]? = some tool ∧
        tool.authorized = true ∧ tool.execution = .notStarted := by
    cases step with
    | tool kind step lookup =>
      cases kind.symm.trans record
      cases step with
      | started authorized fresh => exact ⟨s, _, hs, lookup, authorized, fresh⟩
    | _ => simp_all
  cases h with
  | created _ _ _ record' | forked _ record' | switched _ record' => cases record.symm.trans record'
  | unbranched follows _ _ step | onBranch follows _ _ step => exact key follows.state step

/-- A call whose recorded decisions allow it is authorized by the history that justifies them. -/
theorem CallJustified.authorized (h : CallJustified H t (authority tool))
    (hauth : tool.authorized = true) : Authorized H t := by
  have hanswered {d : ApprovalDecision} (hd : tool.approvalDecision = some d) :
      tool.policyDecision = some .requireApproval := by
    obtain ⟨a, -, p, q, z, x, sub, hp, -⟩ := h.answered d hd
    exact (h.policy .requireApproval).mp ⟨p, sub.subset (by simp), hp⟩
  rw [ToolCallState.authorized] at hauth
  refine ⟨⟨_, _, h.declared, h.requested⟩, ?_, fun hd => ?_, fun a ha hd => ?_⟩
  · split at hauth
    · next policy => exact .inl ((h.policy .allow).mpr policy)
    · right
      simp only [Bool.or_eq_true, beq_iff_eq] at hauth
      rcases hauth with hd | hd
      · obtain ⟨a, -, order⟩ := h.answered _ hd
        exact ⟨a, _, .inl rfl, order⟩
      · obtain ⟨a, -, order⟩ := h.answered _ hd
        exact ⟨a, _, .inr rfl, order⟩
    · cases hauth
    · cases hauth
  · have policy : tool.policyDecision = some .deny := (h.policy .deny).mp hd
    simp [policy] at hauth
  · have denied : tool.approvalDecision = some .deny :=
      h.settled a .deny ((h.asked a).mp ha) hd
    simp [hanswered denied, denied] at hauth

/-- Every accepted start is authorized by the history of the active branch, when the compaction
summaries of that history only mention calls its messages declare. -/
theorem started_authorized (accepted : Accepted log r) (starts : apply e r = .ok () r')
    {target : ExecutionTarget} {idempotency : ToolIdempotency}
    (record : e.record = .toolExecutionStarted t target idempotency)
    (summaries : SummariesDeclared r.activeHistory) : Authorized r.activeHistory t := by
  obtain ⟨q, step, -⟩ := apply_eq_ok.mp starts
  obtain ⟨s, tool, hs, lookup, authorized, -⟩ := step.started_tool record
  have justified := (accepted.lineage_active hs).justified summaries
  exact (justified.calls t (authority tool) (congrArg (Option.map authority) lookup)).authorized
    authorized

/-- Whether a message of the history declares the call. -/
def declaresCall (H : List RecordEnvelope) (t : ToolCallId) : Bool :=
  H.any fun f =>
    match f.record with
    | .messageCommitted m => m.declaredToolCalls.any (·.1 == t)
    | _ => false

theorem declaresCall_iff :
    declaresCall H t = true ↔ ∃ name arguments, Declares H t name arguments := by
  constructor
  · intro h
    obtain ⟨f, hf, h⟩ := any_eq_true.mp h
    split at h
    · next m record =>
      obtain ⟨c, hc, heq⟩ := any_eq_true.mp h
      obtain rfl := eq_of_beq heq
      exact ⟨c.2.1, c.2.2, f, hf, m, record, isAssistant_of_mem_declaredToolCalls hc, hc⟩
    · cases h
  · rintro ⟨name, arguments, f, hf, m, record, -, hc⟩
    refine any_eq_true.mpr ⟨f, hf, ?_⟩
    rw [record]
    exact any_eq_true.mpr ⟨_, hc, beq_self_eq_true t⟩

/-- Whether the compaction summaries of `after` only mention calls that the messages before them
declare, those of `before` included. -/
def summariesDeclared : List RecordEnvelope → List RecordEnvelope → Bool
  | _, [] => true
  | before, f :: after =>
    (match f.record with
      | .sessionCompacted summary _ =>
        summary.declaredToolCalls.all fun c => declaresCall before c.1
      | _ => true) && summariesDeclared (before ++ [f]) after

theorem summariesDeclared_of_check (h : summariesDeclared [] H = true) : SummariesDeclared H := by
  have key : ∀ (before after H' : List RecordEnvelope) f,
      summariesDeclared H' (before ++ f :: after) = true → ∀ summary through,
        f.record = .sessionCompacted summary through → ∀ c ∈ summary.declaredToolCalls,
          ∃ name arguments, Declares (H' ++ before) c.1 name arguments := by
    intro before
    induction before with
    | nil =>
      intro after H' f h summary through record c hc
      rw [nil_append, summariesDeclared, record, Bool.and_eq_true] at h
      rw [append_nil]
      exact declaresCall_iff.mp (all_eq_true.mp h.1 c hc)
    | cons g before ih =>
      intro after H' f h summary through record c hc
      rw [cons_append, summariesDeclared, Bool.and_eq_true] at h
      have := ih after (H' ++ [g]) f h.2 summary through record c hc
      simpa using this
  rintro before f after rfl summary through record c hc
  exact key before after [] f h summary through record c hc

/-- An assistant message with one tool-call block. -/
def declaringMessage (m t : Nat) (name : String) : CanonicalMessage :=
  .assistant ⟨m⟩ [.toolCall ⟨t⟩ none name (.object [])] .toolUse 0

/-- A call is declared, mentioned again by a compaction summary, requested and approved. -/
def approvedLog : List RecordEnvelope :=
  [numberedCreation,
    readDeclared 1 (some ⟨0⟩),
    numbered 2 (some ⟨0⟩) (.sessionCompacted (declaringMessage 1 0 "read") ⟨1⟩) rfl,
    readRequested 3 (some ⟨0⟩),
    readDecided 4 (some ⟨0⟩) .requireApproval,
    readAsked 5 (some ⟨0⟩) 100,
    numbered 6 (some ⟨0⟩) (.approvalResolved ⟨0⟩ .allowOnce) rfl]

/-- The approved call starts, and its history authorizes it. -/
theorem started_authorized_approvedLog : Authorized (reducerOf approvedLog).activeHistory ⟨0⟩ := by
  have accepted : Accepted approvedLog (reducerOf approvedLog) :=
    accepted_reducerOf (by decide +kernel)
  have starts := eq_ok_of_resultError? (x := apply
    (numbered 7 (some ⟨0⟩) (.toolExecutionStarted ⟨0⟩ .native .idempotent) rfl)
    (reducerOf approvedLog)) (by decide +kernel)
  exact started_authorized accepted starts rfl (summariesDeclared_of_check (by decide +kernel))

/-- Branch `1` never declares the call that branch `0` declares. The summary of its compaction
mentions the call, under another name, and makes it visible. -/
def summaryLog : List RecordEnvelope :=
  [numberedCreation,
    forkedAtCreation 1,
    readDeclared 2 (some ⟨0⟩),
    branchSwitched 3,
    numbered 4 (some ⟨1⟩) (.sessionCompacted (declaringMessage 1 0 "other") ⟨0⟩) rfl,
    readRequested 5 (some ⟨1⟩),
    readDecided 6 (some ⟨1⟩) .allow]

/-- The start is accepted although no message of the branch declares the call. -/
theorem started_unauthorized : ∃ r', Accepted summaryLog (reducerOf summaryLog) ∧
    apply (numbered 7 (some ⟨1⟩) (.toolExecutionStarted ⟨0⟩ .native .idempotent) rfl)
      (reducerOf summaryLog) = .ok () r' ∧
    ¬Authorized (reducerOf summaryLog).activeHistory ⟨0⟩ := by
  refine ⟨_, accepted_reducerOf (by decide +kernel),
    eq_ok_of_resultError? (by decide +kernel), fun h => ?_⟩
  obtain ⟨name, arguments, declares, -⟩ := h.requested
  have undeclared : declaresCall (reducerOf summaryLog).activeHistory ⟨0⟩ = false := by
    decide +kernel
  cases undeclared.symm.trans (declaresCall_iff.mpr ⟨name, arguments, declares⟩)

end SessionReducer

end TeaRs
