import TeaRs.Policy.Composition
import TeaRs.Session.Extension

/-!
# The side journals of a session

What the validation of a transaction establishes about the approval artifacts and the grant journal,
stated about the log as a whole: every artifact belongs to a record of the log and every issued
grant to a stored resolution. Nothing in these facts depends on how the log was split into
transactions. They determine the derived state, so that a session can be rebuilt from its journals.

## Main definitions

* `RequestedIn`: what the log says about the call of an approval at the time of its request.
* `ApprovalStep`: what an accepted approval artifact does to the derived state.
* `Linked`: an issued grant belongs to a stored resolution.
* `StoredSession.Recorded`: the journals of a session are those of its log.

## Main results

* `approvalContexts_iff`: the contexts that validation reads are those of the log.
* `ArtifactState.apply_eq_ok_iff`: when journal entries are accepted.
* `StoredSession.recorded_of_run`: successful transactions keep the journals recorded.
* `rebuild_eq_incremental`: rebuilding a session from its facts gives the session.
-/

namespace TeaRs

open StateError StoredSession SessionReducer List

/-! ### Contexts -/

/-- What the log says about the call of an approval at the time of its request. -/
def RequestedIn (log : List RecordEnvelope) (approvalId : ApprovalId) (context : ApprovalContext) :
    Prop :=
  ∃ before record toolCallId expiresAt r s tool, before ++ [record] <+: log ∧
    record.record = .approvalRequested approvalId toolCallId expiresAt ∧
    SessionReducer.Accepted (before ++ [record]) r ∧ r.state = some s ∧
    s.toolCalls[toolCallId]? = some tool ∧
    context = ⟨s.configuration.profileId, tool.toolName⟩

variable {log : List RecordEnvelope} {log' records : List RecordEnvelope} {approvalId : ApprovalId}
  {context : ApprovalContext} {r : SessionReducer} {record : RecordEnvelope}

theorem RequestedIn.mono (h : RequestedIn log approvalId context) (le : log <+: log') :
    RequestedIn log' approvalId context := by
  obtain ⟨before, record, toolCallId, expiresAt, r, s, tool, inside, rest⟩ := h
  exact ⟨before, record, toolCallId, expiresAt, r, s, tool, inside.trans le, rest⟩

theorem RequestedIn.asks (h : RequestedIn log approvalId context) :
    ∃ t, SessionReducer.Asks log approvalId t := by
  obtain ⟨before, record, toolCallId, expiresAt, r, s, tool, inside, kind, -⟩ := h
  exact ⟨toolCallId, record, inside.subset (by simp), expiresAt, kind⟩

theorem requestedIn_snoc {e : RecordEnvelope} : RequestedIn (log ++ [e]) approvalId context ↔
      RequestedIn log approvalId context ∨
        ∃ toolCallId expiresAt r s tool,
          e.record = .approvalRequested approvalId toolCallId expiresAt ∧
          SessionReducer.Accepted (log ++ [e]) r ∧ r.state = some s ∧
          s.toolCalls[toolCallId]? = some tool ∧
          context = ⟨s.configuration.profileId, tool.toolName⟩ := by
  constructor
  · rintro ⟨before, record, toolCallId, expiresAt, r, s, tool, inside, rest⟩
    rcases prefix_concat_iff.mp inside with same | inside
    · obtain ⟨rfl, last⟩ := append_inj' same rfl
      cases last
      exact .inr ⟨toolCallId, expiresAt, r, s, tool, rest⟩
    · exact .inl ⟨before, record, toolCallId, expiresAt, r, s, tool, inside, rest⟩
  · rintro (old | ⟨toolCallId, expiresAt, r, s, tool, rest⟩)
    · exact old.mono (prefix_append _ _)
    · exact ⟨log, e, toolCallId, expiresAt, r, s, tool, prefix_rfl, rest⟩

theorem contextsFrom_append {first rest : List RecordEnvelope} {t : SessionReducer}
    (run : Run (fun r e r' => apply e r = .ok () r') r first t)
    (contexts : BTreeMap ApprovalId ApprovalContext) :
    contextsFrom (first ++ rest) r contexts =
      (contextsFrom first r contexts).bind (contextsFrom rest t) := by
  induction first generalizing r contexts with
  | nil =>
    rw [Run.nil_iff.mp run]
    rfl
  | cons e first ih =>
    obtain ⟨u, step, run⟩ := Run.cons_iff.mp run
    rw [cons_append, contextsFrom_cons step, contextsFrom_cons step]
    cases noteContext e u contexts with
    | error error => rfl
    | ok contexts => exact ih run contexts

/-- The contexts that validation reads are those of the log. -/
theorem approvalContexts_iff (h : SessionReducer.Accepted log r) :
    ∃ contexts, approvalContexts log = .ok contexts ∧
      ∀ (approvalId : ApprovalId) context, contexts[approvalId]? = some context ↔
        RequestedIn log approvalId context := by
  induction h using SessionReducer.Accepted.induct with
  | nil =>
    refine ⟨∅, rfl, fun approvalId context => iff_of_false (by simp) ?_⟩
    intro requested
    obtain ⟨t, record, member, -⟩ := requested.asks
    cases member
  | @snoc log r q e before step after ih =>
    obtain ⟨contexts, read, spec⟩ := ih
    have applied : apply e r = .ok () (q.push e) :=
      apply_eq_ok.mpr ⟨q, step, rfl⟩
    have longer : approvalContexts (log ++ [e]) = noteContext e (q.push e) contexts := by
      have split : contextsFrom (log ++ [e]) new ∅ =
          (contextsFrom log new ∅).bind (contextsFrom [e] r) :=
        contextsFrom_append before ∅
      have first : contextsFrom log new ∅ = .ok contexts := read
      rw [approvalContexts, split, first]
      change contextsFrom [e] r contexts = _
      rw [contextsFrom_cons applied]
      cases noteContext e (q.push e) contexts <;> rfl
    obtain ⟨contexts', noted⟩ := noteContext_eq_ok applied contexts
    refine ⟨contexts', longer.trans noted, fun approvalId context => ?_⟩
    rw [requestedIn_snoc]
    rw [noteContext] at noted
    split at noted
    case h_2 other =>
      cases noted
      rw [spec]
      refine (or_iff_left ?_).symm
      rintro ⟨toolCallId, expiresAt, r, s, tool, record, -⟩
      exact other _ _ _ record
    case h_1 asked toolCallId expiresAt record =>
      split at noted
      · cases noted
      · next state hstate =>
        split at noted
        · cases noted
        · next tool found =>
          cases noted
          have fresh (context : ApprovalContext) : ¬ RequestedIn log asked context := by
            intro requested
            obtain ⟨t, asks⟩ := requested.asks
            rcases step.sameTables with ⟨s, p, t', -, step, -⟩ | ⟨other, -⟩
            · exact step.approval_fresh record (before.mem_approvalIds_iff.mpr ⟨t, asks⟩)
            · rw [record] at other
              cases other
          rw [BTreeMap.getElem?_insert_eq]
          split_ifs with same
          · subst same
            constructor
            · rintro ⟨⟩
              exact .inr ⟨toolCallId, expiresAt, q.push e, state, tool, record, after, hstate,
                found, rfl⟩
            · rintro (old | ⟨toolCallId', _, r', s', tool', record', accepted, hs', found', rfl⟩)
              · exact absurd old (fresh context)
              · obtain ⟨-, rfl, -⟩ :=
                  SessionRecord.approvalRequested.inj (record.symm.trans record')
                obtain rfl := accepted.eq after
                cases hstate.symm.trans hs'
                cases found.symm.trans found'
                rfl
          · rw [spec]
            refine (or_iff_left ?_).symm
            rintro ⟨_, _, _, _, _, record', -⟩
            obtain ⟨rfl, -⟩ := SessionRecord.approvalRequested.inj (record.symm.trans record')
            exact same rfl

/-! ### What an accepted delta does to the approvals -/

/-- The approval part of the derived state: the requests by approval, and the resolved approvals. -/
abbrev ApprovalTables := BTreeMap ApprovalId ApprovalRequest × BTreeSet ApprovalId

/-- The approval part of the derived state. -/
def ArtifactState.approvals (s : ArtifactState) : ApprovalTables := (s.requests, s.resolutions)

/-- An artifact is the policy value of a canonical approval request: it names the call, the session
and the lifetime of its record, and the profile and the tool that the log had for the call. -/
structure ApprovalRequest.Describes (request : ApprovalRequest) (log : List RecordEnvelope)
    (record : RecordEnvelope) : Prop where
  record_eq : record.record =
    .approvalRequested request.approvalId request.toolCallId request.expiresAt
  sessionId_eq : request.sessionId = record.sessionId
  createdAt_eq : request.createdAt = record.timestamp
  context : RequestedIn log request.approvalId ⟨request.profileId, request.toolName.asStr⟩

/-- A resolution is the policy value of a canonical resolution. -/
structure ApprovalResolution.Describes (resolution : ApprovalResolution) (record : RecordEnvelope) :
    Prop where
  record_eq : record.record = .approvalResolved resolution.request.approvalId resolution.decision
  decidedAt_eq : resolution.decidedAt = record.timestamp

/-- What an accepted approval artifact does: it describes one of the records, and it is the first
request of its approval, or the first resolution of a stored request. -/
inductive ApprovalStep (log records : List RecordEnvelope) (tables : ApprovalTables) :
    ApprovalArtifactEntry → ApprovalTables → Prop
  | requested {record : RecordEnvelope} {request : ApprovalRequest}
      {format : Option FinalOutputFormat} (member : record ∈ records)
      (describes : request.Describes log record) (fresh : request.approvalId ∉ tables.1) :
      ApprovalStep log records tables (.requested record.recordId request format)
        (tables.1.insert request.approvalId request, tables.2)
  | resolved {record : RecordEnvelope} {resolution : ApprovalResolution}
      (member : record ∈ records) (describes : resolution.Describes record)
      (known : tables.1[resolution.request.approvalId]? = some resolution.request)
      (fresh : resolution.request.approvalId ∉ tables.2) :
      ApprovalStep log records tables (.resolved record.recordId resolution)
        (tables.1, tables.2.insert resolution.request.approvalId)

theorem ApprovalRequest.Describes.mono {request : ApprovalRequest}
    (h : request.Describes log record) (le : log <+: log') :
    request.Describes log' record :=
  ⟨h.record_eq, h.sessionId_eq, h.createdAt_eq, h.context.mono le⟩

theorem ApprovalStep.mono {records' : List RecordEnvelope}
    {tables tables' : ApprovalTables} {entry : ApprovalArtifactEntry}
    (h : ApprovalStep log records tables entry tables') (le : log <+: log')
    (sub : records ⊆ records') : ApprovalStep log' records' tables entry tables' := by
  cases h with
  | requested member describes fresh => exact .requested (sub member) (describes.mono le) fresh
  | resolved member describes known fresh => exact .resolved (sub member) describes known fresh

theorem recordIndex_eq_some_iff (nodup : (records.map (·.recordId)).Nodup) {id : RecordId} :
    (recordIndex records)[id]? = some record ↔ record ∈ records ∧ record.recordId = id := by
  induction records using reverseRecOn with
  | nil => simp [recordIndex]
  | append_singleton records last ih =>
    have longer : recordIndex (records ++ [last]) =
        (recordIndex records).insert last.recordId last := foldl_concat ..
    rw [map_append, nodup_append'] at nodup
    rw [longer, BTreeMap.getElem?_insert_eq]
    have fresh : ∀ e ∈ records, e.recordId ≠ last.recordId := fun e he same =>
      nodup.2.2 (mem_map_of_mem he) (by simp [same])
    split_ifs with hid
    · subst hid
      simp only [Option.some.injEq, mem_append, mem_singleton]
      constructor
      · rintro rfl
        exact ⟨.inr rfl, rfl⟩
      · rintro ⟨old | rfl, same⟩
        · exact absurd same (fresh record old)
        · rfl
    · rw [ih nodup.1]
      simp only [mem_append, mem_singleton]
      constructor
      · rintro ⟨member, same⟩
        exact ⟨.inl member, same⟩
      · rintro ⟨member | rfl, same⟩
        · exact ⟨member, same⟩
        · exact absurd same.symm hid

variable {sessionId : SessionId} {s t : ArtifactState} {entries : List GrantJournalEntry}

namespace ArtifactState

variable {resolutions : BTreeMap RecordId ApprovalResolution}

section Approvals

variable {contexts : BTreeMap ApprovalId ApprovalContext} {u : Unit}
  {approvals : List ApprovalArtifactEntry} {resolutions' : BTreeMap RecordId ApprovalResolution}

theorem applyRequest_eq_ok_iff
    (read : ∀ (a : ApprovalId) c, contexts[a]? = some c ↔ RequestedIn log a c)
    (session : record.sessionId = sessionId) {request : ApprovalRequest}
    {toolCallId : ToolCallId} {expiresAt : ProtocolTimestamp}
    (kind : record.record = .approvalRequested approvalId toolCallId expiresAt) :
    applyRequest sessionId record request approvalId toolCallId expiresAt contexts s = .ok u t ↔
      request.Describes log record ∧ approvalId ∉ s.requests ∧
        t = { s with requests := s.requests.insert approvalId request } := by
  simp only [applyRequest, bind_eq_ok, okOr_eq_ok, ensure_eq_ok, get_run, modify_run,
    EStateM.Result.ok.injEq, Bool.and_eq_true, beq_iff_eq, Bool.not_eq_true',
    BTreeMap.contains_eq_false_iff]
  constructor
  · rintro ⟨context, _, ⟨found, rfl⟩, _, _, ⟨agrees, rfl⟩, _, _, ⟨rfl, rfl⟩, _, _, ⟨-, rfl⟩, fresh,
      rfl⟩
    obtain ⟨⟨⟨⟨⟨⟨rfl, rfl⟩, same⟩, rfl⟩, created⟩, profile⟩, tool⟩ := agrees
    refine ⟨⟨kind, same.trans session.symm, created, ?_⟩, fresh, rfl⟩
    rw [profile, tool]
    exact (read _ _).mp found
  · rintro ⟨describes, fresh, rfl⟩
    obtain ⟨rfl, rfl, rfl⟩ :=
      SessionRecord.approvalRequested.inj (kind.symm.trans describes.record_eq)
    exact ⟨_, s, ⟨(read _ _).mpr describes.context, rfl⟩, (), s,
      ⟨⟨⟨⟨⟨⟨⟨rfl, rfl⟩, describes.sessionId_eq.trans session⟩, rfl⟩, describes.createdAt_eq⟩, rfl⟩,
        rfl⟩, rfl⟩, s, s, ⟨rfl, rfl⟩, ⟨⟩, _, ⟨trivial, rfl⟩, fresh, rfl⟩

theorem applyResolution_eq_ok_iff {resolution : ApprovalResolution} {decision : ApprovalDecision}
    (kind : record.record = .approvalResolved approvalId decision) :
    applyResolution record resolution approvalId decision s = .ok u t ↔
      resolution.Describes record ∧ s.requests[approvalId]? = some resolution.request ∧
        approvalId ∉ s.resolutions ∧
        t = { s with resolutions := s.resolutions.insert approvalId } := by
  simp only [applyResolution, bind_eq_ok, okOr_eq_ok, ensure_eq_ok, get_run, modify_run,
    EStateM.Result.ok.injEq, Bool.and_eq_true, beq_iff_eq, Bool.not_eq_true',
    BTreeSet.contains_eq_false_iff]
  constructor
  · rintro ⟨_, _, ⟨rfl, rfl⟩, request, _, ⟨found, rfl⟩, _, _, ⟨agrees, rfl⟩, _, _, ⟨rfl, rfl⟩, _, _,
      ⟨-, rfl⟩, fresh, rfl⟩
    obtain ⟨⟨⟨rfl, rfl⟩, decided⟩, rfl⟩ := agrees
    exact ⟨⟨kind, decided⟩, found, fresh, rfl⟩
  · rintro ⟨describes, found, fresh, rfl⟩
    obtain ⟨rfl, rfl⟩ := SessionRecord.approvalResolved.inj (kind.symm.trans describes.record_eq)
    exact ⟨s, s, ⟨rfl, rfl⟩, _, s, ⟨found, rfl⟩, (), s,
      ⟨⟨⟨⟨rfl, rfl⟩, describes.decidedAt_eq⟩, rfl⟩, rfl⟩, s, s, ⟨rfl, rfl⟩, ⟨⟩, _, ⟨trivial, rfl⟩,
      fresh, rfl⟩

/-- The resolutions of approval artifacts by their record, added to the ones before. -/
def collectResolutions (approvals : List ApprovalArtifactEntry)
    (resolutions : BTreeMap RecordId ApprovalResolution) : BTreeMap RecordId ApprovalResolution :=
  approvals.foldl (fun resolutions entry =>
    match entry with
    | .requested .. => resolutions
    | .resolved recordId resolution => resolutions.insert recordId resolution) resolutions

theorem eq_of_approvals_of_grants (h : s.approvals = t.approvals) (grants : s.grants = t.grants) :
    s = t := by
  obtain ⟨requests, resolutions, _⟩ := s
  obtain ⟨_, _, _⟩ := t
  cases h
  cases grants
  rfl

theorem applyApprovals_cons_eq_ok_iff {entry : ApprovalArtifactEntry}
    (read : ∀ (a : ApprovalId) c, contexts[a]? = some c ↔ RequestedIn log a c)
    (session : ∀ e ∈ records, e.sessionId = sessionId) (nodup : (records.map (·.recordId)).Nodup) :
    applyApprovals sessionId (recordIndex records) contexts (entry :: approvals) resolutions s =
        .ok resolutions' t ↔
      ∃ mid : ArtifactState, ApprovalStep log records s.approvals entry mid.approvals ∧
        mid.grants = s.grants ∧
        applyApprovals sessionId (recordIndex records) contexts approvals
          (collectResolutions [entry] resolutions) mid = .ok resolutions' t := by
  simp only [applyApprovals, bind_eq_ok, okOr_eq_ok, recordIndex_eq_some_iff nodup]
  constructor
  · rintro ⟨record, _, ⟨⟨member, id⟩, rfl⟩, rest⟩
    cases entry <;> cases kind : record.record <;> simp only [kind] at rest <;> try cases rest
    case requested.approvalRequested recordId request format a c x =>
      obtain rfl : record.recordId = recordId := id
      obtain ⟨_, mid, first, rest⟩ := bind_eq_ok.mp rest
      obtain ⟨describes, fresh, rfl⟩ :=
        (applyRequest_eq_ok_iff read (session record member) kind).mp first
      obtain ⟨rfl, -, -⟩ :=
        SessionRecord.approvalRequested.inj (kind.symm.trans describes.record_eq)
      refine ⟨_, ?_, ?_, rest⟩
      · exact .requested member describes fresh
      · rfl
    case resolved.approvalResolved recordId resolution a decision =>
      obtain rfl : record.recordId = recordId := id
      obtain ⟨_, mid, first, rest⟩ := bind_eq_ok.mp rest
      obtain ⟨describes, known, fresh, rfl⟩ := (applyResolution_eq_ok_iff kind).mp first
      obtain ⟨rfl, -⟩ :=
        SessionRecord.approvalResolved.inj (kind.symm.trans describes.record_eq)
      refine ⟨_, ?_, ?_, rest⟩
      · exact .resolved member describes known fresh
      · rfl
  · rintro ⟨mid, step, grants, rest⟩
    generalize hmid : mid.approvals = tables at step
    cases step with
    | @requested record request format member describes fresh =>
      refine ⟨record, s, ⟨⟨member, rfl⟩, rfl⟩, ?_⟩
      have first : applyRequest sessionId record request request.approvalId request.toolCallId
          request.expiresAt contexts s = .ok () mid :=
        (applyRequest_eq_ok_iff read (session record member) describes.record_eq).mpr
          ⟨describes, fresh, eq_of_approvals_of_grants hmid grants⟩
      simp only [describes.record_eq, bind_run, first]
      exact rest
    | @resolved record resolution member describes known fresh =>
      refine ⟨record, s, ⟨⟨member, rfl⟩, rfl⟩, ?_⟩
      have first : applyResolution record resolution resolution.request.approvalId
          resolution.decision s = .ok () mid :=
        (applyResolution_eq_ok_iff describes.record_eq).mpr
          ⟨describes, known, fresh, eq_of_approvals_of_grants hmid grants⟩
      simp only [describes.record_eq, bind_run, first]
      exact rest

theorem applyApprovals_eq_ok_iff
    (read : ∀ (a : ApprovalId) c, contexts[a]? = some c ↔ RequestedIn log a c)
    (session : ∀ e ∈ records, e.sessionId = sessionId) (nodup : (records.map (·.recordId)).Nodup) :
    applyApprovals sessionId (recordIndex records) contexts approvals resolutions s =
        .ok resolutions' t ↔
      Run (ApprovalStep log records) s.approvals approvals t.approvals ∧ t.grants = s.grants ∧
        resolutions' = collectResolutions approvals resolutions := by
  induction approvals generalizing resolutions s with
  | nil =>
    rw [Run.nil_iff]
    constructor
    · intro h
      cases h
      exact ⟨rfl, rfl, rfl⟩
    · rintro ⟨tables, grants, rfl⟩
      rw [eq_of_approvals_of_grants tables grants]
      rfl
  | cons entry approvals ih =>
    rw [applyApprovals_cons_eq_ok_iff read session nodup, Run.cons_iff]
    simp only [ih]
    constructor
    · rintro ⟨mid, step, same, run, grants, rfl⟩
      exact ⟨⟨mid.approvals, step, run⟩, grants.trans same, rfl⟩
    · rintro ⟨⟨tables, step, run⟩, grants, rfl⟩
      exact ⟨⟨tables.1, tables.2, s.grants⟩, step, rfl, run, grants, rfl⟩

end Approvals

/-! ### What an accepted delta does to the grants -/

section Grants

/-- The approval records whose grant was issued, added to the ones before. -/
def collectIssued (entries : List GrantJournalEntry) (issued : BTreeSet RecordId) :
    BTreeSet RecordId :=
  entries.foldl (fun issued entry =>
    match entry with
    | .issued recordId _ => issued.insert recordId
    | .revoked _ => issued) issued

/-- An entry issues only the grant of a resolution. -/
def Backed (resolutions : BTreeMap RecordId ApprovalResolution) (entry : GrantJournalEntry) :
    Prop :=
  ∀ recordId grant, entry = .issued recordId grant →
    ∃ resolution, resolutions[recordId]? = some resolution ∧ resolution.issuedGrant = some grant

variable {recordId : RecordId} {grant : PolicyGrant} {u : Unit} {issued : BTreeSet RecordId}

theorem applyIssue_eq_ok_iff : applyIssue resolutions recordId grant s = .ok u t ↔
      (∃ resolution, resolutions[recordId]? = some resolution ∧
        resolution.issuedGrant = some grant) ∧
      GrantStep s.grants (.issued recordId grant) t.grants ∧ t.approvals = s.approvals := by
  simp only [applyIssue, bind_eq_ok, okOr_eq_ok, ensure_eq_ok, get_run, modify_run,
    EStateM.Result.ok.injEq, Bool.and_eq_true, beq_iff_eq, Option.isNone_iff_eq_none,
    Bool.not_eq_true', BTreeMap.contains_eq_false_iff]
  constructor
  · rintro ⟨resolution, _, ⟨found, rfl⟩, _, _, ⟨⟨grants, active⟩, rfl⟩, _, _, ⟨rfl, rfl⟩, _, _,
      ⟨-, rfl⟩, fresh, rfl⟩
    exact ⟨⟨resolution, found, grants⟩, .issued fresh active, rfl⟩
  · rintro ⟨⟨resolution, found, grants⟩, step, same⟩
    generalize after : t.grants = grants' at step
    cases step with
    | issued fresh active =>
      exact ⟨resolution, s, ⟨found, rfl⟩, (), s, ⟨⟨grants, active⟩, rfl⟩, s, s, ⟨rfl, rfl⟩, ⟨⟩, _,
        ⟨trivial, rfl⟩, fresh, eq_of_approvals_of_grants same.symm after.symm⟩

theorem applyRevocation_eq_ok_iff : applyRevocation grant s = .ok u t ↔
      GrantStep s.grants (.revoked grant) t.grants ∧ t.approvals = s.approvals := by
  simp only [applyRevocation, bind_eq_ok, okOr_eq_ok, ensure_eq_ok, get_run, modify_run,
    EStateM.Result.ok.injEq, Bool.and_eq_true, Option.isNone_iff_eq_none]
  constructor
  · rintro ⟨_, _, ⟨rfl, rfl⟩, issued, _, ⟨known, rfl⟩, _, _, ⟨⟨⟨active, ended⟩, same⟩, rfl⟩, -, rfl⟩
    exact ⟨.revoked known active ended same, rfl⟩
  · rintro ⟨step, tables⟩
    generalize after : t.grants = grants' at step
    cases step with
    | revoked known active ended same =>
      exact ⟨s, s, ⟨rfl, rfl⟩, _, s, ⟨known, rfl⟩, (), s, ⟨⟨⟨active, ended⟩, same⟩, rfl⟩, trivial,
        eq_of_approvals_of_grants tables.symm after.symm⟩

theorem applyEntries_eq_ok_iff {issued' : BTreeSet RecordId} :
    applyEntries resolutions entries issued s = .ok issued' t ↔
      Run GrantStep s.grants entries t.grants ∧ t.approvals = s.approvals ∧
        (∀ entry ∈ entries, Backed resolutions entry) ∧ issued' = collectIssued entries issued := by
  induction entries generalizing issued s with
  | nil =>
    rw [Run.nil_iff]
    constructor
    · intro h
      cases h
      exact ⟨rfl, rfl, by simp, rfl⟩
    · rintro ⟨grants, tables, -, rfl⟩
      rw [eq_of_approvals_of_grants tables grants]
      rfl
  | cons entry entries ih =>
    rw [Run.cons_iff, forall_mem_cons]
    cases entry with
    | issued recordId grant =>
      simp only [applyEntries, bind_eq_ok, applyIssue_eq_ok_iff, ih]
      constructor
      · rintro ⟨_, mid, ⟨backed, step, same⟩, run, tables, rest, rfl⟩
        refine ⟨⟨mid.grants, step, run⟩, tables.trans same, ⟨?_, rest⟩, rfl⟩
        rintro _ _ ⟨⟩
        exact backed
      · rintro ⟨⟨grants, step, run⟩, tables, ⟨backed, rest⟩, rfl⟩
        exact ⟨(), { s with grants }, ⟨backed _ _ rfl, step, rfl⟩, run, tables, rest, rfl⟩
    | revoked grant =>
      simp only [applyEntries, bind_eq_ok, applyRevocation_eq_ok_iff, ih]
      constructor
      · rintro ⟨_, mid, ⟨step, same⟩, run, tables, rest, rfl⟩
        refine ⟨⟨mid.grants, step, run⟩, tables.trans same, ⟨?_, rest⟩, rfl⟩
        rintro _ _ ⟨⟩
      · rintro ⟨⟨grants, step, run⟩, tables, ⟨-, rest⟩, rfl⟩
        exact ⟨(), { s with grants }, ⟨step, rfl⟩, run, tables, rest, rfl⟩

theorem mem_collectIssued : recordId ∈ collectIssued entries issued ↔
      recordId ∈ issued ∨ ∃ grant, .issued recordId grant ∈ entries := by
  induction entries using reverseRecOn with
  | nil => simp [collectIssued]
  | append_singleton entries last ih =>
    rw [collectIssued, foldl_concat]
    cases last with
    | issued other grant =>
      have := BTreeSet.mem_insert_iff (a := recordId) (k := other)
        (m := collectIssued entries issued)
      simp only [mem_append, mem_singleton]
      refine this.trans ?_
      rw [ih]
      constructor
      · rintro (rfl | old | ⟨grant, old⟩)
        · exact .inr ⟨grant, .inr rfl⟩
        · exact .inl old
        · exact .inr ⟨grant, .inl old⟩
      · rintro (old | ⟨grant, old | ⟨⟨⟩⟩⟩)
        · exact .inr (.inl old)
        · exact .inr (.inr ⟨grant, old⟩)
        · exact .inl rfl
    | revoked grant =>
      simp only [mem_append, mem_singleton, reduceCtorEq, or_false]
      exact ih

end Grants

/-- The collected resolutions are those of the artifacts, if no two artifacts name one record. -/
theorem getElem?_collectResolutions {approvals : List ApprovalArtifactEntry}
    (nodup : (approvals.map (·.recordId)).Nodup) {recordId : RecordId}
    {resolution : ApprovalResolution} :
    (collectResolutions approvals ∅)[recordId]? = some resolution ↔
      .resolved recordId resolution ∈ approvals := by
  induction approvals using reverseRecOn with
  | nil => simp [collectResolutions]
  | append_singleton approvals last ih =>
    rw [map_append, nodup_append'] at nodup
    have earlier := ih nodup.1
    rw [collectResolutions, foldl_concat]
    cases last with
    | requested other request format =>
      simp only [mem_append, mem_singleton, reduceCtorEq, or_false]
      exact earlier
    | resolved other decided =>
      change ((collectResolutions approvals ∅).insert other decided)[recordId]? = _ ↔ _
      rw [BTreeMap.getElem?_insert_eq]
      simp only [mem_append, mem_singleton, ApprovalArtifactEntry.resolved.injEq]
      split_ifs with same
      · subst same
        have fresh : .resolved recordId resolution ∉ approvals := fun old =>
          nodup.2.2 (mem_map_of_mem old) (by simp [ApprovalArtifactEntry.recordId])
        simp [fresh, eq_comm]
      · simp [same, earlier]

end ArtifactState

/-! ### Journals as a whole -/

/-- Every issued grant is the one of a stored resolution. -/
def Linked (approvals : List ApprovalArtifactEntry) (entries : List GrantJournalEntry) : Prop :=
  ∀ recordId grant, .issued recordId grant ∈ entries →
    ∃ resolution, .resolved recordId resolution ∈ approvals ∧ resolution.issuedGrant = some grant

/-- Every resolution with a grant has its entry. -/
def Complete (approvals : List ApprovalArtifactEntry) (entries : List GrantJournalEntry) : Prop :=
  ∀ recordId resolution, .resolved recordId resolution ∈ approvals →
    resolution.issuedGrant ≠ none → ∃ grant, .issued recordId grant ∈ entries

/-- The journal entries are accepted after the derived state `s`, for the given records of a log. -/
structure ArtifactState.Extends (log records : List RecordEnvelope)
    (approvals : List ApprovalArtifactEntry) (entries : List GrantJournalEntry)
    (s t : ArtifactState) : Prop where
  approved : Run (ApprovalStep log records) s.approvals approvals t.approvals
  granted : Run GrantStep s.grants entries t.grants
  linked : Linked approvals entries
  complete : Complete approvals entries

namespace ArtifactState

variable {records' : List RecordEnvelope} {approvals approvals' : List ApprovalArtifactEntry}
  {entries' : List GrantJournalEntry} {u : ArtifactState}

/-- When the journal entries of a transaction are accepted. Only the records that the artifacts name
and the contexts of the whole log matter. -/
theorem apply_eq_ok_iff (h : SessionReducer.Accepted log r)
    (session : ∀ e ∈ records, e.sessionId = sessionId)
    (nodup : (records.map (·.recordId)).Nodup) (distinct : (approvals.map (·.recordId)).Nodup) :
    apply sessionId log records approvals entries s = .ok () t ↔
      Extends log records approvals entries s t := by
  obtain ⟨contexts, read, spec⟩ := approvalContexts_iff h
  have backed : (∀ entry ∈ entries, Backed (collectResolutions approvals ∅) entry) ↔
      Linked approvals entries := by
    simp only [Backed, Linked, getElem?_collectResolutions distinct]
    constructor
    · intro backed recordId grant member
      exact backed _ member _ _ rfl
    · rintro linked _ member recordId grant rfl
      exact linked recordId grant member
  have complete : ((collectResolutions approvals ∅).toList.all fun resolved =>
      resolved.2.issuedGrant.isNone || (collectIssued entries ∅).contains resolved.1) = true ↔
      Complete approvals entries := by
    simp only [all_eq_true, Prod.forall, Std.ExtTreeMap.mem_toList_iff_getElem?_eq_some,
      getElem?_collectResolutions distinct, Complete, Bool.or_eq_true, Option.isNone_iff_eq_none]
    refine forall₃_congr fun recordId resolution member => ?_
    rw [← Std.ExtTreeSet.mem_iff_contains, mem_collectIssued]
    simp only [Std.ExtTreeSet.not_mem_empty, false_or]
    tauto
  have unfolded : apply sessionId log records approvals entries s =
      (applyApprovals sessionId (recordIndex records) contexts approvals ∅ >>=
        applyGrants entries) s := by
    rw [apply, bind_run, propagate_eq_ok.mpr ⟨read, rfl⟩]
  simp only [unfolded, applyGrants, bind_eq_ok, ensure_eq_ok,
    applyApprovals_eq_ok_iff spec session nodup, applyEntries_eq_ok_iff]
  constructor
  · rintro ⟨_, mid, ⟨approved, same, rfl⟩, _, _, ⟨granted, tables, linked, rfl⟩, all, rfl⟩
    rw [← tables] at approved
    rw [same] at granted
    exact ⟨approved, granted, backed.mp linked, complete.mp all⟩
  · rintro ⟨approved, granted, linked, all⟩
    exact ⟨_, { t with grants := s.grants }, ⟨approved, rfl, rfl⟩, _, t,
      ⟨granted, rfl, backed.mpr linked, rfl⟩, complete.mpr all, rfl⟩

/-- What a delta establishes does not depend on how the journals are split. -/
theorem Extends.append (first : Extends log records approvals entries s t)
    (second : Extends log' records' approvals' entries' t u) (le : log <+: log') :
    Extends log' (records ++ records') (approvals ++ approvals') (entries ++ entries') s u := by
  refine ⟨Run.append_iff.mpr ⟨t.approvals, ?_, ?_⟩,
    Run.append_iff.mpr ⟨t.grants, first.granted, second.granted⟩, ?_, ?_⟩
  · exact first.approved.mono fun _ _ _ step => step.mono le (subset_append_left _ _)
  · exact second.approved.mono fun _ _ _ step =>
      step.mono prefix_rfl (subset_append_right _ _)
  · intro recordId grant member
    rcases mem_append.mp member with member | member
    · obtain ⟨resolution, stored, issued⟩ := first.linked recordId grant member
      exact ⟨resolution, mem_append_left _ stored, issued⟩
    · obtain ⟨resolution, stored, issued⟩ := second.linked recordId grant member
      exact ⟨resolution, mem_append_right _ stored, issued⟩
  · intro recordId resolution member issued
    rcases mem_append.mp member with member | member
    · obtain ⟨grant, entry⟩ := first.complete recordId resolution member issued
      exact ⟨grant, mem_append_left _ entry⟩
    · obtain ⟨grant, entry⟩ := second.complete recordId resolution member issued
      exact ⟨grant, mem_append_right _ entry⟩

end ArtifactState

/-- The journals of a session are those of its log: everything the validation of the transactions
established holds of the log as a whole. -/
structure StoredSession.Recorded (stored : StoredSession) : Prop where
  consistent : stored.Consistent
  indexed : stored.JournalsIndexed
  journals : ArtifactState.Extends stored.records stored.records stored.approvalArtifacts
    stored.grantJournal .empty stored.artifacts
  bounded : stored.journalRevision < 2 ^ 64

theorem StoredSession.recorded_empty : empty.Recorded where
  consistent := .mk .nil rfl
  indexed := journalsIndexed_empty
  journals := ⟨.nil, .nil, by simp [Linked, empty],
    by simp [Complete, empty]⟩
  bounded := Nat.two_pow_pos 64

namespace Committed

variable {transaction : AppendTransaction} {existed : Bool} {grantIdInUse : GrantId → Bool}
  {stored stored' : StoredSession} {outcome : AppendOutcome}

/-- The journal entries of a committed transaction extend the derived state. -/
theorem extends_artifacts (h : Committed transaction existed grantIdInUse stored outcome stored') :
    ArtifactState.Extends (stored.records ++ transaction.records) transaction.records
      transaction.approvalArtifacts transaction.grantEntries stored.artifacts
      stored'.artifacts := by
  have nodup := h.accepted.nodup
  rw [map_append] at nodup
  exact (ArtifactState.apply_eq_ok_iff h.accepted
    (fun e he =>
      sessionId_eq_of_validateTransactionShape (guardTransaction_eq_ok.mp h.guarded).1 he)
    nodup.of_append_right (ArtifactState.recordIds_of_apply h.artifacts).1).mp h.artifacts

theorem recorded (h : Committed transaction existed grantIdInUse stored outcome stored')
    (before : stored.Recorded) : stored'.Recorded where
  consistent := h.consistent before.consistent
  indexed := h.journalsIndexed before.indexed
  journals := by
    rw [h.records, h.approvalArtifacts, h.grantJournal]
    exact before.journals.append h.extends_artifacts (prefix_append _ _)
  bounded := by
    rw [h.journalRevision]
    exact lt_of_nextJournalRevision_eq_ok (guardTransaction_eq_ok.mp h.guarded).2.2.2.2

end Committed

/-- Successful transactions keep the journals recorded. -/
theorem StoredSession.recorded_of_run {calls : List TransactionCall} {stored : StoredSession}
    (run : Run TransactionCall.Succeeds .empty calls stored) : stored.Recorded := by
  refine run.invariant recorded_empty fun stored call stored' before step => ?_
  obtain ⟨outcome, ok⟩ := step
  exact (before.consistent.committed_of_ok ok).recorded before

/-! ### Rebuilding a session -/

theorem ApprovalStep.tables_eq {tables : ApprovalTables} {entry : ApprovalArtifactEntry}
    (h : ApprovalStep log records s.approvals entry tables) :
    tables = (s.recordApproval entry).approvals := by
  cases h <;> rfl

namespace ArtifactState

variable {approvals : List ApprovalArtifactEntry}

theorem approvals_foldl_recordApproval
    (run : Run (ApprovalStep log records) empty.approvals approvals s.approvals) :
    (approvals.foldl recordApproval empty).approvals = s.approvals := by
  generalize s.approvals = tables at run
  induction run with
  | nil => rfl
  | snoc run last ih =>
    rw [foldl_concat]
    rw [← ih] at last
    exact last.tables_eq.symm

theorem approvals_foldl_recordGrant : (entries.foldl recordGrant s).approvals = s.approvals := by
  induction entries generalizing s with
  | nil => rfl
  | cons entry entries ih => exact ih

theorem Extends.rebuildFromJournals_eq (h : Extends log records approvals entries empty s) :
    rebuildFromJournals approvals entries = s := by
  refine eq_of_approvals_of_grants ?_ ?_
  · rw [rebuildFromJournals, approvals_foldl_recordGrant]
    exact approvals_foldl_recordApproval h.approved
  · rw [grants_rebuildFromJournals]
    have granted : Run GrantStep (journaledGrants []) entries s.grants := h.granted
    exact (GrantStep.journaledGrants_of_run granted).symm

end ArtifactState

theorem StoredSession.Recorded.fromDurableFacts_eq_ok {stored : StoredSession}
    (h : stored.Recorded) (nonempty : stored.records ≠ []) :
    fromDurableFacts stored.records stored.approvalArtifacts stored.grantJournal =
      .ok stored := by
  have counted : checkedAdd stored.approvalArtifacts.length stored.grantJournal.length =
      some stored.journalRevision := by
    rw [h.consistent.revision]
    exact if_pos (h.consistent.revision ▸ h.bounded)
  simp only [fromDurableFacts, replayReducer_eq h.consistent.accepted nonempty,
    counted, h.journals.rebuildFromJournals_eq]

/-- A session that successful transactions lead to, at least one of them, is rebuilt from its
records, its approval artifacts and its grant journal: the rebuilt value is the session itself, with
the same materialized state, grants, known requests and resolutions and journal revision, and
answers every later transaction alike. -/
theorem rebuild_eq_incremental {calls : List TransactionCall} {stored : StoredSession}
    (run : Run TransactionCall.Succeeds .empty calls stored) (started : calls ≠ []) :
    fromDurableFacts stored.records stored.approvalArtifacts stored.grantJournal =
      .ok stored := by
  refine (recorded_of_run run).fromDurableFacts_eq_ok ?_
  obtain ⟨earlier, last, rfl⟩ := eq_nil_or_concat calls |>.resolve_left started
  rw [concat_eq_append] at run
  obtain ⟨before, init, outcome, ok⟩ := Run.snoc_iff.mp run
  have committed := (consistent_of_run init).committed_of_ok ok
  rw [committed.records]
  exact records_ne_nil_of_validateExpectation (guardTransaction_eq_ok.mp committed.guarded).2.1

/-! ### Sessions that were granted reading -/

/-- The request to read below the workspace, in a session. -/
def grantedRequest (sessionId : SessionId) : ApprovalRequest :=
  .toReadNotes sessionId 4 600004 (by decide)

/-- The approval of the request for its session. -/
def grantedResolution (sessionId : SessionId) (grantId : GrantId) : ApprovalResolution where
  request := grantedRequest sessionId
  decision := .allowSession
  decidedAt := 5
  issuedGrant := some (PolicyEngine.readGrant grantId sessionId)
  decidedAt_valid := by
    change (4 : Int) ≤ 5 ∧ (5 : Int) < 600004
    decide
  decision_valid := fun _ => rfl
  grant_valid := by
    intro grant hgrant
    cases hgrant
    have covered : (grantedRequest ⟨0⟩).admitsGrant 5 (PolicyEngine.readGrant ⟨0⟩ ⟨0⟩) = true := by
      decide +kernel
    exact covered

/-- A session that is created, declares a call to read, asks for it and is granted reading. -/
def grantingTransaction (sessionId : SessionId) (grantId : GrantId) : AppendTransaction where
  sessionId := sessionId
  expectedSequence := none
  records := map (fun record => { record with sessionId })
    [unbranchedCreation,
      readDeclared 1 none,
      readRequested 2 none,
      readDecided 3 none .requireApproval,
      readAsked 4 none 600004,
      numbered 5 none (.approvalResolved ⟨0⟩ .allowSession) rfl]
  expectedJournalRevision := some 0
  approvalArtifacts := [.requested ⟨4⟩ (grantedRequest sessionId) none,
    .resolved ⟨5⟩ (grantedResolution sessionId grantId)]
  grantEntries := [.issued ⟨5⟩ (PolicyEngine.readGrant grantId sessionId)]

/-- The grant to read, revoked. -/
def revokedGrant (sessionId : SessionId) (grantId : GrantId) : PolicyGrant :=
  { PolicyEngine.readGrant grantId sessionId with
    revokedAt := some 6
    revokedAt_valid := by
      intro t ht
      cases ht
      change (0 : Int) ≤ 6
      decide }

/-- The grant of a session is revoked. -/
def revokingTransaction (sessionId : SessionId) (grantId : GrantId) : AppendTransaction where
  sessionId := sessionId
  expectedSequence := some 5
  records := []
  expectedJournalRevision := some 3
  approvalArtifacts := []
  grantEntries := [.revoked (revokedGrant sessionId grantId)]

/-- The stored session after it was granted reading. -/
def grantedSession : StoredSession :=
  resultState (applyTransactionInPlace (grantingTransaction ⟨1⟩ ⟨0⟩) false (fun _ => false) .empty)

/-- The stored session after the grant was revoked. -/
def revokedSession : StoredSession :=
  resultState
    (applyTransactionInPlace (revokingTransaction ⟨1⟩ ⟨0⟩) true (fun _ => false) grantedSession)

/-- A session with an approval, a grant and its revocation is rebuilt from its facts. -/
theorem rebuild_eq_incremental_revoked :
    fromDurableFacts revokedSession.records revokedSession.approvalArtifacts
        revokedSession.grantJournal = .ok revokedSession ∧
      revokedSession.grantJournal.length = 2 ∧ revokedSession.artifacts.activeGrants = [] := by
  have granted : TransactionCall.Succeeds .empty
      ⟨grantingTransaction ⟨1⟩ ⟨0⟩, false, fun _ => false⟩ grantedSession :=
    exists_eq_ok_of_resultError? (by decide +kernel)
  have revoked : TransactionCall.Succeeds grantedSession
      ⟨revokingTransaction ⟨1⟩ ⟨0⟩, true, fun _ => false⟩ revokedSession :=
    exists_eq_ok_of_resultError? (by decide +kernel)
  exact ⟨rebuild_eq_incremental (.snoc (.snoc .nil granted) revoked) (by simp),
    by decide +kernel, by decide +kernel⟩

/-- Before its first transaction a session is empty, and an empty log is not replayed. -/
theorem fromDurableFacts_empty : Run TransactionCall.Succeeds .empty [] empty ∧
      fromDurableFacts empty.records
        empty.approvalArtifacts empty.grantJournal =
          .error (.error ⟨.corruptionDetected, "session log is empty"⟩) :=
  ⟨.nil, by decide +kernel⟩

end TeaRs
