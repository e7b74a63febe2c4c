import TeaRs.Policy.Approval
import TeaRs.Session.Replay

/-!
# Approval artifacts and the grant journal

The two side journals of a session and the authorization state derived from them, after
`tea-session/src/artifact.rs`. An approval artifact is the full policy value behind a canonical
approval record of the same transaction; a journal entry issues or revokes a grant. Each is checked
against the record it names, against the approvals stored before it and against the grants issued
before it.

## Main definitions

* `ApprovalArtifactEntry`, `GrantJournalEntry`, `ArtifactState`.
* `ArtifactState.apply`, with `approvalContexts`, `ArtifactState.applyApprovals` and
  `ArtifactState.applyGrants`.
* `ArtifactState.rebuildFromJournals`, `ArtifactState.activeGrants`.
* `GrantStep`: what an accepted journal entry does to the grants.

## Main results

* `approvalContexts_ne_panic`: reading the contexts of an accepted log does not panic.
* `ArtifactState.run_grantStep_of_apply`: an accepted delta is a run of grant steps.
* `ArtifactState.grants_rebuildFromJournals`: the grants are rebuilt from the grant journal alone.
-/

namespace TeaRs

open StateError BTreeMap

/-- `ApprovalArtifactEntry`: the policy value behind a canonical approval record. -/
inductive ApprovalArtifactEntry where
  | requested (recordId : RecordId) (request : ApprovalRequest)
      (finalOutputFormat : Option FinalOutputFormat)
  | resolved (recordId : RecordId) (resolution : ApprovalResolution)
  deriving DecidableEq

/-- `ApprovalArtifactEntry::record_id`. -/
def ApprovalArtifactEntry.recordId : ApprovalArtifactEntry → RecordId
  | .requested recordId .. | .resolved recordId _ => recordId

/-- `GrantJournalEntry`: a grant was issued or revoked. -/
inductive GrantJournalEntry where
  | issued (approvalRecordId : RecordId) (grant : PolicyGrant)
  | revoked (grant : PolicyGrant)
  deriving DecidableEq

namespace GrantJournalEntry

/-- The grant an entry is about. -/
def grant : GrantJournalEntry → PolicyGrant
  | .issued _ grant | .revoked grant => grant

/-- `GrantJournalEntry::grant_id`. -/
def grantId (entry : GrantJournalEntry) : GrantId := entry.grant.id

/-- `matches!(entry, GrantJournalEntry::Issued { .. })`. -/
def isIssued : GrantJournalEntry → Bool
  | .issued .. => true
  | .revoked _ => false

end GrantJournalEntry

/-- `ApprovalContext`: what the log says about the call an approval was requested for. -/
structure ApprovalContext where
  profileId : ProfileId
  toolName : String
  deriving DecidableEq

/-- `ArtifactState`: the authorization state derived from the journals. -/
structure ArtifactState where
  requests : BTreeMap ApprovalId ApprovalRequest
  resolutions : BTreeSet ApprovalId
  grants : BTreeMap GrantId PolicyGrant
  deriving DecidableEq

/-- `ArtifactValidationError`. -/
inductive ArtifactValidationError where
  | invalidCanonicalLog | missingCanonicalRecord | canonicalApprovalMismatch
  | missingApprovalRequest | duplicateApprovalArtifact | approvalResolutionMismatch
  | grantWithoutResolution | missingGrantJournalEntry | grantMismatch | duplicateGrant
  | unknownGrant | invalidRevocation
  deriving DecidableEq, Repr

namespace ArtifactValidationError

/-- `ArtifactValidationError::store_code`. -/
def storeCode : ArtifactValidationError → SessionStoreErrorCode
  | missingCanonicalRecord | missingApprovalRequest | grantWithoutResolution | unknownGrant =>
    .invalidReference
  | invalidCanonicalLog | canonicalApprovalMismatch | duplicateApprovalArtifact
  | approvalResolutionMismatch | missingGrantJournalEntry | grantMismatch | duplicateGrant
  | invalidRevocation => .invalidRecord

/-- The `Display` form of an artifact error. -/
def toText : ArtifactValidationError → String
  | invalidCanonicalLog => "approval artifact canonical session log is invalid"
  | missingCanonicalRecord => "approval artifact canonical record is missing"
  | canonicalApprovalMismatch => "approval artifact does not match canonical transition"
  | missingApprovalRequest => "approval resolution artifact has no matching request"
  | duplicateApprovalArtifact => "approval request artifact is duplicated"
  | approvalResolutionMismatch => "approval resolution artifact does not match request"
  | grantWithoutResolution => "grant issuance has no matching approval resolution"
  | missingGrantJournalEntry => "approval resolution grant is missing from the grant journal"
  | grantMismatch => "issued grant does not match approval resolution"
  | duplicateGrant => "grant identity is duplicated"
  | unknownGrant => "grant revocation references an unknown grant"
  | invalidRevocation => "grant revocation is invalid"

end ArtifactValidationError

/-- Programs of the artifact state. A failing program keeps the changes made before the failure;
the caller works on a copy. -/
abbrev ArtifactM := EStateM (Abort ArtifactValidationError) ArtifactState

/-! ### Contexts of the approvals of a log -/

/-- The contexts after one more record, read in the reducer that accepted it. -/
def noteContext (record : RecordEnvelope) (reducer : SessionReducer)
    (contexts : BTreeMap ApprovalId ApprovalContext) :
    Except (Abort ArtifactValidationError) (BTreeMap ApprovalId ApprovalContext) :=
  match record.record with
  | .approvalRequested approvalId toolCallId _ =>
    match reducer.state with
    | none => .error (.error .invalidCanonicalLog)
    | some state =>
      match state.toolCalls[toolCallId]? with
      | none => .error (.error .invalidCanonicalLog)
      | some tool =>
        .ok (contexts.insert approvalId ⟨state.configuration.profileId, tool.toolName⟩)
  | _ => .ok contexts

/-- The loop of `approval_contexts`. -/
def contextsFrom : List RecordEnvelope → SessionReducer → BTreeMap ApprovalId ApprovalContext →
    Except (Abort ArtifactValidationError) (BTreeMap ApprovalId ApprovalContext)
  | [], _, contexts => .ok contexts
  | record :: records, reducer, contexts =>
    match SessionReducer.apply record reducer with
    | .error (.panic message) _ => .error (.panic message)
    | .error (.error _) _ => .error (.error .invalidCanonicalLog)
    | .ok _ reducer =>
      (noteContext record reducer contexts).bind fun contexts =>
        contextsFrom records reducer contexts

/-- `approval_contexts`. -/
def approvalContexts (records : List RecordEnvelope) :
    Except (Abort ArtifactValidationError) (BTreeMap ApprovalId ApprovalContext) :=
  contextsFrom records SessionReducer.new ∅

theorem noteContext_ne_panic (record : RecordEnvelope) (reducer : SessionReducer)
    (contexts : BTreeMap ApprovalId ApprovalContext) (message : String) :
    noteContext record reducer contexts ≠ .error (.panic message) := by
  rw [noteContext]
  split
  · split
    · simp
    · split <;> simp
  · simp

theorem contextsFrom_cons {record : RecordEnvelope} {records : List RecordEnvelope}
    {r t : SessionReducer} (step : SessionReducer.apply record r = .ok () t)
    (contexts : BTreeMap ApprovalId ApprovalContext) :
    contextsFrom (record :: records) r contexts =
      (noteContext record t contexts).bind (contextsFrom records t) := by
  simp [contextsFrom, step]

theorem contextsFrom_ne_panic {log : List RecordEnvelope} {r r' : SessionReducer}
    (run : Run (fun r e r' => SessionReducer.apply e r = .ok () r') r log r')
    (contexts : BTreeMap ApprovalId ApprovalContext) (message : String) :
    contextsFrom log r contexts ≠ .error (.panic message) := by
  induction log generalizing r contexts with
  | nil => simp [contextsFrom]
  | cons record log ih =>
    obtain ⟨t, step, run⟩ := Run.cons_iff.mp run
    rw [contextsFrom_cons step]
    have note := noteContext_ne_panic record t contexts message
    cases hnote : noteContext record t contexts with
    | error error => rwa [hnote] at note
    | ok contexts => exact ih run contexts

/-- Reading the contexts of an accepted log does not panic. -/
theorem approvalContexts_ne_panic {log : List RecordEnvelope} {r : SessionReducer}
    (h : SessionReducer.Accepted log r) (message : String) :
    approvalContexts log ≠ .error (.panic message) :=
  contextsFrom_ne_panic h _ message

/-! ### Applying the journals of a transaction -/

/-- `same_grant_before_revocation`: the values have the same `JSON` form once the revocation is
left out. An effect is printed as its dotted name, every other field as itself. -/
def sameGrantBeforeRevocation (issued revoked : PolicyGrant) : Bool :=
  issued.id == revoked.id && issued.actorId == revoked.actorId &&
    issued.profileId == revoked.profileId && issued.toolName == revoked.toolName &&
    issued.toolVersion == revoked.toolVersion && issued.toolSource == revoked.toolSource &&
    issued.effects.map (·.asStr) == revoked.effects.map (·.asStr) &&
    issued.resources == revoked.resources && issued.scope == revoked.scope &&
    issued.issuedAt == revoked.issuedAt

/-- The records of a transaction by their identity. -/
def recordIndex (records : List RecordEnvelope) : BTreeMap RecordId RecordEnvelope :=
  records.foldl (fun index record => index.insert record.recordId record) ∅

variable {sessionId : SessionId} {index : BTreeMap RecordId RecordEnvelope}
  {contexts : BTreeMap ApprovalId ApprovalContext} {approvals : List ApprovalArtifactEntry}
  {resolutions : BTreeMap RecordId ApprovalResolution} {entries : List GrantJournalEntry}

namespace ArtifactState

/-- `ArtifactState::default`. -/
def empty : ArtifactState := ⟨∅, ∅, ∅⟩

/-- One step of `rebuild_from_journals` over the approvals. -/
def recordApproval (state : ArtifactState) : ApprovalArtifactEntry → ArtifactState
  | .requested _ request _ =>
    { state with requests := state.requests.insert request.approvalId request }
  | .resolved _ resolution =>
    { state with resolutions := state.resolutions.insert resolution.request.approvalId }

/-- One step of `rebuild_from_journals` over the grant journal. -/
def recordGrant (state : ArtifactState) (entry : GrantJournalEntry) : ArtifactState :=
  { state with grants := state.grants.insert entry.grantId entry.grant }

/-- `ArtifactState::rebuild_from_journals`. -/
def rebuildFromJournals (approvals : List ApprovalArtifactEntry)
    (grantJournal : List GrantJournalEntry) : ArtifactState :=
  grantJournal.foldl recordGrant (approvals.foldl recordApproval empty)

/-- The grants as a journal leaves them. -/
def journaledGrants (grantJournal : List GrantJournalEntry) : BTreeMap GrantId PolicyGrant :=
  grantJournal.foldl (fun grants entry => grants.insert entry.grantId entry.grant) ∅

/-- The grants are rebuilt from the grant journal alone. -/
theorem grants_rebuildFromJournals (approvals : List ApprovalArtifactEntry)
    (grantJournal : List GrantJournalEntry) :
    (rebuildFromJournals approvals grantJournal).grants = journaledGrants grantJournal := by
  have approved : (approvals.foldl recordApproval empty).grants = ∅ := by
    induction approvals using List.reverseRecOn with
    | nil => rfl
    | append_singleton approvals entry ih =>
      rw [List.foldl_append]
      cases entry <;> exact ih
  rw [rebuildFromJournals, journaledGrants, ← approved]
  exact (List.foldl_hom ArtifactState.grants fun _ _ => rfl).symm

/-- `ArtifactState::active_grants`. -/
def activeGrants (state : ArtifactState) : List PolicyGrant :=
  (valueList state.grants).filter fun grant => grant.revokedAt.isNone

/-- `ArtifactState::apply_request`. -/
def applyRequest (sessionId : SessionId) (record : RecordEnvelope) (request : ApprovalRequest)
    (approvalId : ApprovalId) (toolCallId : ToolCallId) (expiresAt : ProtocolTimestamp)
    (contexts : BTreeMap ApprovalId ApprovalContext) : ArtifactM Unit := do
  let context ← okOr contexts[approvalId]? (.error .canonicalApprovalMismatch)
  ensure (request.approvalId == approvalId && request.toolCallId == toolCallId &&
    request.sessionId == sessionId && request.expiresAt == expiresAt &&
    request.createdAt == record.timestamp && request.profileId == context.profileId &&
    request.toolName.asStr == context.toolName) (.error .canonicalApprovalMismatch)
  let duplicate := (← get).requests.contains approvalId
  modify fun state => { state with requests := state.requests.insert approvalId request }
  ensure (!duplicate) (.error .duplicateApprovalArtifact)

/-- `ArtifactState::apply_resolution`. -/
def applyResolution (record : RecordEnvelope) (resolution : ApprovalResolution)
    (approvalId : ApprovalId) (decision : ApprovalDecision) : ArtifactM Unit := do
  let request ← okOr (← get).requests[approvalId]? (.error .missingApprovalRequest)
  ensure (resolution.request.approvalId == approvalId && resolution.decision == decision &&
    resolution.decidedAt == record.timestamp && request == resolution.request)
    (.error .approvalResolutionMismatch)
  let duplicate := (← get).resolutions.contains approvalId
  modify fun state => { state with resolutions := state.resolutions.insert approvalId }
  ensure (!duplicate) (.error .approvalResolutionMismatch)

/-- `ArtifactState::apply_approvals`, which also collects the resolutions by record. -/
def applyApprovals (sessionId : SessionId) (index : BTreeMap RecordId RecordEnvelope)
    (contexts : BTreeMap ApprovalId ApprovalContext) :
    List ApprovalArtifactEntry → BTreeMap RecordId ApprovalResolution →
      ArtifactM (BTreeMap RecordId ApprovalResolution)
  | [], resolutions => pure resolutions
  | entry :: entries, resolutions => do
    let record ← okOr index[entry.recordId]? (.error .missingCanonicalRecord)
    match entry, record.record with
    | .requested _ request _, .approvalRequested approvalId toolCallId expiresAt =>
      applyRequest sessionId record request approvalId toolCallId expiresAt contexts
      applyApprovals sessionId index contexts entries resolutions
    | .resolved _ resolution, .approvalResolved approvalId decision =>
      applyResolution record resolution approvalId decision
      applyApprovals sessionId index contexts entries
        (resolutions.insert record.recordId resolution)
    | _, _ => fail .canonicalApprovalMismatch

/-- `ArtifactState::apply_revocation`. -/
def applyRevocation (grant : PolicyGrant) : ArtifactM Unit := do
  let issued ← okOr (← get).grants[grant.id]? (.error .unknownGrant)
  ensure (issued.revokedAt.isNone && grant.revokedAt.isSome &&
    sameGrantBeforeRevocation issued grant) (.error .invalidRevocation)
  modify fun state => { state with grants := state.grants.insert grant.id grant }

/-- The issuing branch of `apply_grants`. -/
def applyIssue (resolutions : BTreeMap RecordId ApprovalResolution) (approvalRecordId : RecordId)
    (grant : PolicyGrant) : ArtifactM Unit := do
  let resolution ← okOr resolutions[approvalRecordId]? (.error .grantWithoutResolution)
  ensure (resolution.issuedGrant == some grant && grant.revokedAt.isNone) (.error .grantMismatch)
  let duplicate := (← get).grants.contains grant.id
  modify fun state => { state with grants := state.grants.insert grant.id grant }
  ensure (!duplicate) (.error .duplicateGrant)

/-- The loop of `apply_grants`, which returns the approval records that issued a grant. -/
def applyEntries (resolutions : BTreeMap RecordId ApprovalResolution) :
    List GrantJournalEntry → BTreeSet RecordId → ArtifactM (BTreeSet RecordId)
  | [], issuedRecords => pure issuedRecords
  | .issued approvalRecordId grant :: entries, issuedRecords => do
    applyIssue resolutions approvalRecordId grant
    applyEntries resolutions entries (issuedRecords.insert approvalRecordId)
  | .revoked grant :: entries, issuedRecords => do
    applyRevocation grant
    applyEntries resolutions entries issuedRecords

/-- `ArtifactState::apply_grants`. -/
def applyGrants (grants : List GrantJournalEntry)
    (resolutions : BTreeMap RecordId ApprovalResolution) : ArtifactM Unit := do
  let issuedRecords ← applyEntries resolutions grants ∅
  ensure (resolutions.toList.all fun (recordId, resolution) =>
    resolution.issuedGrant.isNone || issuedRecords.contains recordId)
    (.error .missingGrantJournalEntry)

/-- `ArtifactState::apply`. -/
def apply (sessionId : SessionId) (durableRecords transactionRecords : List RecordEnvelope)
    (approvals : List ApprovalArtifactEntry) (grants : List GrantJournalEntry) :
    ArtifactM Unit := do
  let contexts ← propagate (approvalContexts durableRecords)
  let resolutions ←
    applyApprovals sessionId (recordIndex transactionRecords) contexts approvals ∅
  applyGrants grants resolutions

/-! ### What an accepted delta does -/

section Apply

theorem noPanic_applyApprovals :
    NoPanic (applyApprovals sessionId index contexts approvals resolutions) := by
  induction approvals generalizing resolutions with
  | nil => exact .pure _
  | cons entry approvals ih =>
    refine .bind (.okOr _ _) fun record => ?_
    split
    · exact .bind (.bind (.okOr _ _) fun _ => .bind (.ensure _ _) fun _ => .bind .get fun _ =>
        .bind (.modify _) fun _ => .ensure _ _) fun _ => ih
    · exact .bind (.bind .get fun _ => .bind (.okOr _ _) fun _ => .bind (.ensure _ _) fun _ =>
        .bind .get fun _ => .bind (.modify _) fun _ => .ensure _ _) fun _ => ih
    · exact .fail _

theorem noPanic_applyEntries {issuedRecords : BTreeSet RecordId} :
    NoPanic (applyEntries resolutions entries issuedRecords) := by
  induction entries generalizing issuedRecords with
  | nil => exact .pure _
  | cons entry entries ih =>
    cases entry with
    | issued =>
      exact .bind (.bind (.okOr _ _) fun _ => .bind (.ensure _ _) fun _ => .bind .get fun _ =>
        .bind (.modify _) fun _ => .ensure _ _) fun _ => ih
    | revoked =>
      exact .bind (.bind .get fun _ => .bind (.okOr _ _) fun _ => .bind (.ensure _ _) fun _ =>
        .modify _) fun _ => ih

theorem noPanic_apply {log records : List RecordEnvelope} {r : SessionReducer}
    (h : SessionReducer.Accepted log r) : NoPanic (apply sessionId log records approvals entries) :=
  .bind (.propagate (approvalContexts_ne_panic h)) fun _ => .bind noPanic_applyApprovals fun _ =>
    .bind noPanic_applyEntries fun _ => .ensure _ _

end Apply

end ArtifactState

/-- What an accepted journal entry does to the grants: an issued grant is new and active, a revoked
one was active and is the same grant but for its revocation. -/
inductive GrantStep (grants : BTreeMap GrantId PolicyGrant) :
    GrantJournalEntry → BTreeMap GrantId PolicyGrant → Prop
  | issued {recordId : RecordId} {grant : PolicyGrant} (fresh : grant.id ∉ grants)
      (active : grant.revokedAt = none) :
      GrantStep grants (.issued recordId grant) (grants.insert grant.id grant)
  | revoked {grant issued : PolicyGrant} (known : grants[grant.id]? = some issued)
      (active : issued.revokedAt = none) (ended : grant.revokedAt.isSome = true)
      (same : sameGrantBeforeRevocation issued grant = true) :
      GrantStep grants (.revoked grant) (grants.insert grant.id grant)

namespace GrantStep

variable {grants grants' : BTreeMap GrantId PolicyGrant} {entry : GrantJournalEntry}

theorem grants_eq (h : GrantStep grants entry grants') :
    grants' = grants.insert entry.grantId entry.grant := by
  cases h <;> rfl

theorem mem_iff_of_run (h : Run GrantStep grants entries grants') {id : GrantId} :
    id ∈ grants' ↔ id ∈ grants ∨ ∃ entry ∈ entries, entry.grantId = id := by
  induction h with
  | nil => simp
  | snoc run last ih =>
    rw [last.grants_eq, mem_insert_iff, ih]
    simp only [List.mem_append, List.mem_singleton]
    constructor
    · rintro (rfl | hmem | ⟨entry, hentry, rfl⟩)
      · exact .inr ⟨_, .inr rfl, rfl⟩
      · exact .inl hmem
      · exact .inr ⟨entry, .inl hentry, rfl⟩
    · rintro (hmem | ⟨entry, hentry | rfl, rfl⟩)
      · exact .inr (.inl hmem)
      · exact .inr (.inr ⟨entry, hentry, rfl⟩)
      · exact .inl rfl

theorem issued_of_run (h : Run GrantStep grants entries grants') {id : GrantId}
    (hmem : id ∈ grants') :
    id ∈ grants ∨ ∃ entry ∈ entries, entry.isIssued = true ∧ entry.grantId = id := by
  induction h with
  | nil => exact .inl hmem
  | @snoc done t u entry run last ih =>
    have earlier (hmem : id ∈ t) : id ∈ grants ∨
        ∃ other ∈ done ++ [entry], other.isIssued = true ∧ other.grantId = id := by
      rcases ih hmem with hmem | ⟨other, hother, issued⟩
      · exact .inl hmem
      · exact .inr ⟨other, List.mem_append_left _ hother, issued⟩
    cases last with
    | issued fresh active =>
      rcases mem_insert_iff.mp hmem with rfl | hmem
      · exact .inr ⟨_, List.mem_append_right _ (List.mem_singleton_self _), rfl, rfl⟩
      · exact earlier hmem
    | revoked known active ended same =>
      rcases mem_insert_iff.mp hmem with rfl | hmem
      · exact earlier (mem_of_getElem? known)
      · exact earlier hmem

theorem journaledGrants_of_run {journal : List GrantJournalEntry}
    (h : Run GrantStep (ArtifactState.journaledGrants journal) entries grants') :
    grants' = ArtifactState.journaledGrants (journal ++ entries) := by
  induction h with
  | nil => rw [List.append_nil]
  | @snoc done _ _ entry run last ih =>
    have longer : ArtifactState.journaledGrants (journal ++ done ++ [entry]) =
        (ArtifactState.journaledGrants (journal ++ done)).insert entry.grantId entry.grant :=
      List.foldl_concat ..
    rw [last.grants_eq, ih, ← List.append_assoc, longer]

theorem keyed_of_run (h : Run GrantStep grants entries grants')
    (keyed : ∀ (id : GrantId) grant, grants[id]? = some grant → grant.id = id) :
    ∀ (id : GrantId) grant, grants'[id]? = some grant → grant.id = id := by
  induction h with
  | nil => exact keyed
  | snoc run last ih =>
    intro id grant hlookup
    rw [last.grants_eq, getElem?_insert_eq] at hlookup
    split_ifs at hlookup with hid
    · cases hlookup
      exact hid.symm
    · exact ih id grant hlookup

end GrantStep

namespace ArtifactState

section Apply

variable {resolutions' : BTreeMap RecordId ApprovalResolution} {s t : ArtifactState}

theorem frame_grants_applyApprovals :
    Frame (·.grants) (applyApprovals sessionId index contexts approvals resolutions) := by
  induction approvals generalizing resolutions with
  | nil => exact .pure _
  | cons entry approvals ih =>
    refine .bind (.okOr _ _) fun record => ?_
    split
    · exact .bind (.bind (.okOr _ _) fun _ => .bind (.ensure _ _) fun _ => .bind .get fun _ =>
        .bind (.modify fun _ => rfl) fun _ => .ensure _ _) fun _ => ih
    · exact .bind (.bind .get fun _ => .bind (.okOr _ _) fun _ => .bind (.ensure _ _) fun _ =>
        .bind .get fun _ => .bind (.modify fun _ => rfl) fun _ => .ensure _ _) fun _ => ih
    · exact .throw _

variable {grant : PolicyGrant} {u : Unit} {records log : List RecordEnvelope}

theorem grantStep_of_applyIssue {recordId : RecordId}
    (h : applyIssue resolutions recordId grant s = .ok u t) :
    GrantStep s.grants (.issued recordId grant) t.grants := by
  simp only [applyIssue, bind_eq_ok, okOr_eq_ok, ensure_eq_ok, get_run, modify_run,
    EStateM.Result.ok.injEq] at h
  obtain ⟨_, _, ⟨-, rfl⟩, _, _, ⟨valid, rfl⟩, _, _, ⟨rfl, rfl⟩, _, _, ⟨-, rfl⟩, fresh, rfl⟩ := h
  rw [Bool.and_eq_true, Option.isNone_iff_eq_none] at valid
  rw [Bool.not_eq_true', contains_eq_false_iff] at fresh
  exact .issued fresh valid.2

theorem grantStep_of_applyRevocation
    (h : applyRevocation grant s = .ok u t) : GrantStep s.grants (.revoked grant) t.grants := by
  simp only [applyRevocation, bind_eq_ok, okOr_eq_ok, ensure_eq_ok, get_run, modify_run,
    EStateM.Result.ok.injEq] at h
  obtain ⟨_, _, ⟨rfl, rfl⟩, issued, _, ⟨known, rfl⟩, _, _, ⟨valid, rfl⟩, -, rfl⟩ := h
  simp only [Bool.and_eq_true, Option.isNone_iff_eq_none] at valid
  exact .revoked known valid.1.1 valid.1.2 valid.2

theorem run_grantStep_of_applyEntries {issuedRecords issuedRecords' : BTreeSet RecordId}
    (h : applyEntries resolutions entries issuedRecords s = .ok issuedRecords' t) :
    Run GrantStep s.grants entries t.grants := by
  induction entries generalizing issuedRecords s with
  | nil =>
    cases h
    exact .nil
  | cons entry entries ih =>
    cases entry with
    | issued recordId grant =>
      obtain ⟨_, u, first, rest⟩ := bind_eq_ok.mp h
      exact Run.cons_iff.mpr ⟨u.grants, grantStep_of_applyIssue first, ih rest⟩
    | revoked grant =>
      obtain ⟨_, u, first, rest⟩ := bind_eq_ok.mp h
      exact Run.cons_iff.mpr ⟨u.grants, grantStep_of_applyRevocation first, ih rest⟩

/-- The approval that a canonical record is about is not yet in the side state. -/
def Pending (record : RecordEnvelope) (s : ArtifactState) : Prop :=
  match record.record with
  | .approvalRequested approvalId .. => approvalId ∉ s.requests
  | .approvalResolved approvalId _ => approvalId ∉ s.resolutions
  | _ => False

/-- What an accepted approval artifact does: the record it names was pending, is so no longer, and
what is pending afterwards was pending before. -/
theorem pending_of_applyApprovals_cons {entry : ApprovalArtifactEntry}
    (h : applyApprovals sessionId index contexts (entry :: approvals) resolutions s =
      .ok resolutions' t) :
    ∃ record u resolutions'', index[entry.recordId]? = some record ∧ Pending record s ∧
      ¬Pending record u ∧ (∀ record, Pending record u → Pending record s) ∧
      applyApprovals sessionId index contexts approvals resolutions'' u = .ok resolutions' t := by
  obtain ⟨record, _, hrecord, h⟩ := bind_eq_ok.mp h
  obtain ⟨lookup, rfl⟩ := okOr_eq_ok.mp hrecord
  refine ⟨record, ?_⟩
  cases entry <;> cases hkind : record.record <;> simp only [hkind] at h <;> try cases h
  case requested.approvalRequested =>
    obtain ⟨_, u, first, rest⟩ := bind_eq_ok.mp h
    simp only [applyRequest, bind_eq_ok, okOr_eq_ok, ensure_eq_ok, get_run, modify_run,
      EStateM.Result.ok.injEq] at first
    obtain ⟨_, _, ⟨-, rfl⟩, _, _, ⟨-, rfl⟩, _, _, ⟨rfl, rfl⟩, _, _, ⟨-, rfl⟩, fresh, rfl⟩ := first
    rw [Bool.not_eq_true', contains_eq_false_iff] at fresh
    refine ⟨_, _, lookup, ?_, ?_, fun other pending => ?_, rest⟩
    · simpa [Pending, hkind] using fresh
    · simp [Pending, hkind]
    · cases hother : other.record <;> simp_all [Pending]
  case resolved.approvalResolved =>
    obtain ⟨_, u, first, rest⟩ := bind_eq_ok.mp h
    simp only [applyResolution, bind_eq_ok, okOr_eq_ok, ensure_eq_ok, get_run, modify_run,
      EStateM.Result.ok.injEq] at first
    obtain ⟨_, _, ⟨rfl, rfl⟩, _, _, ⟨-, rfl⟩, _, _, ⟨-, rfl⟩, _, _, ⟨rfl, rfl⟩, _, _, ⟨-, rfl⟩,
      fresh, rfl⟩ := first
    rw [Bool.not_eq_true', BTreeSet.contains_eq_false_iff] at fresh
    refine ⟨_, _, lookup, ?_, ?_, fun other pending => ?_, rest⟩
    · simpa [Pending, hkind] using fresh
    · simp [Pending, hkind]
    · cases hother : other.record <;> simp_all [Pending]

theorem nodup_recordIds_of_applyApprovals
    (h : applyApprovals sessionId index contexts approvals resolutions s = .ok resolutions' t) :
    (approvals.map (·.recordId)).Nodup ∧
      ∀ entry ∈ approvals, ∃ record, index[entry.recordId]? = some record ∧ Pending record s := by
  induction approvals generalizing resolutions s with
  | nil => simp
  | cons entry approvals ih =>
    obtain ⟨record, u, _, lookup, pending, settled, fewer, rest⟩ := pending_of_applyApprovals_cons h
    obtain ⟨nodup, named⟩ := ih rest
    refine ⟨List.nodup_cons.mpr ⟨?_, nodup⟩, ?_⟩
    · intro hmem
      obtain ⟨other, hother, hid⟩ := List.mem_map.mp hmem
      obtain ⟨record', lookup', pending'⟩ := named other hother
      rw [hid, lookup] at lookup'
      cases lookup'
      exact settled pending'
    · intro other hother
      rcases List.mem_cons.mp hother with rfl | hother
      · exact ⟨record, lookup, pending⟩
      · obtain ⟨record', lookup', pending'⟩ := named other hother
        exact ⟨record', lookup', fewer _ pending'⟩

theorem recordId_mem_of_recordIndex {id : RecordId}
    {record : RecordEnvelope} (h : (recordIndex records)[id]? = some record) :
    id ∈ records.map (·.recordId) := by
  have loop (start : BTreeMap RecordId RecordEnvelope) (records : List RecordEnvelope)
      (h : id ∈ records.foldl (fun index record => index.insert record.recordId record) start) :
      id ∈ start ∨ id ∈ records.map (·.recordId) := by
    induction records generalizing start with
    | nil => exact .inl h
    | cons head records ih =>
      rcases ih _ h with hmem | hmem
      · rcases mem_insert_iff.mp hmem with rfl | hmem
        · exact .inr List.mem_cons_self
        · exact .inl hmem
      · exact .inr (List.mem_cons_of_mem _ hmem)
  rcases loop ∅ records (mem_of_getElem? h) with hmem | hmem
  · simp at hmem
  · exact hmem

/-- The approval artifacts of an accepted delta name records of the transaction, each at most
once. -/
theorem recordIds_of_apply (h : apply sessionId log records approvals entries s = .ok u t) :
    (approvals.map (·.recordId)).Nodup ∧
      ∀ entry ∈ approvals, entry.recordId ∈ records.map (·.recordId) := by
  obtain ⟨_, _, -, h⟩ := bind_eq_ok.mp h
  obtain ⟨_, _, happrovals, -⟩ := bind_eq_ok.mp h
  obtain ⟨nodup, named⟩ := nodup_recordIds_of_applyApprovals happrovals
  refine ⟨nodup, fun entry hentry => ?_⟩
  obtain ⟨record, lookup, -⟩ := named entry hentry
  exact recordId_mem_of_recordIndex lookup

/-- An accepted delta is a run of grant steps. -/
theorem run_grantStep_of_apply (h : apply sessionId log records approvals entries s = .ok u t) :
    Run GrantStep s.grants entries t.grants := by
  obtain ⟨_, _, hcontexts, h⟩ := bind_eq_ok.mp h
  obtain ⟨-, rfl⟩ := propagate_eq_ok.mp hcontexts
  obtain ⟨_, mid, happrovals, h⟩ := bind_eq_ok.mp h
  obtain ⟨_, _, hentries, h⟩ := bind_eq_ok.mp h
  obtain ⟨-, rfl⟩ := ensure_eq_ok.mp h
  have same : mid.grants = s.grants := frame_grants_applyApprovals.of_ok happrovals
  rw [← same]
  exact run_grantStep_of_applyEntries hentries

end Apply

end ArtifactState

end TeaRs
