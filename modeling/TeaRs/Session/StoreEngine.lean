import TeaRs.Session.Artifact
import TeaRs.Session.History

/-!
# The append engine of the session stores

The validation and materialization that the in-memory store and the `SQLite` store share, after
`tea-session/src/store_engine.rs`. A transaction carries records, approval artifacts and grant
journal entries. It is checked against the stored session, its records are applied to the reducer
one by one, and its journals are checked against the extended log. If a record or a journal entry is
refused, the reducer is rebuilt from the records that were stored before.

## Main definitions

* `StoredSession`, `AppendTransaction`, `AppendOutcome`, `SessionSnapshot`.
* `applyTransactionInPlace`, with `guardTransaction`, `applyRecords` and `applyJournals`.
* `StoredSession.Consistent`: the reducer is the one the stored records lead to.
* `Committed`: what a successful transaction does.

## Main results

* `StoredSession.Consistent.applyTransactionInPlace_cases`: a transaction commits or it fails and
  the stored session is what it was.
* `applyTransactionInPlace_atomic`: in every reachable stored session a failed transaction changes
  nothing and a successful one appends exactly its records and journal entries.
-/

namespace TeaRs

open StateError SessionReducer ArtifactState List

/-- `StoredSession`: the durable facts of a session and what is derived from them. -/
@[ext]
structure StoredSession where
  records : List RecordEnvelope
  approvalArtifacts : List ApprovalArtifactEntry
  grantJournal : List GrantJournalEntry
  artifacts : ArtifactState
  journalRevision : Nat
  reducer : SessionReducer
  deriving DecidableEq

/-- `AppendTransaction`. -/
structure AppendTransaction where
  sessionId : SessionId
  expectedSequence : Option SessionSequence
  records : List RecordEnvelope
  expectedJournalRevision : Option Nat
  approvalArtifacts : List ApprovalArtifactEntry
  grantEntries : List GrantJournalEntry
  deriving DecidableEq

/-- `AppendTransaction::new`. -/
def AppendTransaction.new (sessionId : SessionId) (expectedSequence : Option SessionSequence)
    (records : List RecordEnvelope) : AppendTransaction :=
  ⟨sessionId, expectedSequence, records, none, [], []⟩

/-- `AppendOutcome`. -/
structure AppendOutcome where
  previousSequence : Option SessionSequence
  currentSequence : SessionSequence
  state : MaterializedSessionState
  journalRevision : Nat
  deriving DecidableEq

/-- `SessionSnapshot`. -/
structure SessionSnapshot where
  records : List RecordEnvelope
  state : MaterializedSessionState
  approvalArtifacts : List ApprovalArtifactEntry
  grantJournal : List GrantJournalEntry
  activeGrants : List PolicyGrant
  journalRevision : Nat
  deriving DecidableEq

/-- `sequence_conflict`. -/
def sequenceConflict (message : String) : SessionStoreError := .new .sequenceConflict message

/-- `missing_materialized_state`. -/
def missingMaterializedState : SessionStoreError :=
  .new .corruptionDetected "stored session is missing materialized state"

namespace StoredSession

/-- `StoredSession::default`. -/
def empty : StoredSession := ⟨[], [], [], .empty, 0, .new⟩

/-- `StoredSession::snapshot`, which panics without a materialized state. -/
def snapshot (stored : StoredSession) : Except (Abort SessionStoreError) SessionSnapshot :=
  match stored.reducer.state with
  | none => .error (.panic "stored records include a validated creation record")
  | some state =>
    .ok
      { records := stored.records
        state := state
        approvalArtifacts := stored.approvalArtifacts
        grantJournal := stored.grantJournal
        activeGrants := stored.artifacts.activeGrants
        journalRevision := stored.journalRevision }

/-- `StoredSession::from_durable_facts`. -/
def fromDurableFacts (records : List RecordEnvelope)
    (approvalArtifacts : List ApprovalArtifactEntry) (grantJournal : List GrantJournalEntry) :
    Except (Abort SessionStoreError) StoredSession :=
  match replayReducer records with
  | .error error => .error (error.map (·.toStoreError))
  | .ok reducer =>
    match checkedAdd approvalArtifacts.length grantJournal.length with
    | none => .error (.error (sequenceConflict "policy journal revision is out of range"))
    | some journalRevision =>
      .ok
        { records, approvalArtifacts, grantJournal, journalRevision, reducer
          artifacts := .rebuildFromJournals approvalArtifacts grantJournal }

end StoredSession

/-! ### Checks before anything changes -/

/-- `validate_transaction_shape`. -/
def validateTransactionShape (transaction : AppendTransaction) : Except SessionStoreError Unit :=
  if transaction.records.isEmpty && transaction.approvalArtifacts.isEmpty &&
      transaction.grantEntries.isEmpty then
    .error (.new .invalidRecord
      "append transaction must contain a canonical or typed journal fact")
  else if transaction.records.any (·.sessionId != transaction.sessionId) then
    .error (.new .invalidRecord "append transaction contains another session")
  else .ok ()

/-- `validate_expectation`. -/
def validateExpectation (existing : Option StoredSession) (transaction : AppendTransaction) :
    Except SessionStoreError Unit :=
  match (existing.map (·.records)).getD [] |>.getLast?, transaction.expectedSequence with
  | none, none =>
    match transaction.records.head? with
    | none => .error (.new .invalidRecord "session creation requires a canonical creation record")
    | some first =>
      if first.sequence != 0 then
        .error (sequenceConflict "new session must begin at sequence zero")
      else .ok ()
  | none, some _ => .error (.new .sessionNotFound "cannot append to a missing session")
  | some _, none => .error (.new .sessionAlreadyExists "session already exists")
  | some tail, some expected =>
    if tail.sequence != expected then
      .error (sequenceConflict "expected session sequence is stale")
    else
      match checkedNext expected with
      | none => .error (sequenceConflict "session sequence cannot advance")
      | some next =>
        if transaction.records.head?.any (·.sequence != next) then
          .error (sequenceConflict "first appended record does not follow expected sequence")
        else .ok ()

/-- The loop of `validate_global_grant_ids`: no entry issues a grant twice or with a known
identity. -/
def validateIssuedIds (known : GrantId → Bool) :
    List GrantJournalEntry → BTreeSet GrantId → Except SessionStoreError Unit
  | [], _ => .ok ()
  | .revoked _ :: entries, seen => validateIssuedIds known entries seen
  | .issued _ grant :: entries, seen =>
    if seen.contains grant.id || known grant.id then
      .error (.new .invalidRecord "grant identity is already issued")
    else validateIssuedIds known entries (seen.insert grant.id)

/-- `validate_global_grant_ids`. -/
def validateGlobalGrantIds (existing : Option StoredSession) (entries : List GrantJournalEntry)
    (grantIdInUse : GrantId → Bool) : Except SessionStoreError Unit :=
  validateIssuedIds
    (fun id => grantIdInUse id || existing.any fun stored =>
      stored.grantJournal.any fun entry => entry.grantId == id)
    entries ∅

/-- The sequence number a transaction continues, read from the materialized state. -/
def previousSequence (stored : StoredSession) (existed : Bool) :
    Except SessionStoreError (Option SessionSequence) :=
  if existed then
    match stored.reducer.state with
    | none => .error missingMaterializedState
    | some state => .ok (some state.tailSequence)
  else .ok none

/-- The journal revision after a transaction. Journal entries need the current revision. -/
def nextJournalRevision (stored : StoredSession) (transaction : AppendTransaction) :
    Except SessionStoreError Nat :=
  match checkedAdd transaction.approvalArtifacts.length transaction.grantEntries.length with
  | none => .error (sequenceConflict "policy journal entry count is out of range")
  | some journalEntries =>
    if 0 < journalEntries && transaction.expectedJournalRevision != some stored.journalRevision then
      .error (sequenceConflict "expected policy journal revision is stale")
    else
      match checkedAdd stored.journalRevision journalEntries with
      | none => .error (sequenceConflict "policy journal revision cannot advance")
      | some journalRevision => .ok journalRevision

/-- The checks of `apply_transaction_in_place` that come before any change. -/
def guardTransaction (transaction : AppendTransaction) (stored : StoredSession) (existed : Bool)
    (grantIdInUse : GrantId → Bool) :
    Except SessionStoreError (Option SessionSequence × Nat) := do
  let existing := if existed then some stored else none
  validateTransactionShape transaction
  validateExpectation existing transaction
  validateGlobalGrantIds existing transaction.grantEntries grantIdInUse
  let previous ← previousSequence stored existed
  let journalRevision ← nextJournalRevision stored transaction
  return (previous, journalRevision)

variable {transaction : AppendTransaction} {stored : StoredSession} {existed : Bool}
  {grantIdInUse : GrantId → Bool}

section Guards

variable {previous : Option SessionSequence} {journalRevision : Nat}

theorem guardTransaction_eq_ok :
    guardTransaction transaction stored existed grantIdInUse = .ok (previous, journalRevision) ↔
      validateTransactionShape transaction = .ok () ∧
      validateExpectation (if existed then some stored else none) transaction = .ok () ∧
      validateGlobalGrantIds (if existed then some stored else none) transaction.grantEntries
        grantIdInUse = .ok () ∧
      previousSequence stored existed = .ok previous ∧
      nextJournalRevision stored transaction = .ok journalRevision := by
  rw [guardTransaction]
  cases validateTransactionShape transaction <;>
    cases validateExpectation (if existed then some stored else none) transaction <;>
    cases validateGlobalGrantIds (if existed then some stored else none)
      transaction.grantEntries grantIdInUse <;>
    cases previousSequence stored existed <;>
    cases nextJournalRevision stored transaction <;>
    simp [bind, Except.bind, pure, Except.pure]

theorem sessionId_eq_of_validateTransactionShape
    (h : validateTransactionShape transaction = .ok ()) {e : RecordEnvelope}
    (he : e ∈ transaction.records) : e.sessionId = transaction.sessionId := by
  rw [validateTransactionShape] at h
  split_ifs at h with _ foreign
  by_contra other
  exact foreign (any_eq_true.mpr ⟨e, he, by simpa using other⟩)

variable {error : SessionStoreError} {known : GrantId → Bool} {entries : List GrantJournalEntry}
  {existing : Option StoredSession}

theorem guardTransaction_eq_error (shape : validateTransactionShape transaction = .ok ())
    (expectation : validateExpectation (if existed then some stored else none) transaction =
      .error error) :
    guardTransaction transaction stored existed grantIdInUse = .error error := by
  rw [guardTransaction, shape, expectation]
  rfl

theorem records_ne_nil_of_validateExpectation
    (h : validateExpectation (if existed then some stored else none) transaction = .ok ()) :
    stored.records ++ transaction.records ≠ [] := by
  intro empty
  obtain ⟨hstored, hrecords⟩ := append_eq_nil_iff.mp empty
  have tail : ((if existed then some stored else none).map (·.records)).getD [] = [] := by
    cases existed <;> simp [hstored]
  rw [validateExpectation, tail, hrecords] at h
  cases hexpected : transaction.expectedSequence <;> simp [hexpected] at h

theorem validateIssuedIds_congr {known' : GrantId → Bool}
    (h : ∀ entry ∈ entries, entry.isIssued = true → known entry.grantId = known' entry.grantId)
    (seen : BTreeSet GrantId) :
    validateIssuedIds known entries seen = validateIssuedIds known' entries seen := by
  induction entries generalizing seen with
  | nil => rfl
  | cons entry entries ih =>
    have rest := ih fun entry hentry => h entry (mem_cons_of_mem _ hentry)
    cases entry with
    | revoked grant => exact rest seen
    | issued recordId grant =>
      have same : known grant.id = known' grant.id := h _ mem_cons_self rfl
      rw [validateIssuedIds, validateIssuedIds, same, rest]

theorem validateGlobalGrantIds_congr {grantIdInUse' : GrantId → Bool}
    (h : ∀ entry ∈ entries, entry.isIssued = true →
      grantIdInUse entry.grantId = grantIdInUse' entry.grantId)
    (existing : Option StoredSession) :
    validateGlobalGrantIds existing entries grantIdInUse =
      validateGlobalGrantIds existing entries grantIdInUse' :=
  validateIssuedIds_congr (fun entry hentry issued => by rw [h entry hentry issued]) ∅

theorem known_eq_false_of_validateIssuedIds {seen : BTreeSet GrantId}
    (h : validateIssuedIds known entries seen = .ok ()) {entry : GrantJournalEntry}
    (hentry : entry ∈ entries) (issued : entry.isIssued = true) : known entry.grantId = false := by
  induction entries generalizing seen with
  | nil => cases hentry
  | cons head entries ih =>
    cases head with
    | revoked grant =>
      rcases mem_cons.mp hentry with rfl | hentry
      · cases issued
      · exact ih h hentry
    | issued recordId grant =>
      rw [validateIssuedIds] at h
      split_ifs at h with used
      rcases mem_cons.mp hentry with rfl | hentry
      · rw [Bool.or_eq_true, not_or, Bool.not_eq_true, Bool.not_eq_true] at used
        exact used.2
      · exact ih h hentry

/-- The number of stored records an expected sequence number stands for. -/
def expectedLength : Option SessionSequence → Nat
  | none => 0
  | some expected => expected + 1

theorem expectedLength_of_validateExpectation {log : List RecordEnvelope} {r : SessionReducer}
    (hlog : (existing.map (·.records)).getD [] = log) (h : SessionReducer.Accepted log r)
    (ok : validateExpectation existing transaction = .ok ()) :
    expectedLength transaction.expectedSequence = log.length := by
  rw [validateExpectation, hlog] at ok
  cases hlast : log.getLast? with
  | none =>
    cases hexpected : transaction.expectedSequence with
    | none => rw [getLast?_eq_none_iff.mp hlast, expectedLength, length_nil]
    | some expected => simp [hlast, hexpected] at ok
  | some tail =>
    cases hexpected : transaction.expectedSequence with
    | none => simp [hlast, hexpected] at ok
    | some expected =>
      rw [hlast, hexpected] at ok
      dsimp only at ok
      split_ifs at ok with stale
      have current : tail.sequence = expected := by simpa using stale
      rw [expectedLength, ← current]
      exact h.getLast?_sequence hlast

theorem nextJournalRevision_eq_ok
    (h : nextJournalRevision stored transaction = .ok journalRevision) :
    journalRevision = stored.journalRevision +
        (transaction.approvalArtifacts.length + transaction.grantEntries.length) ∧
      (0 < transaction.approvalArtifacts.length + transaction.grantEntries.length →
        transaction.expectedJournalRevision = some stored.journalRevision) := by
  rw [nextJournalRevision] at h
  cases hcount : checkedAdd transaction.approvalArtifacts.length
      transaction.grantEntries.length with
  | none => simp [hcount] at h
  | some journalEntries =>
    obtain rfl := checkedAdd_eq_some hcount
    rw [hcount] at h
    dsimp only at h
    split_ifs at h with stale
    rw [Bool.and_eq_true, not_and] at stale
    cases hnext : checkedAdd stored.journalRevision
        (transaction.approvalArtifacts.length + transaction.grantEntries.length) with
    | none => simp [hnext] at h
    | some next =>
      rw [hnext] at h
      cases h
      exact ⟨checkedAdd_eq_some hnext, fun entries => by simpa using stale (by simpa using entries)⟩

theorem lt_of_nextJournalRevision_eq_ok
    (h : nextJournalRevision stored transaction = .ok journalRevision) :
    journalRevision < 2 ^ 64 := by
  rw [nextJournalRevision] at h
  split at h
  · cases h
  · split_ifs at h
    split at h
    · cases h
    · next advanced =>
      cases h
      exact lt_of_checkedAdd_eq_some advanced

theorem code_of_nextJournalRevision (h : nextJournalRevision stored transaction = .error error) :
    error.code = .sequenceConflict := by
  rw [nextJournalRevision] at h
  cases hcount : checkedAdd transaction.approvalArtifacts.length
      transaction.grantEntries.length with
  | none =>
    rw [hcount] at h
    cases h
    rfl
  | some journalEntries =>
    rw [hcount] at h
    dsimp only at h
    split_ifs at h with stale
    · cases h
      rfl
    · cases hnext : checkedAdd stored.journalRevision journalEntries with
      | none =>
        rw [hnext] at h
        cases h
        rfl
      | some next => simp [hnext] at h

/-- If the expected sequence is the one of the last record, only a missing creation record is more
than a conflict. -/
theorem validateExpectation_eq_error
    (current : ((existing.map (·.records)).getD []).getLast?.map (·.sequence) =
      transaction.expectedSequence)
    (h : validateExpectation existing transaction = .error error) :
    (transaction.expectedSequence = none ∧ transaction.records = [] ∧
      error.code = .invalidRecord) ∨
    ∃ message ∈ ["new session must begin at sequence zero", "session sequence cannot advance",
      "first appended record does not follow expected sequence"],
      error = sequenceConflict message := by
  rw [validateExpectation] at h
  cases hlast : ((existing.map (·.records)).getD []).getLast? with
  | none =>
    rw [hlast] at current h
    rw [← current] at h ⊢
    cases hrecords : transaction.records with
    | nil =>
      rw [hrecords] at h
      cases h
      exact .inl ⟨rfl, rfl, rfl⟩
    | cons first rest =>
      rw [hrecords] at h
      simp only [Option.map_none, head?_cons] at h
      split_ifs at h
      cases h
      exact .inr ⟨_, by simp, rfl⟩
  | some tail =>
    rw [hlast] at current h
    rw [← current] at h
    simp only [Option.map_some, bne_self_eq_false, Bool.false_eq_true, if_false] at h
    split at h
    · cases h
      exact .inr ⟨_, by simp, rfl⟩
    · split_ifs at h
      cases h
      exact .inr ⟨_, by simp, rfl⟩

end Guards

/-! ### Applying a transaction -/

/-- `rebuild_reducer`. -/
def rebuildReducer (records : List RecordEnvelope) :
    Except (Abort SessionStoreError) SessionReducer :=
  if records.isEmpty then .ok .new
  else
    match replayReducer records with
    | .ok reducer => .ok reducer
    | .error error => .error (error.map (·.toStoreError))

/-- Programs of a stored session. A failing program keeps the changes it made. -/
abbrev StoreM := EStateM (Abort SessionStoreError) StoredSession

/-- Rebuild the reducer from the stored records and fail. -/
def rollBack {α : Type} (error : SessionStoreError) : StoreM α := do
  let reducer ← propagate (rebuildReducer (← get).records)
  modify fun stored => { stored with reducer }
  fail error

/-- Apply one record to the reducer of a stored session. -/
def applyRecord (record : RecordEnvelope) : StoreM Unit := fun stored =>
  match apply record stored.reducer with
  | .ok _ reducer => .ok () { stored with reducer }
  | .error (.error error) reducer => rollBack error.toStoreError { stored with reducer }
  | .error (.panic message) reducer => .error (.panic message) { stored with reducer }

/-- The loop of `apply_transaction_in_place` over the records. -/
def applyRecords : List RecordEnvelope → StoreM Unit
  | [] => pure ()
  | record :: records => do
    applyRecord record
    applyRecords records

/-- The part of `apply_transaction_in_place` that extends the records and applies the journals to a
copy of the artifact state. -/
def applyJournals (transaction : AppendTransaction) : StoreM Unit := fun stored =>
  let extended := { stored with records := stored.records ++ transaction.records }
  match apply transaction.sessionId extended.records transaction.records
      transaction.approvalArtifacts transaction.grantEntries stored.artifacts with
  | .ok _ artifacts =>
    .ok ()
      { extended with
        approvalArtifacts := stored.approvalArtifacts ++ transaction.approvalArtifacts
        grantJournal := stored.grantJournal ++ transaction.grantEntries
        artifacts := artifacts }
  | .error (.error error) _ =>
    rollBack (.new error.storeCode error.toText)
      { extended with records := extended.records.take stored.records.length }
  | .error (.panic message) _ => .error (.panic message) extended

/-- `apply_transaction_in_place`. -/
def applyTransactionInPlace (transaction : AppendTransaction) (existed : Bool)
    (grantIdInUse : GrantId → Bool) : StoreM AppendOutcome := do
  let (previousSequence, journalRevision) ←
    check (guardTransaction transaction (← get) existed grantIdInUse)
  applyRecords transaction.records
  applyJournals transaction
  modify fun stored => { stored with journalRevision }
  let state ← okOr (← get).reducer.state (.error missingMaterializedState)
  return { previousSequence, currentSequence := state.tailSequence, state, journalRevision }

theorem applyTransactionInPlace_congr {grantIdInUse' : GrantId → Bool}
    (h : ∀ entry ∈ transaction.grantEntries, entry.isIssued = true →
      grantIdInUse entry.grantId = grantIdInUse' entry.grantId) :
    applyTransactionInPlace transaction existed grantIdInUse =
      applyTransactionInPlace transaction existed grantIdInUse' := by
  have same (stored : StoredSession) : guardTransaction transaction stored existed grantIdInUse =
      guardTransaction transaction stored existed grantIdInUse' := by
    rw [guardTransaction, guardTransaction, validateGlobalGrantIds_congr h]
  simp only [applyTransactionInPlace, same]

theorem applyTransactionInPlace_of_refused {stored : StoredSession} {error : SessionStoreError}
    (h : guardTransaction transaction stored existed grantIdInUse = .error error) :
    applyTransactionInPlace transaction existed grantIdInUse stored =
      .error (.error error) stored := by
  simp [applyTransactionInPlace, bind_run, h]

/-! ### A transaction commits or changes nothing -/

/-- The reducer is the one the stored records lead to, and the journal revision counts the journal
entries. -/
structure StoredSession.Consistent (stored : StoredSession) : Prop where
  accepted : SessionReducer.Accepted stored.records stored.reducer
  revision : stored.journalRevision = stored.approvalArtifacts.length + stored.grantJournal.length

/-- What a successful transaction does to a stored session. -/
structure Committed (transaction : AppendTransaction) (existed : Bool)
    (grantIdInUse : GrantId → Bool) (stored : StoredSession) (outcome : AppendOutcome)
    (stored' : StoredSession) : Prop where
  guarded : guardTransaction transaction stored existed grantIdInUse =
    .ok (outcome.previousSequence, outcome.journalRevision)
  accepted : SessionReducer.Accepted (stored.records ++ transaction.records) stored'.reducer
  state : stored'.reducer.state = some outcome.state
  currentSequence : outcome.currentSequence = outcome.state.tailSequence
  artifacts : apply transaction.sessionId (stored.records ++ transaction.records)
    transaction.records transaction.approvalArtifacts transaction.grantEntries stored.artifacts =
      .ok () stored'.artifacts
  records : stored'.records = stored.records ++ transaction.records
  approvalArtifacts :
    stored'.approvalArtifacts = stored.approvalArtifacts ++ transaction.approvalArtifacts
  grantJournal : stored'.grantJournal = stored.grantJournal ++ transaction.grantEntries
  journalRevision : stored'.journalRevision = outcome.journalRevision

section Apply

variable {base r : SessionReducer} {log done : List RecordEnvelope}

theorem replayReducer_eq (h : SessionReducer.Accepted log r) (nonempty : log ≠ []) :
    replayReducer log = .ok r := by
  have state : r.state ≠ none := fun empty => nonempty (h.eq_nil_of_state empty)
  simp [replayReducer, accepted_iff.mp h, state]

theorem rebuildReducer_eq (h : SessionReducer.Accepted log r) : rebuildReducer log = .ok r := by
  rw [rebuildReducer]
  cases log with
  | nil => exact congrArg Except.ok (Run.nil_iff.mp h).symm
  | cons record log =>
    rw [replayReducer_eq h (cons_ne_nil _ _)]
    rfl

theorem rollBack_run {α : Type} (h : SessionReducer.Accepted stored.records base)
    (error : SessionStoreError) :
    (rollBack error : StoreM α) { stored with reducer := r } =
      .error (.error error) { stored with reducer := base } := by
  simp [rollBack, bind_run, propagate, rebuildReducer_eq h]

/-- The codes that a record or a journal entry is refused with. -/
def SessionStoreErrorCode.RefusesFact (code : SessionStoreErrorCode) : Prop :=
  code = .invalidRecord ∨ code = .invalidReference ∨ code = .corruptionDetected

theorem SessionReplayError.refusesFact (error : SessionReplayError) :
    error.toStoreError.code.RefusesFact := by
  cases error <;>
    simp [SessionStoreErrorCode.RefusesFact, toStoreError, SessionStoreError.new, storeCode]

theorem ArtifactValidationError.refusesFact (error : ArtifactValidationError) :
    error.storeCode.RefusesFact := by
  cases error <;> simp [SessionStoreErrorCode.RefusesFact, storeCode]

theorem applyRecords_cases (todo : List RecordEnvelope)
    (hbase : SessionReducer.Accepted stored.records base)
    (h : SessionReducer.Accepted (stored.records ++ done) r) :
    (∃ r', SessionReducer.Accepted (stored.records ++ (done ++ todo)) r' ∧
      applyRecords todo { stored with reducer := r } = .ok () { stored with reducer := r' }) ∨
    ∃ error, error.code.RefusesFact ∧ applyRecords todo { stored with reducer := r } =
      .error (.error error) { stored with reducer := base } := by
  induction todo generalizing done r with
  | nil => exact .inl ⟨r, by rwa [append_nil], rfl⟩
  | cons record todo ih =>
    rcases h.apply_cases record with ⟨r', happly⟩ | ⟨error, happly⟩
    · have next : SessionReducer.Accepted (stored.records ++ (done ++ [record])) r' := by
        rw [← append_assoc]
        exact h.snoc happly
      have first : applyRecord record { stored with reducer := r } =
          .ok () { stored with reducer := r' } := by
        simp [applyRecord, happly]
      simpa [applyRecords, bind_run, first] using ih next
    · refine .inr ⟨error.toStoreError, error.refusesFact, ?_⟩
      have first : applyRecord record { stored with reducer := r } =
          .error (.error error.toStoreError) { stored with reducer := base } := by
        simp only [applyRecord, happly]
        exact rollBack_run hbase _
      simp [applyRecords, bind_run, first]

theorem applyJournals_cases (hbase : SessionReducer.Accepted stored.records base)
    (h : SessionReducer.Accepted (stored.records ++ transaction.records) r) :
    (∃ artifacts, apply transaction.sessionId
        (stored.records ++ transaction.records) transaction.records
        transaction.approvalArtifacts transaction.grantEntries stored.artifacts =
          .ok () artifacts ∧
      applyJournals transaction { stored with reducer := r } =
        .ok ()
          { stored with
            records := stored.records ++ transaction.records
            approvalArtifacts := stored.approvalArtifacts ++ transaction.approvalArtifacts
            grantJournal := stored.grantJournal ++ transaction.grantEntries
            artifacts := artifacts
            reducer := r }) ∨
    ∃ error, error.code.RefusesFact ∧ applyJournals transaction { stored with reducer := r } =
      .error (.error error) { stored with reducer := base } := by
  cases happly : apply transaction.sessionId (stored.records ++ transaction.records)
      transaction.records transaction.approvalArtifacts transaction.grantEntries
      stored.artifacts with
  | ok _ artifacts => exact .inl ⟨artifacts, rfl, by simp [applyJournals, happly]⟩
  | error error artifacts =>
    cases error with
    | error error =>
      refine .inr ⟨.new error.storeCode error.toText, error.refusesFact, ?_⟩
      simp only [applyJournals, happly, take_left]
      exact rollBack_run hbase _
    | panic message => exact absurd happly (noPanic_apply h _ _ _)

namespace StoredSession.Consistent

/-- A consistent session with records has a snapshot, with its artifacts as they are stored. -/
theorem exists_snapshot (h : stored.Consistent) (nonempty : stored.records ≠ []) :
    ∃ snapshot, stored.snapshot = .ok snapshot ∧
      snapshot.approvalArtifacts = stored.approvalArtifacts := by
  rw [StoredSession.snapshot]
  cases hstate : stored.reducer.state with
  | none => exact absurd (h.accepted.eq_nil_of_state hstate) nonempty
  | some state => exact ⟨_, rfl, rfl⟩

/-- A transaction commits, or it fails in the guards or for one of its facts and the stored session
is what it was. -/
theorem applyTransactionInPlace_cases (h : stored.Consistent) (transaction : AppendTransaction)
    (existed : Bool) (grantIdInUse : GrantId → Bool) :
    (∃ outcome stored', applyTransactionInPlace transaction existed grantIdInUse stored =
        .ok outcome stored' ∧
      Committed transaction existed grantIdInUse stored outcome stored') ∨
    ∃ error, applyTransactionInPlace transaction existed grantIdInUse stored =
        .error (.error error) stored ∧
      (guardTransaction transaction stored existed grantIdInUse = .error error ∨
        error.code.RefusesFact) := by
  rw [applyTransactionInPlace]
  simp only [bind_run, get_run]
  cases hguard : guardTransaction transaction stored existed grantIdInUse with
  | error error => exact .inr ⟨error, rfl, .inl rfl⟩
  | ok guard =>
    obtain ⟨previous, journalRevision⟩ := guard
    have start : SessionReducer.Accepted (stored.records ++ []) stored.reducer := by
      rw [append_nil]
      exact h.accepted
    rcases applyRecords_cases transaction.records h.accepted start with
      ⟨r, accepted, hrecords⟩ | ⟨error, refuses, hrecords⟩
    · rcases applyJournals_cases h.accepted accepted with
        ⟨artifacts, hartifacts, hjournals⟩ | ⟨error, refuses, hjournals⟩
      · have guards := guardTransaction_eq_ok.mp hguard
        have nonempty := records_ne_nil_of_validateExpectation guards.2.1
        cases hstate : r.state with
        | none => exact absurd (accepted.eq_nil_of_state hstate) nonempty
        | some state =>
          refine .inl ⟨⟨previous, state.tailSequence, state, journalRevision⟩,
            { records := stored.records ++ transaction.records
              approvalArtifacts := stored.approvalArtifacts ++ transaction.approvalArtifacts
              grantJournal := stored.grantJournal ++ transaction.grantEntries
              artifacts := artifacts
              journalRevision := journalRevision
              reducer := r },
            by simp [hrecords, hjournals, hstate, okOr], ?_⟩
          exact
            { guarded := hguard
              accepted := accepted
              state := hstate
              currentSequence := rfl
              artifacts := hartifacts
              records := rfl
              approvalArtifacts := rfl
              grantJournal := rfl
              journalRevision := rfl }
      · exact .inr ⟨error, by simp [hrecords, hjournals], .inr refuses⟩
    · exact .inr ⟨error, by simp [hrecords], .inr refuses⟩

end StoredSession.Consistent

variable {outcome : AppendOutcome} {stored' : StoredSession}

namespace Committed

theorem consistent (h : Committed transaction existed grantIdInUse stored outcome stored')
    (before : stored.Consistent) : stored'.Consistent := by
  obtain ⟨-, -, -, -, hrevision⟩ := guardTransaction_eq_ok.mp h.guarded
  refine ⟨by rw [h.records]; exact h.accepted, ?_⟩
  rw [h.journalRevision, (nextJournalRevision_eq_ok hrevision).1, before.revision,
    h.approvalArtifacts, h.grantJournal, length_append, length_append]
  omega

end Committed

/-- What the side journals of a stored session index: the grants are filed under their own identity
and are the ones the journal mentions, and the artifacts name records of the session, each at most
once. -/
structure StoredSession.JournalsIndexed (stored : StoredSession) : Prop where
  keyed : ∀ (id : GrantId) grant, stored.artifacts.grants[id]? = some grant → grant.id = id
  mem_grants : ∀ id, id ∈ stored.artifacts.grants ↔
    ∃ entry ∈ stored.grantJournal, entry.grantId = id
  artifacts_nodup : (stored.approvalArtifacts.map (·.recordId)).Nodup
  artifacts_recorded : ∀ artifact ∈ stored.approvalArtifacts,
    artifact.recordId ∈ stored.records.map (·.recordId)

theorem StoredSession.journalsIndexed_empty : StoredSession.empty.JournalsIndexed where
  keyed := by simp [StoredSession.empty, ArtifactState.empty]
  mem_grants := by simp [StoredSession.empty, ArtifactState.empty]
  artifacts_nodup := by simp [StoredSession.empty]
  artifacts_recorded := by simp [StoredSession.empty]

namespace Committed

variable (h : Committed transaction existed grantIdInUse stored outcome stored')

include h

theorem run_grantStep :
    Run GrantStep stored.artifacts.grants transaction.grantEntries stored'.artifacts.grants :=
  run_grantStep_of_apply h.artifacts

/-- The artifacts of a committed transaction are new: they name records of the transaction. -/
theorem artifacts_disjoint (before : stored.JournalsIndexed) :
    ((stored.approvalArtifacts ++ transaction.approvalArtifacts).map (·.recordId)).Nodup := by
  obtain ⟨nodup, named⟩ := recordIds_of_apply h.artifacts
  have records := h.accepted.nodup
  rw [map_append, nodup_append'] at records ⊢
  refine ⟨before.artifacts_nodup, nodup, fun id hold hnew => ?_⟩
  obtain ⟨old, hmem, rfl⟩ := mem_map.mp hold
  obtain ⟨new, hmem', hid⟩ := mem_map.mp hnew
  exact records.2.2 (before.artifacts_recorded old hmem) (hid ▸ named new hmem')

theorem journalsIndexed (before : stored.JournalsIndexed) : stored'.JournalsIndexed where
  keyed := GrantStep.keyed_of_run h.run_grantStep before.keyed
  mem_grants id := by
    rw [GrantStep.mem_iff_of_run h.run_grantStep, before.mem_grants, h.grantJournal]
    simp only [mem_append, or_and_right, exists_or]
  artifacts_nodup := by
    rw [h.approvalArtifacts]
    exact h.artifacts_disjoint before
  artifacts_recorded artifact hmem := by
    rw [h.approvalArtifacts, mem_append] at hmem
    rw [h.records, map_append, mem_append]
    rcases hmem with hmem | hmem
    · exact .inl (before.artifacts_recorded artifact hmem)
    · exact .inr ((recordIds_of_apply h.artifacts).2 artifact hmem)

end Committed

theorem StoredSession.consistent_empty : StoredSession.empty.Consistent := ⟨.nil, rfl⟩

theorem StoredSession.Consistent.committed_of_ok (h : stored.Consistent)
    (ok : applyTransactionInPlace transaction existed grantIdInUse stored = .ok outcome stored') :
    Committed transaction existed grantIdInUse stored outcome stored' := by
  rcases h.applyTransactionInPlace_cases transaction existed grantIdInUse with
    ⟨outcome', stored'', ok', committed⟩ | ⟨error, failed, -⟩
  · cases ok.symm.trans ok'
    exact committed
  · cases ok.symm.trans failed

end Apply

/-! ### Reachable stored sessions -/

/-- The arguments of one call of `apply_transaction_in_place`. -/
structure TransactionCall where
  transaction : AppendTransaction
  existed : Bool
  grantIdInUse : GrantId → Bool

/-- A call leads from one stored session to another. -/
def TransactionCall.Succeeds (stored : StoredSession) (call : TransactionCall)
    (stored' : StoredSession) : Prop :=
  ∃ outcome, applyTransactionInPlace call.transaction call.existed call.grantIdInUse stored =
    .ok outcome stored'

theorem consistent_of_run {calls : List TransactionCall} {stored : StoredSession}
    (run : Run TransactionCall.Succeeds .empty calls stored) : stored.Consistent := by
  refine run.invariant StoredSession.consistent_empty fun stored call stored' before step => ?_
  obtain ⟨outcome, ok⟩ := step
  exact (before.committed_of_ok ok).consistent before

/-- In every stored session that successful calls lead to, a call does not panic, a failed one
changes nothing, and a successful one appends exactly the records, the artifacts and the grant
entries of its transaction. -/
theorem applyTransactionInPlace_atomic {calls : List TransactionCall} {stored : StoredSession}
    (run : Run TransactionCall.Succeeds .empty calls stored) (transaction : AppendTransaction)
    (existed : Bool) (grantIdInUse : GrantId → Bool) :
    (∀ message stored', applyTransactionInPlace transaction existed grantIdInUse stored ≠
      .error (.panic message) stored') ∧
    (∀ error stored', applyTransactionInPlace transaction existed grantIdInUse stored =
      .error (.error error) stored' → stored' = stored) ∧
    ∀ outcome stored', applyTransactionInPlace transaction existed grantIdInUse stored =
      .ok outcome stored' →
        stored'.records = stored.records ++ transaction.records ∧
        stored'.approvalArtifacts =
          stored.approvalArtifacts ++ transaction.approvalArtifacts ∧
        stored'.grantJournal = stored.grantJournal ++ transaction.grantEntries := by
  have consistent := consistent_of_run run
  rcases consistent.applyTransactionInPlace_cases transaction existed grantIdInUse with
    ⟨outcome, stored', ok, committed⟩ | ⟨error, failed, -⟩
  · simp only [ok]
    refine ⟨by simp, by simp, ?_⟩
    intro _ _ h
    cases h
    exact ⟨committed.records, committed.approvalArtifacts, committed.grantJournal⟩
  · simp only [failed]
    refine ⟨by simp, ?_, by simp⟩
    intro _ _ h
    cases h
    rfl

/-- The transaction that creates session `0`. -/
def numberedCreationTransaction : AppendTransaction :=
  .new ⟨0⟩ none [numberedCreation]

/-- The stored session after its creation. -/
def createdSession : StoredSession :=
  resultState (applyTransactionInPlace numberedCreationTransaction false (fun _ => false) .empty)

/-- A transaction that changes the profile and then requests a call that nothing declares. -/
def undeclaredTransaction : AppendTransaction :=
  .new ⟨0⟩ (some 0)
    [profileChanged 1 ⟨"other"⟩,
      readRequested 2 (some ⟨0⟩)]

/-- The second record of the transaction is refused, and the session is what it was. -/
theorem applyTransactionInPlace_atomic_undeclared :
    applyTransactionInPlace undeclaredTransaction true (fun _ => false) createdSession =
      .error (.error ⟨.invalidReference, "invalid session reference: undeclared_tool_call"⟩)
        createdSession := by
  have created : TransactionCall.Succeeds .empty
      ⟨numberedCreationTransaction, false, fun _ => false⟩ createdSession :=
    exists_eq_ok_of_resultError? (by decide +kernel)
  have refused := eq_error_of_resultError?
    (x := applyTransactionInPlace undeclaredTransaction true (fun _ => false) createdSession)
    (e := .error ⟨.invalidReference, "invalid session reference: undeclared_tool_call"⟩)
    (by decide +kernel)
  rw [(applyTransactionInPlace_atomic (.snoc .nil created) _ _ _).2.1 _ _ refused] at refused
  exact refused

end TeaRs
