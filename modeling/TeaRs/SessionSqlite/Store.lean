import TeaRs.Session.Memory

/-!
# The `SQLite` session store

The durable session store, after `tea-session-sqlite/src/store.rs`. A worker thread owns the
connection and a cache of materialized sessions. An append takes the cached session out, checks the
transaction against the tables, applies it with the shared engine, writes the rows in one database
transaction and puts the session back. A panic ends the worker; from then on every command finds it
unavailable.

Tables are lists of rows in insertion order. Keys that the source stores as text are the identifiers
they print, whose text order is the order of the identifiers. The `JSON` texts are produced and read
by a codec that is a parameter of the model.

## Main definitions

* `JsonCodec`, `RowCodec`: how values are written to and read from rows.
* `Database` and its four tables.
* `Worker`, with `load`, `append` and `activeGrants`.
* `SqliteSessionStore.execute`: the reply to a command, and the store after it.
-/

namespace TeaRs

open StateError

/-! ### Codecs and errors -/

/-- `serde_json::to_string` and `serde_json::from_str` at one type. -/
structure JsonCodec (α : Type) where
  encode : α → Except String String
  decode : String → Except String α

/-- The codecs of the values that rows hold. A record is read in two steps, through
`RecordEnvelope::decode_value`. -/
structure RowCodec where
  encodeRecord : RecordEnvelope → Except String String
  parseValue : String → Except String Value
  decodeValue : Value → Except String RecordEnvelope
  artifact : JsonCodec ApprovalArtifactEntry
  entry : JsonCodec GrantJournalEntry
  grant : JsonCodec PolicyGrant

/-- `SqliteSessionError`. -/
inductive SqliteSessionError where
  | schema (message : String)
  | sqlite (message : String)
  | serialization (message : String)
  deriving DecidableEq

namespace SqliteSessionError

/-- `str::contains`. -/
def containsText (text pattern : String) : Bool :=
  text.toList.tails.any fun rest => pattern.toList.isPrefixOf rest

/-- `SessionStoreError::from`. -/
def toStoreError : SqliteSessionError → SessionStoreError
  | schema message => .new .unsupportedSchemaVersion ("sqlite schema failure: " ++ message)
  | sqlite message =>
    .new (if containsText message "constraint" then .sequenceConflict else .storageUnavailable)
      ("sqlite failure: " ++ message)
  | serialization message => .new .invalidRecord ("serialization failure: " ++ message)

end SqliteSessionError

/-- `session_not_found`. -/
def sessionNotFound : SessionStoreError := .new .sessionNotFound "session does not exist"

/-- `worker_unavailable`. -/
def workerUnavailable : SessionStoreError :=
  .new .storageUnavailable "sqlite session worker is unavailable"

/-- The error mapping of `encode_json` and `decode_json`. -/
def serialized {α : Type} (x : Except String α) : Except SessionStoreError α :=
  x.mapError fun message => (SqliteSessionError.serialization message).toStoreError

/-- One step of `load_records`. -/
def RowCodec.decodeRecord (codec : RowCodec) (text : String) :
    Except SessionStoreError RecordEnvelope := do
  let value ← serialized (codec.parseValue text)
  (codec.decodeValue value).mapError fun message => .new .invalidRecord message

/-! ### Tables -/

/-- A row of `records`. -/
structure RecordRow where
  sessionId : SessionId
  sequence : Nat
  recordId : RecordId
  envelope : String
  deriving DecidableEq

/-- A row of `approval_artifacts`. -/
structure ArtifactRow where
  sessionId : SessionId
  recordId : RecordId
  envelope : String
  deriving DecidableEq

/-- A row of `grant_journal`. -/
structure JournalRow where
  sessionId : SessionId
  seq : Nat
  grantId : GrantId
  envelope : String
  deriving DecidableEq

/-- A row of `active_grants`. -/
structure ActiveGrantRow where
  grantId : GrantId
  sessionId : SessionId
  actorId : ActorId
  grantJson : String
  revoked : Bool
  deriving DecidableEq

/-- `WHERE grant_id = ? AND session_id = ?`. -/
def ActiveGrantRow.isFor (row : ActiveGrantRow) (grantId : GrantId) (sessionId : SessionId) :
    Bool :=
  row.grantId == grantId && row.sessionId == sessionId

/-- `SET grant_json = ?, revoked = 1` in the rows for a grant of a session. -/
def ActiveGrantRow.revoke (row : ActiveGrantRow) (grantId : GrantId) (sessionId : SessionId)
    (grantJson : String) : ActiveGrantRow :=
  if row.isFor grantId sessionId then { row with grantJson, revoked := true } else row

/-- The tables of the database that the store operations use. -/
structure Database where
  records : List RecordRow
  approvalArtifacts : List ArtifactRow
  grantJournal : List JournalRow
  activeGrants : List ActiveGrantRow
  deriving DecidableEq

/-- A result of writing to the database. An error discards everything that was written. -/
abbrev Written := Except SessionStoreError

/-- The error of a statement that violates a unique key. -/
def uniqueViolation (columns : String) : SessionStoreError :=
  (SqliteSessionError.sqlite ("UNIQUE constraint failed: " ++ columns)).toStoreError

namespace Database

/-- A fresh database. -/
def fresh : Database := ⟨[], [], [], []⟩

/-- The rows of `records` of one session. -/
def recordRows (database : Database) (sessionId : SessionId) : List RecordRow :=
  database.records.filter (·.sessionId == sessionId)

/-- The rows of `approval_artifacts` of one session. -/
def artifactRows (database : Database) (sessionId : SessionId) : List ArtifactRow :=
  database.approvalArtifacts.filter (·.sessionId == sessionId)

/-- The rows of `grant_journal` of one session. -/
def journalRows (database : Database) (sessionId : SessionId) : List JournalRow :=
  database.grantJournal.filter (·.sessionId == sessionId)

/-- `INSERT INTO records`. -/
def insertRecord (database : Database) (row : RecordRow) : Written Database :=
  if (database.recordRows row.sessionId).any (·.sequence == row.sequence) then
    .error (uniqueViolation "records.session_id, records.sequence")
  else if (database.recordRows row.sessionId).any (·.recordId == row.recordId) then
    .error (uniqueViolation "records.session_id, records.record_id")
  else .ok { database with records := database.records ++ [row] }

/-- `INSERT INTO approval_artifacts`. -/
def insertArtifact (database : Database) (row : ArtifactRow) : Written Database :=
  if (database.artifactRows row.sessionId).any (·.recordId == row.recordId) then
    .error (uniqueViolation "approval_artifacts.session_id, approval_artifacts.record_id")
  else .ok { database with approvalArtifacts := database.approvalArtifacts ++ [row] }

/-- `INSERT INTO grant_journal`. -/
def insertJournal (database : Database) (row : JournalRow) : Written Database :=
  if (database.journalRows row.sessionId).any (·.seq == row.seq) then
    .error (uniqueViolation "grant_journal.session_id, grant_journal.seq")
  else .ok { database with grantJournal := database.grantJournal ++ [row] }

/-- `INSERT INTO active_grants`. -/
def insertActiveGrant (database : Database) (row : ActiveGrantRow) : Written Database :=
  if database.activeGrants.any (·.grantId == row.grantId) then
    .error (uniqueViolation "active_grants.grant_id")
  else .ok { database with activeGrants := database.activeGrants ++ [row] }

/-- `UPDATE active_grants SET grant_json = ?, revoked = 1 WHERE grant_id = ? AND session_id = ?`,
which has to change exactly one row. -/
def revokeActiveGrant (database : Database) (grantId : GrantId) (sessionId : SessionId)
    (grantJson : String) : Written Database :=
  if database.activeGrants.countP (·.isFor grantId sessionId) != 1 then
    .error (.new .invalidRecord "revoked grant is missing from materialized index")
  else
    .ok
      { database with
        activeGrants := database.activeGrants.map (·.revoke grantId sessionId grantJson) }

end Database

/-! ### Reading sessions -/

section Reading

variable (codec : RowCodec) (database : Database)

/-- `load_stored`: a session without records does not exist. -/
def loadStored (sessionId : SessionId) :
    Except (Abort SessionStoreError) (Option StoredSession) := do
  let recordRows := database.recordRows sessionId
  if recordRows.length = 0 then return none
  let handled {α : Type} (x : Except SessionStoreError α) : Except (Abort SessionStoreError) α :=
    x.mapError .error
  let records ← handled ((sortByKey (·.sequence) recordRows).mapM fun row =>
    codec.decodeRecord row.envelope)
  let artifacts ← handled ((sortByKey (·.recordId) (database.artifactRows sessionId)).mapM
    fun row => serialized (codec.artifact.decode row.envelope))
  let journal ← handled ((sortByKey (·.seq) (database.journalRows sessionId)).mapM
    fun row => serialized (codec.entry.decode row.envelope))
  some <$> StoredSession.fromDurableFacts records artifacts journal

/-- `validate_persisted_expectation`: the guards of a transaction against the tables. -/
def validatePersistedExpectation (transaction : AppendTransaction) :
    Except SessionStoreError Unit := do
  let tail := ((database.recordRows transaction.sessionId).map (·.sequence)).max?
  match tail, transaction.expectedSequence with
  | none, none => pure ()
  | none, some _ => throw sessionNotFound
  | some _, none => throw (.new .sessionAlreadyExists "session already exists")
  | some tail, some expected =>
    if tail != expected then throw (sequenceConflict "expected session sequence is stale")
  if 0 < transaction.approvalArtifacts.length + transaction.grantEntries.length then
    let revision := (database.artifactRows transaction.sessionId).length +
      (database.journalRows transaction.sessionId).length
    if some revision != transaction.expectedJournalRevision then
      throw (sequenceConflict "expected policy journal revision is stale")

/-- `persisted_grant_ids`: the identities among the issued grants that the index already has. -/
def persistedGrantIds (entries : List GrantJournalEntry) : List GrantId :=
  ((entries.filter (·.isIssued)).map (·.grantId)).filter fun id =>
    database.activeGrants.any (·.grantId == id)

end Reading

/-! ### Writing a transaction -/

section Writing

variable (codec : RowCodec) (sessionId : SessionId)

/-- `i64::try_from(sequence).unwrap_or(i64::MAX)`. -/
def saturatedSequence (sequence : SessionSequence) : Nat :=
  if sequence < 2 ^ 63 then sequence else 2 ^ 63 - 1

/-- The record rows of `persist_delta`. -/
def persistRecord (database : Database) (record : RecordEnvelope) : Written Database := do
  let envelope ← serialized (codec.encodeRecord record)
  database.insertRecord
    ⟨sessionId, saturatedSequence record.sequence, record.recordId, envelope⟩

/-- The artifact rows of `persist_delta`. -/
def persistArtifact (database : Database) (artifact : ApprovalArtifactEntry) :
    Written Database := do
  let envelope ← serialized (codec.artifact.encode artifact)
  database.insertArtifact ⟨sessionId, artifact.recordId, envelope⟩

/-- The journal rows of `persist_delta`, numbered on from the stored entries. -/
def persistEntry (database : Database) (entry : GrantJournalEntry × Nat) : Written Database := do
  if 2 ^ 63 ≤ entry.2 then throw (sequenceConflict "grant journal sequence is out of range")
  let envelope ← serialized (codec.entry.encode entry.1)
  database.insertJournal ⟨sessionId, entry.2, entry.1.grantId, envelope⟩

/-- One step of `persist_active_grants`. -/
def persistActiveGrant (database : Database) (entry : GrantJournalEntry) : Written Database :=
  match entry with
  | .issued _ grant => do
    let grantJson ← serialized (codec.grant.encode grant)
    database.insertActiveGrant ⟨grant.id, sessionId, grant.actorId, grantJson, false⟩
  | .revoked grant => do
    let grantJson ← serialized (codec.grant.encode grant)
    database.revokeActiveGrant grant.id sessionId grantJson

/-- `persist_delta` and then `persist_active_grants`. -/
def persist (transaction : AppendTransaction) (previousGrantCount : Nat) (database : Database) :
    Written Database := do
  let database ← transaction.records.foldlM (persistRecord codec transaction.sessionId) database
  let database ←
    transaction.approvalArtifacts.foldlM (persistArtifact codec transaction.sessionId) database
  let database ← (transaction.grantEntries.zipIdx previousGrantCount).foldlM
    (persistEntry codec transaction.sessionId) database
  transaction.grantEntries.foldlM (persistActiveGrant codec transaction.sessionId) database

end Writing

/-! ### The worker -/

/-- `Worker`: the connection and the cache of materialized sessions. -/
structure Worker where
  database : Database
  sessions : BTreeMap SessionId StoredSession
  deriving DecidableEq

namespace Worker

/-- Programs of the worker. -/
abbrev WorkerM := EStateM (Abort SessionStoreError) Worker

variable (codec : RowCodec)

/-- Put a session into the cache. -/
def cache (sessionId : SessionId) (stored : StoredSession) : WorkerM Unit :=
  modify fun worker => { worker with sessions := worker.sessions.insert sessionId stored }

/-- `Worker::ensure_loaded`. -/
def ensureLoaded (sessionId : SessionId) : WorkerM Unit := do
  let worker ← get
  if worker.sessions.contains sessionId then pure ()
  else
    match ← propagate (loadStored codec worker.database sessionId) with
    | none => pure ()
    | some stored => cache sessionId stored

/-- `Worker::load`. -/
def load (sessionId : SessionId) : WorkerM SessionSnapshot := do
  ensureLoaded codec sessionId
  match (← get).sessions[sessionId]? with
  | none => fail sessionNotFound
  | some stored => propagate stored.snapshot

/-- `Worker::append`. A session that fails to be persisted stays out of the cache. -/
def append (transaction : AppendTransaction) : WorkerM AppendOutcome := do
  ensureLoaded codec transaction.sessionId
  let worker ← get
  let existed := worker.sessions.contains transaction.sessionId
  let stored := (worker.sessions[transaction.sessionId]?).getD .empty
  set { worker with sessions := worker.sessions.erase transaction.sessionId }
  match validatePersistedExpectation worker.database transaction with
  | .error error =>
    cache transaction.sessionId stored
    fail error
  | .ok _ =>
    match applyTransactionInPlace transaction existed
        (persistedGrantIds worker.database transaction.grantEntries).contains stored with
    | .error (.panic message) _ => throw (.panic message)
    | .error (.error error) stored =>
      cache transaction.sessionId stored
      fail error
    | .ok outcome stored' =>
      let database ← check (persist codec transaction stored.grantJournal.length worker.database)
      modify fun worker => { worker with database }
      cache transaction.sessionId stored'
      return outcome

/-- `Worker::active_grants`. -/
def activeGrants (actorId : ActorId) : WorkerM (List PolicyGrant) := do
  let rows := (← get).database.activeGrants.filter fun row => row.actorId == actorId && !row.revoked
  check ((sortByKey (·.grantId) rows).mapM fun row => serialized (codec.grant.decode row.grantJson))

end Worker

/-- `SqliteSessionStore`: the channel to the worker, if the worker still runs. -/
structure SqliteSessionStore where
  worker : Option Worker
  deriving DecidableEq

namespace SqliteSessionStore

/-- A store on a fresh database. -/
def openFresh : SqliteSessionStore := ⟨some ⟨.fresh, ∅⟩⟩

/-- Send a command to the worker and receive its reply. A panic ends the worker. -/
def request {α : Type} (reply : α → StoreReply) (operation : Worker.WorkerM α)
    (store : SqliteSessionStore) : StoreReply × SqliteSessionStore :=
  match store.worker with
  | none => (.failed workerUnavailable, store)
  | some worker =>
    match operation worker with
    | .ok value worker => (reply value, ⟨some worker⟩)
    | .error (.error error) worker => (.failed error, ⟨some worker⟩)
    | .error (.panic _) _ => (.failed workerUnavailable, ⟨none⟩)

/-- The reply to a command, and the store after it. -/
def execute (codec : RowCodec) (command : StoreCommand) (store : SqliteSessionStore) :
    StoreReply × SqliteSessionStore :=
  match command with
  | .load sessionId => request .snapshot (Worker.load codec sessionId) store
  | .append transaction => request .appended (Worker.append codec transaction) store
  | .activeGrantsForActor actorId => request .grants (Worker.activeGrants codec actorId) store

end SqliteSessionStore

end TeaRs
