import TeaRs.SessionSqlite.Reopen

/-!
# Two stores on one database

Two `SQLite` stores that are opened on the same file share the tables, and each has a worker with a
cache of its own. A worker that takes a command looks for the session in its cache. Otherwise it
reads the tables in four statements, between which the other worker may commit. A `load` is then
answered from the cache, and an `append` checks the transaction against the tables, applies it to
the cached session and writes its rows in one database transaction. A cached session is never read
again.

## Main definitions

* `Handle`: a worker, with its cache and what it has read for its current command.
* `SharedDatabase`, `SharedStep`: the tables with two handles, and one access of one of them.
* `StoredSession.Precedes`: a session is a beginning of another one.
* `SharedDatabase.Coherent`: the handles cache beginnings of the sessions that the tables hold.
* `SharedDatabase.Current`, `SharedDatabase.UpToDate`: a handle caches as much of a session as the
  tables have.

## Main results

* `HandleMove.of_proceed`: what a handle does that is behind the tables.
* `SharedDatabase.Coherent.step`: every access keeps the tables and the handles coherent.
* `SharedDatabase.two_handles`: what the replies of two handles have to do with the tables.
-/

namespace TeaRs

open StateError Worker StoredSession List Function

/-! ### Handles -/

/-- The commands that a handle is given. -/
inductive HandleCommand where
  | load (sessionId : SessionId)
  | append (transaction : AppendTransaction)
  deriving DecidableEq

/-- The session of a command. -/
def HandleCommand.sessionId : HandleCommand → SessionId
  | load sessionId => sessionId
  | append transaction => transaction.sessionId

/-- What a worker has read for the command it serves. -/
inductive ReadPhase where
  | idle
  | counted (command : HandleCommand)
  | recordsRead (command : HandleCommand) (records : List RecordEnvelope)
  | artifactsRead (command : HandleCommand) (records : List RecordEnvelope)
      (artifacts : List ApprovalArtifactEntry)
  | loaded (command : HandleCommand)
  deriving DecidableEq

/-- A worker of a shared database: its cache, unless it has ended, and its phase. -/
structure Handle where
  sessions : Option (BTreeMap SessionId StoredSession)
  phase : ReadPhase
  deriving DecidableEq

/-- What one access of a handle shows to its client. -/
inductive HandleEvent where
  | issued (command : HandleCommand)
  | read
  | replied (command : HandleCommand) (reply : StoreReply)
  deriving DecidableEq

/-- `Worker::load` and `Worker::append` after `ensure_loaded`. -/
def Worker.answer (codec : RowCodec) : HandleCommand → Worker.WorkerM StoreReply
  | .load sessionId => do
    match (← get).sessions[sessionId]? with
    | none => fail sessionNotFound
    | some stored => return .snapshot (← propagate stored.snapshot)
  | .append transaction => return .appended (← finishAppend codec transaction)

namespace Handle

/-- A handle that has just been opened. -/
def opened : Handle := ⟨some ∅, .idle⟩

/-- The handle takes a command: it looks for the session in its cache and counts its records. -/
def issue (database : Database) (command : HandleCommand) (handle : Handle) :
    HandleEvent × Handle :=
  match handle.sessions with
  | none => (.replied command (.failed workerUnavailable), handle)
  | some sessions =>
    if sessions.contains command.sessionId ||
        decide ((database.recordRows command.sessionId).length = 0) then
      (.issued command, ⟨some sessions, .loaded command⟩)
    else (.issued command, ⟨some sessions, .counted command⟩)

/-- The handle goes on with the command it serves: the other reads of `load_stored`, and then the
answer. -/
def proceed (codec : RowCodec) (database : Database) (handle : Handle) :
    Option (HandleEvent × Database × Handle) :=
  match handle.sessions, handle.phase with
  | none, _ => none
  | some _, .idle => none
  | some sessions, .counted command =>
    match loadRecords codec database command.sessionId with
    | .error error => some (.replied command (.failed error), database, ⟨some sessions, .idle⟩)
    | .ok records => some (.read, database, ⟨some sessions, .recordsRead command records⟩)
  | some sessions, .recordsRead command records =>
    match loadApprovalArtifacts codec database command.sessionId with
    | .error error => some (.replied command (.failed error), database, ⟨some sessions, .idle⟩)
    | .ok artifacts =>
      some (.read, database, ⟨some sessions, .artifactsRead command records artifacts⟩)
  | some sessions, .artifactsRead command records artifacts =>
    match loadGrantJournal codec database command.sessionId with
    | .error error => some (.replied command (.failed error), database, ⟨some sessions, .idle⟩)
    | .ok journal =>
      match fromDurableFacts records artifacts journal with
      | .error (.error error) =>
        some (.replied command (.failed error), database, ⟨some sessions, .idle⟩)
      | .error (.panic _) =>
        some (.replied command (.failed workerUnavailable), database, ⟨none, .idle⟩)
      | .ok stored =>
        some (.read, database, ⟨some (sessions.insert command.sessionId stored), .loaded command⟩)
  | some sessions, .loaded command =>
    match answer codec command ⟨database, sessions⟩ with
    | .ok reply worker =>
      some (.replied command reply, worker.database, ⟨some worker.sessions, .idle⟩)
    | .error (.error error) worker =>
      some (.replied command (.failed error), worker.database, ⟨some worker.sessions, .idle⟩)
    | .error (.panic _) _ =>
      some (.replied command (.failed workerUnavailable), database, ⟨none, .idle⟩)

end Handle

/-- The two handles. -/
inductive Side where
  | first
  | second
  deriving DecidableEq

/-- The tables with two handles on them. -/
structure SharedDatabase where
  database : Database
  handles : Side → Handle

namespace SharedDatabase

/-- A fresh database that was opened twice. -/
def fresh : SharedDatabase := ⟨.fresh, fun _ => .opened⟩

end SharedDatabase

/-- One access of one handle: it takes a command, or it goes on with the one it serves. -/
inductive SharedStep (codec : RowCodec) :
    SharedDatabase → Side × HandleEvent → SharedDatabase → Prop
  | issue {shared : SharedDatabase} {side : Side} {command : HandleCommand} {event : HandleEvent}
      {handle : Handle} (idle : (shared.handles side).phase = .idle)
      (taken : (shared.handles side).issue shared.database command = (event, handle)) :
      SharedStep codec shared (side, event)
        ⟨shared.database, update shared.handles side handle⟩
  | proceed {shared : SharedDatabase} {side : Side} {event : HandleEvent} {database : Database}
      {handle : Handle}
      (goesOn : (shared.handles side).proceed codec shared.database =
        some (event, database, handle)) :
      SharedStep codec shared (side, event)
        ⟨database, update shared.handles side handle⟩

/-! ### What a saved session says about its rows -/

variable {codec : RowCodec} {database database' : Database} {stored : StoredSession}

namespace Saved

variable {sessionId : SessionId}

variable (h : Saved codec database sessionId stored)

include h

variable (numbered : ((database.recordRows sessionId).map (·.sequence)).Nodup)

include numbered

theorem length_le : stored.records.length ≤ 2 ^ 63 := by
  by_contra long
  rw [h.records, map_map] at numbered
  have keys : stored.records.map ((·.sequence) ∘ savedRecord codec sessionId) =
      (range stored.records.length).map saturatedSequence := by
    rw [← h.consistent.accepted.sequence_eq, map_map]
    rfl
  rw [keys, nodup_map_iff_inj_on nodup_range] at numbered
  have same := numbered (2 ^ 63 - 1) (mem_range.mpr (by omega)) (2 ^ 63)
    (mem_range.mpr (by omega)) rfl
  omega

theorem sequences_eq :
    (database.recordRows sessionId).map (·.sequence) = range stored.records.length := by
  have bound := h.length_le numbered
  rw [h.records, map_map]
  refine Eq.trans ?_ h.consistent.accepted.sequence_eq
  refine map_congr_left fun record hrecord => ?_
  have small : record.sequence ∈ range stored.records.length := by
    rw [← h.consistent.accepted.sequence_eq]
    exact mem_map_of_mem hrecord
  exact if_pos (lt_of_lt_of_le (mem_range.mp small) bound)

theorem tail_eq : ((database.recordRows sessionId).map (·.sequence)).max? =
      stored.records.getLast?.map (·.sequence) := by
  rw [h.sequences_eq numbered, ← getLast?_map, h.consistent.accepted.sequence_eq,
    getLast?_range]
  split_ifs with hlength
  · simp [hlength]
  · rw [max?_eq_some_iff]
    simp only [mem_range]
    exact ⟨by omega, fun _ _ => by omega⟩

omit numbered

theorem revision_eq :
    (database.artifactRows sessionId).length + (database.journalRows sessionId).length =
      stored.journalRevision := by
  rw [h.artifacts, h.entries, length_map, length_map, length_zipIdx,
    h.consistent.revision]

end Saved

/-- The sequence number of the last record stands for the number of records. -/
theorem SessionReducer.Accepted.expectedLength_getLast? {log : List RecordEnvelope}
    {r : SessionReducer} (h : SessionReducer.Accepted log r) :
    expectedLength (log.getLast?.map (·.sequence)) = log.length := by
  cases hlast : log.getLast? with
  | none => rw [getLast?_eq_none_iff.mp hlast]; rfl
  | some tail => exact h.getLast?_sequence hlast

theorem nodup_of_persistRecord {sessionId other : SessionId} {record : RecordEnvelope}
    (numbered : ((database.recordRows other).map (·.sequence)).Nodup)
    (h : persistRecord codec sessionId database record = .ok database') :
    ((database'.recordRows other).map (·.sequence)).Nodup := by
  obtain ⟨-, h⟩ := of_serialized_bind_eq_ok h
  rw [Database.insertRecord] at h
  split_ifs at h with taken
  cases h
  rw [Database.recordRows, filter_append]
  by_cases same : sessionId = other
  · subst same
    rw [filter_singleton, beq_self_eq_true, cond_true, map_append,
      nodup_append_comm, map_singleton, singleton_append, nodup_cons]
    refine ⟨fun mem => taken ?_, numbered⟩
    obtain ⟨row, hrow, same⟩ := mem_map.mp mem
    exact any_eq_true.mpr ⟨row, hrow, beq_iff_eq.mpr same⟩
  · rw [filter_singleton, beq_false_of_ne same, cond_false, append_nil]
    exact numbered

variable {transaction : AppendTransaction}

theorem nodup_of_persist {other : SessionId} {count : Nat}
    (numbered : ((database.recordRows other).map (·.sequence)).Nodup)
    (h : persist codec transaction count database = .ok database') :
    ((database'.recordRows other).map (·.sequence)).Nodup := by
  obtain ⟨recorded, hrecords, -⟩ := except_bind_eq_ok.mp h
  have same : database'.records = recorded.records := by
    obtain ⟨-, rows, rfl⟩ := of_persist_eq_ok h
    obtain ⟨-, rfl⟩ := of_foldlM_eq_ok
      (fun (database : Database) rows => { database with records := database.records ++ rows })
      (savedRecord codec transaction.sessionId) (fun _ => by simp) (fun _ _ _ => by simp)
      (fun _ _ _ => of_persistRecord_eq_ok) hrecords
    rfl
  rw [Database.recordRows, same]
  clear h same
  generalize transaction.records = records at hrecords
  induction records generalizing database with
  | nil =>
    cases hrecords
    exact numbered
  | cons record records ih =>
    rw [foldlM_cons] at hrecords
    obtain ⟨next, first, rest⟩ := except_bind_eq_ok.mp hrecords
    exact ih (nodup_of_persistRecord numbered first) rest

theorem of_validatePersistedExpectation_eq_ok
    (h : validatePersistedExpectation database transaction = .ok ()) :
    transaction.expectedSequence =
        ((database.recordRows transaction.sessionId).map (·.sequence)).max? ∧
      (0 < transaction.approvalArtifacts.length + transaction.grantEntries.length →
        transaction.expectedJournalRevision =
          some ((database.artifactRows transaction.sessionId).length +
            (database.journalRows transaction.sessionId).length)) := by
  rw [Refines.validatePersistedExpectation_eq rfl] at h
  split_ifs at h with other stale
  refine ⟨(not_not.mp other).symm, fun entries => ?_⟩
  exact (not_not.mp fun hne => stale ⟨entries, hne⟩).symm

/-! ### Beginnings of a session -/

/-- A session is a beginning of another one: its records are, and it has no more journal entries. -/
structure StoredSession.Precedes (stored current : StoredSession) : Prop where
  records : stored.records <+: current.records
  artifacts : stored.approvalArtifacts.length ≤ current.approvalArtifacts.length
  journal : stored.grantJournal.length ≤ current.grantJournal.length

namespace StoredSession.Precedes

variable {current later : StoredSession}

theorem refl (stored : StoredSession) : stored.Precedes stored :=
  ⟨prefix_refl _, le_rfl, le_rfl⟩

theorem trans (h : stored.Precedes current) (h' : current.Precedes later) : stored.Precedes later :=
  ⟨h.records.trans h'.records, h.artifacts.trans h'.artifacts, h.journal.trans h'.journal⟩

theorem empty (current : StoredSession) : empty.Precedes current :=
  ⟨List.nil_prefix, Nat.zero_le _, Nat.zero_le _⟩

end StoredSession.Precedes

variable {stored' : StoredSession} {existed : Bool} {grantIdInUse : GrantId → Bool}
  {outcome : AppendOutcome} {current : StoredSession}

theorem Saved.fromDurableFacts_of_beginning {sessionId : SessionId}
    (h : Saved codec database sessionId current)
    {records : List RecordEnvelope} {artifacts : List ApprovalArtifactEntry}
    (nonempty : records ≠ []) (hrecords : records <+: current.records)
    (hartifacts : artifacts.length ≤ current.approvalArtifacts.length) :
    ∃ stored, fromDurableFacts records artifacts current.grantJournal = .ok stored ∧
      stored.Consistent ∧ stored.records = records ∧ stored.Precedes current := by
  obtain ⟨rest, hcurrent⟩ := hrecords
  have accepted := h.consistent.accepted
  rw [← hcurrent, SessionReducer.Accepted.append_iff] at accepted
  obtain ⟨reducer, accepted, -⟩ := accepted
  have revision : checkedAdd artifacts.length current.grantJournal.length =
      some (artifacts.length + current.grantJournal.length) := by
    refine if_pos (lt_of_le_of_lt ?_ h.revision)
    rw [h.consistent.revision]
    exact Nat.add_le_add_right hartifacts _
  refine ⟨⟨records, artifacts, current.grantJournal, .rebuildFromJournals artifacts
    current.grantJournal, artifacts.length + current.grantJournal.length, reducer⟩, ?_,
    ⟨accepted, rfl⟩, rfl, ⟨rest, hcurrent⟩, hartifacts, le_rfl⟩
  simp only [fromDurableFacts, replayReducer_eq accepted nonempty, revision]

theorem records_of_existing (existing : existed = false → stored.records = []) :
    ((if existed then some stored else none).map (·.records)).getD [] = stored.records := by
  cases existed with
  | true => rfl
  | false => exact (existing rfl).symm

namespace Committed

variable (committed : Committed transaction existed grantIdInUse stored outcome stored')
  (saved : Saved codec database transaction.sessionId current)
  (numbered : ((database.recordRows transaction.sessionId).map (·.sequence)).Nodup)
  (guarded : validatePersistedExpectation database transaction = .ok ())
  (consistent : stored.Consistent) (precedes : stored.Precedes current)
  (existing : existed = false → stored.records = [])

include committed saved numbered guarded consistent precedes existing

/-- A transaction that passes the guards against the tables and is applied to a beginning of the
saved session was applied to all of its records, and to all of its journals if it extends them. -/
theorem covers : stored.records = current.records ∧
      (0 < transaction.approvalArtifacts.length + transaction.grantEntries.length →
        stored.journalRevision = current.journalRevision) := by
  obtain ⟨expected, revision⟩ := of_validatePersistedExpectation_eq_ok guarded
  obtain ⟨-, expectation, -, -, advanced⟩ := guardTransaction_eq_ok.mp committed.guarded
  have log := records_of_existing existing
  constructor
  · refine precedes.records.eq_of_length ?_
    rw [← expectedLength_of_validateExpectation log consistent.accepted expectation, expected,
      saved.tail_eq numbered, saved.consistent.accepted.expectedLength_getLast?]
  · intro entries
    have cached := (nextJournalRevision_eq_ok advanced).2 entries
    rw [revision entries, saved.revision_eq] at cached
    exact (Option.some.inj cached).symm

/-- The saved session after a transaction, which extends it whatever beginning of it was cached. -/
theorem exists_saved
    (persisted : persist codec transaction stored.grantJournal.length database = .ok database') :
    ∃ current', Saved codec database' transaction.sessionId current' ∧
      stored'.Precedes current' ∧ current.Precedes current' ∧
      current'.records = current.records ++ transaction.records ∧ current'.records ≠ [] := by
  obtain ⟨records, revision⟩ :=
    committed.covers saved numbered guarded consistent precedes existing
  obtain ⟨-, expectation, -, -, advanced⟩ := guardTransaction_eq_ok.mp committed.guarded
  have nonempty := records_ne_nil_of_validateExpectation expectation
  rw [records] at nonempty
  let current' : StoredSession :=
    { records := current.records ++ transaction.records
      approvalArtifacts := current.approvalArtifacts ++ transaction.approvalArtifacts
      grantJournal := current.grantJournal ++ transaction.grantEntries
      artifacts := .rebuildFromJournals
        (current.approvalArtifacts ++ transaction.approvalArtifacts)
        (current.grantJournal ++ transaction.grantEntries)
      journalRevision := current.journalRevision +
        (transaction.approvalArtifacts.length + transaction.grantEntries.length)
      reducer := stored'.reducer }
  have consistent' : current'.Consistent := by
    have accepted := committed.accepted
    rw [records] at accepted
    refine ⟨accepted, ?_⟩
    have before := saved.consistent.revision
    simp only [current', length_append]
    omega
  have bounded : current'.journalRevision < 2 ^ 64 := by
    by_cases entries : 0 < transaction.approvalArtifacts.length + transaction.grantEntries.length
    · have next := lt_of_nextJournalRevision_eq_ok advanced
      rw [(nextJournalRevision_eq_ok advanced).1, revision entries] at next
      exact next
    · have before := saved.revision
      simp only [current']
      omega
  refine ⟨current', saved.persist_self persisted (fun entries => ?_) consistent' bounded
    (ArtifactState.grants_rebuildFromJournals _ _) rfl rfl rfl, ⟨?_, ?_, ?_⟩,
    ⟨prefix_append _ _, ?_, ?_⟩, rfl, nonempty⟩
  · have positive : 0 < transaction.grantEntries.length := length_pos_of_ne_nil entries
    have same := revision (Nat.add_pos_right _ positive)
    have artifacts := precedes.artifacts
    have journal := precedes.journal
    rw [consistent.revision, saved.consistent.revision] at same
    omega
  · exact (committed.records.trans (by rw [records])) ▸ prefix_refl _
  · rw [committed.approvalArtifacts, length_append, length_append]
    exact Nat.add_le_add_right precedes.artifacts _
  · rw [committed.grantJournal, length_append, length_append]
    exact Nat.add_le_add_right precedes.journal _
  · simp [current']
  · simp [current']

end Committed

/-! ### One access -/

/-- What a worker has read is a beginning of the saved session, which has records. -/
def ReadPhase.Behind (durable : SessionId → StoredSession) : ReadPhase → Prop
  | .idle | .loaded _ => True
  | .counted command => (durable command.sessionId).records ≠ []
  | .recordsRead command records =>
    records ≠ [] ∧ records <+: (durable command.sessionId).records
  | .artifactsRead command records artifacts =>
    (records ≠ [] ∧ records <+: (durable command.sessionId).records) ∧
      artifacts.length ≤ (durable command.sessionId).approvalArtifacts.length

/-- A handle caches and reads beginnings of the saved sessions. -/
structure Handle.Behind (durable : SessionId → StoredSession) (handle : Handle) : Prop where
  cached : ∀ sessions, handle.sessions = some sessions → ∀ (sessionId : SessionId) stored,
    sessions[sessionId]? = some stored → stored.Consistent ∧ stored.Precedes (durable sessionId)
  phase : handle.phase.Behind durable

/-- The tables hold one session for every identity, with different sequence numbers, and the handles
are behind them. -/
structure SharedDatabase.Coherent (codec : RowCodec) (shared : SharedDatabase)
    (durable : SessionId → StoredSession) : Prop where
  saved : ∀ sessionId, Saved codec shared.database sessionId (durable sessionId)
  numbered : ∀ sessionId, ((shared.database.recordRows sessionId).map (·.sequence)).Nodup
  behind : ∀ side, (shared.handles side).Behind durable

theorem SharedDatabase.coherent_fresh (codec : RowCodec) :
    fresh.Coherent codec fun _ => .empty where
  saved _ := .empty rfl rfl rfl
  numbered _ := nodup_nil
  behind _ :=
    { cached := by
        rintro _ ⟨⟩ sessionId stored hstored
        simp at hstored
      phase := trivial }

/-- What a handle does that is behind the tables. -/
inductive HandleMove (codec : RowCodec) (durable : SessionId → StoredSession)
    (database : Database) : Handle → HandleEvent → Database → Handle → Prop
  | unavailable {command : HandleCommand} {phase : ReadPhase} :
      HandleMove codec durable database ⟨none, phase⟩
        (.replied command (.failed workerUnavailable)) database ⟨none, phase⟩
  | served {sessions : BTreeMap SessionId StoredSession} {command : HandleCommand}
      (ready : command.sessionId ∈ sessions ∨ (durable command.sessionId).records = []) :
      HandleMove codec durable database ⟨some sessions, .idle⟩ (.issued command) database
        ⟨some sessions, .loaded command⟩
  | counted {sessions : BTreeMap SessionId StoredSession} {command : HandleCommand}
      (nonempty : (durable command.sessionId).records ≠ []) :
      HandleMove codec durable database ⟨some sessions, .idle⟩ (.issued command) database
        ⟨some sessions, .counted command⟩
  | records {sessions : BTreeMap SessionId StoredSession} {command : HandleCommand} :
      HandleMove codec durable database ⟨some sessions, .counted command⟩ .read database
        ⟨some sessions, .recordsRead command (durable command.sessionId).records⟩
  | artifacts {sessions : BTreeMap SessionId StoredSession} {command : HandleCommand}
      {records : List RecordEnvelope} :
      HandleMove codec durable database ⟨some sessions, .recordsRead command records⟩ .read database
        ⟨some sessions, .artifactsRead command records
          (sortByKey (·.recordId) (durable command.sessionId).approvalArtifacts)⟩
  | journal {sessions : BTreeMap SessionId StoredSession} {command : HandleCommand}
      {records : List RecordEnvelope} {artifacts : List ApprovalArtifactEntry}
      {stored : StoredSession} (consistent : stored.Consistent)
      (hrecords : stored.records = records)
      (precedes : stored.Precedes (durable command.sessionId)) :
      HandleMove codec durable database ⟨some sessions, .artifactsRead command records artifacts⟩
        .read database ⟨some (sessions.insert command.sessionId stored), .loaded command⟩
  | answered {sessions : BTreeMap SessionId StoredSession} {command : HandleCommand}
      {reply : StoreReply} {worker : Worker}
      (answer : answer codec command ⟨database, sessions⟩ = .ok reply worker) :
      HandleMove codec durable database ⟨some sessions, .loaded command⟩ (.replied command reply)
        worker.database ⟨some worker.sessions, .idle⟩
  | refused {sessions : BTreeMap SessionId StoredSession} {command : HandleCommand}
      {error : SessionStoreError} {worker : Worker}
      (answer : answer codec command ⟨database, sessions⟩ = .error (.error error) worker) :
      HandleMove codec durable database ⟨some sessions, .loaded command⟩
        (.replied command (.failed error)) worker.database ⟨some worker.sessions, .idle⟩
  | panicked {sessions : BTreeMap SessionId StoredSession} {command : HandleCommand}
      {message : String} {worker : Worker}
      (answer : answer codec command ⟨database, sessions⟩ = .error (.panic message) worker) :
      HandleMove codec durable database ⟨some sessions, .loaded command⟩
        (.replied command (.failed workerUnavailable)) database ⟨none, .idle⟩

variable {durable : SessionId → StoredSession} {handle handle' : Handle} {event : HandleEvent}

section Move

theorem HandleMove.of_issue {command : HandleCommand}
    (saved : ∀ sessionId, Saved codec database sessionId (durable sessionId))
    (idle : handle.phase = .idle) (h : handle.issue database command = (event, handle')) :
    HandleMove codec durable database handle event database handle' := by
  obtain ⟨_ | sessions, phase⟩ := handle
  · cases h
    exact .unavailable
  · cases idle
    have rows : (database.recordRows command.sessionId).length =
        (durable command.sessionId).records.length := by
      rw [(saved command.sessionId).records, length_map]
    simp only [Handle.issue, rows, length_eq_zero_iff, Bool.or_eq_true, decide_eq_true_eq] at h
    split_ifs at h with ready
    · cases h
      refine .served (ready.imp_left fun cached => ?_)
      exact Std.ExtTreeMap.mem_iff_contains.mpr cached
    · cases h
      exact .counted fun empty => ready (.inr empty)

theorem HandleMove.of_proceed (lossless : codec.Lossless)
    (saved : ∀ sessionId, Saved codec database sessionId (durable sessionId))
    (behind : handle.Behind durable)
    (h : handle.proceed codec database = some (event, database', handle')) :
    HandleMove codec durable database handle event database' handle' := by
  obtain ⟨_ | sessions, phase⟩ := handle
  · cases h
  · cases phase with
    | idle => cases h
    | counted command =>
      simp only [Handle.proceed, (saved command.sessionId).loadRecords lossless] at h
      cases h
      exact .records
    | recordsRead command records =>
      simp only [Handle.proceed, (saved command.sessionId).loadApprovalArtifacts lossless] at h
      cases h
      exact .artifacts
    | artifactsRead command records artifacts =>
      obtain ⟨⟨nonempty, hrecords⟩, hartifacts⟩ := behind.phase
      obtain ⟨stored, made, consistent, same, precedes⟩ :=
        (saved command.sessionId).fromDurableFacts_of_beginning nonempty hrecords hartifacts
      simp only [Handle.proceed, (saved command.sessionId).loadGrantJournal lossless, made] at h
      cases h
      exact .journal consistent same precedes
    | loaded command =>
      simp only [Handle.proceed] at h
      split at h
      · next answer =>
        cases h
        exact .answered answer
      · next answer =>
        cases h
        exact .refused answer
      · next answer =>
        cases h
        exact .panicked answer

end Move

theorem Worker.answer_load (codec : RowCodec) (worker : Worker) (sessionId : SessionId) :
    answer codec (.load sessionId) worker =
      match worker.sessions[sessionId]? with
      | none => .error (.error sessionNotFound) worker
      | some stored =>
        match stored.snapshot with
        | .ok snapshot => .ok (.snapshot snapshot) worker
        | .error error => .error error worker := by
  simp only [answer, bind_run, get_run]
  cases worker.sessions[sessionId]? with
  | none => rfl
  | some stored =>
    simp only [bind_run, propagate]
    cases stored.snapshot <;> rfl

theorem Worker.answer_append (codec : RowCodec) (worker : Worker)
    (transaction : AppendTransaction) :
    answer codec (.append transaction) worker =
      match finishAppend codec transaction worker with
      | .ok outcome worker' => .ok (.appended outcome) worker'
      | .error error worker' => .error error worker' := by
  simp only [answer, bind_run]
  cases finishAppend codec transaction worker <;> rfl

/-- How an access changes the saved sessions: an append that succeeds extends its session. -/
inductive TablesGrow (durable : SessionId → StoredSession) :
    HandleEvent → (SessionId → StoredSession) → Prop
  | kept {event : HandleEvent}
      (other : ∀ transaction outcome,
        event ≠ .replied (.append transaction) (.appended outcome)) :
      TablesGrow durable event durable
  | appended {transaction : AppendTransaction} {outcome : AppendOutcome} {current : StoredSession}
      (precedes : (durable transaction.sessionId).Precedes current)
      (records : current.records =
        (durable transaction.sessionId).records ++ transaction.records)
      (nonempty : current.records ≠ []) :
      TablesGrow durable (.replied (.append transaction) (.appended outcome))
        (update durable transaction.sessionId current)

theorem TablesGrow.precedes {durable durable' : SessionId → StoredSession} {event : HandleEvent}
    (h : TablesGrow durable event durable') (sessionId : SessionId) :
    (durable sessionId).Precedes (durable' sessionId) := by
  cases h with
  | kept _ => exact .refl _
  | appended precedes _ _ =>
    rw [update_apply]
    split_ifs with same
    · rw [same]
      exact precedes
    · exact .refl _

namespace Handle.Behind

variable {durable' : SessionId → StoredSession} {sessions : BTreeMap SessionId StoredSession}
  {phase : ReadPhase} {sessionId : SessionId}

/-- A handle that is behind stays behind when the saved sessions grow. -/
theorem mono (h : handle.Behind durable)
    (grow : ∀ sessionId, (durable sessionId).Precedes (durable' sessionId)) :
    handle.Behind durable' where
  cached sessions hsessions sessionId stored hstored := by
    obtain ⟨consistent, precedes⟩ := h.cached sessions hsessions sessionId stored hstored
    exact ⟨consistent, precedes.trans (grow sessionId)⟩
  phase := by
    have before := h.phase
    cases hphase : handle.phase with
    | idle => trivial
    | loaded _ => trivial
    | counted command =>
      rw [hphase] at before
      exact fun empty => before (prefix_nil.mp (empty ▸ (grow command.sessionId).records))
    | recordsRead command records =>
      rw [hphase] at before
      exact ⟨before.1, before.2.trans (grow command.sessionId).records⟩
    | artifactsRead command records artifacts =>
      rw [hphase] at before
      exact ⟨⟨before.1.1, before.1.2.trans (grow command.sessionId).records⟩,
        before.2.trans (grow command.sessionId).artifacts⟩

theorem of_none (h : phase.Behind durable) : Handle.Behind durable ⟨none, phase⟩ :=
  ⟨nofun, h⟩

variable (h : Handle.Behind durable ⟨some sessions, phase⟩)

include h

theorem withPhase {phase' : ReadPhase}
    (after : phase'.Behind durable) : Handle.Behind durable ⟨some sessions, phase'⟩ :=
  ⟨h.cached, after⟩

theorem insert {phase' : ReadPhase} (after : phase'.Behind durable) (consistent : stored.Consistent)
    (precedes : stored.Precedes (durable sessionId)) :
    Handle.Behind durable ⟨some (sessions.insert sessionId stored), phase'⟩ where
  cached := by
    rintro _ ⟨⟩ other found hfound
    rw [BTreeMap.getElem?_insert_eq] at hfound
    split_ifs at hfound with same
    · cases hfound
      rw [same]
      exact ⟨consistent, precedes⟩
    · exact h.cached sessions rfl other found hfound
  phase := after

theorem erase {phase' : ReadPhase} (after : phase'.Behind durable) (sessionId : SessionId) :
    Handle.Behind durable ⟨some (sessions.erase sessionId), phase'⟩ where
  cached := by
    rintro _ ⟨⟩ other found hfound
    rw [BTreeMap.getElem?_erase_eq] at hfound
    split_ifs at hfound
    exact h.cached sessions rfl other found hfound
  phase := after

theorem storedOf (database : Database) (sessionId : SessionId) :
    (storedOf ⟨database, sessions⟩ sessionId).Consistent ∧
      (storedOf ⟨database, sessions⟩ sessionId).Precedes (durable sessionId) ∧
      (sessions.contains sessionId = false →
        (storedOf ⟨database, sessions⟩ sessionId).records = []) := by
  rw [Worker.storedOf]
  cases hfound : sessions[sessionId]? with
  | none => exact ⟨consistent_empty, .empty _, fun _ => rfl⟩
  | some stored =>
    obtain ⟨consistent, precedes⟩ := h.cached sessions rfl sessionId stored hfound
    refine ⟨consistent, precedes, fun missing => ?_⟩
    exact absurd (BTreeMap.mem_of_getElem? hfound) (BTreeMap.contains_eq_false_iff.mp missing)

end Handle.Behind

/-- A move keeps the handle behind the saved sessions, which grow by what it appends. -/
theorem HandleMove.grown (move : HandleMove codec durable database handle event database' handle')
    (saved : ∀ sessionId, Saved codec database sessionId (durable sessionId))
    (numbered : ∀ sessionId, ((database.recordRows sessionId).map (·.sequence)).Nodup)
    (behind : handle.Behind durable) :
    ∃ durable', TablesGrow durable event durable' ∧
      (∀ sessionId, Saved codec database' sessionId (durable' sessionId)) ∧
      (∀ sessionId, ((database'.recordRows sessionId).map (·.sequence)).Nodup) ∧
      handle'.Behind durable' := by
  cases move with
  | unavailable => exact ⟨durable, .kept (by simp), saved, numbered, behind⟩
  | served _ => exact ⟨durable, .kept (by simp), saved, numbered, behind.withPhase trivial⟩
  | counted nonempty =>
    exact ⟨durable, .kept (by simp), saved, numbered, behind.withPhase nonempty⟩
  | records =>
    exact ⟨durable, .kept (by simp), saved, numbered,
      behind.withPhase ⟨behind.phase, prefix_refl _⟩⟩
  | artifacts =>
    refine ⟨durable, .kept (by simp), saved, numbered, behind.withPhase ⟨behind.phase, ?_⟩⟩
    exact (perm_sortByKey _ _).length_eq.le
  | journal consistent hrecords precedes =>
    exact ⟨durable, .kept (by simp), saved, numbered,
      behind.insert trivial consistent precedes⟩
  | panicked _ => exact ⟨durable, .kept (by simp), saved, numbered, .of_none trivial⟩
  | @answered sessions command reply worker answer =>
    cases command with
    | load sessionId =>
      rw [answer_load] at answer
      split at answer
      · cases answer
      · split at answer
        · cases answer
          exact ⟨durable, .kept (by simp), saved, numbered, behind.withPhase trivial⟩
        · cases answer
    | append transaction =>
      obtain ⟨consistent, precedes, existing⟩ := behind.storedOf database transaction.sessionId
      rw [answer_append] at answer
      rcases finishAppend_cases codec transaction consistent with
        ⟨outcome, stored, database', finished, guarded, committed, persisted⟩ |
          ⟨error, sessions', failed, -⟩
      · rw [finished] at answer
        cases answer
        obtain ⟨current, after, cached, grows, records, nonempty⟩ := committed.exists_saved
          (saved _) (numbered _) guarded consistent precedes existing persisted
        have advances : TablesGrow durable (.replied (.append transaction) (.appended outcome))
          (update durable transaction.sessionId current) :=
          .appended grows records nonempty
        refine ⟨_, advances, fun sessionId => ?_, fun sessionId => ?_, ?_⟩
        · rw [update_apply]
          split_ifs with same
          · rw [same]
            exact after
          · exact (saved sessionId).persist_other persisted same
        · exact nodup_of_persist (numbered sessionId) persisted
        · refine (behind.mono advances.precedes).insert trivial (committed.consistent consistent) ?_
          rw [update_self]
          exact cached
      · rw [failed] at answer
        cases answer
  | @refused sessions command error worker answer =>
    cases command with
    | load sessionId =>
      rw [answer_load] at answer
      split at answer
      · cases answer
        exact ⟨durable, .kept (by simp), saved, numbered, behind.withPhase trivial⟩
      · split at answer
        · cases answer
        · cases answer
          exact ⟨durable, .kept (by simp), saved, numbered, behind.withPhase trivial⟩
    | append transaction =>
      obtain ⟨consistent, precedes, -⟩ := behind.storedOf database transaction.sessionId
      rw [answer_append] at answer
      rcases finishAppend_cases codec transaction consistent with
        ⟨outcome, stored, database', finished, -⟩ | ⟨error, sessions', failed, kept, -⟩
      · rw [finished] at answer
        cases answer
      · rw [failed] at answer
        cases answer
        refine ⟨durable, .kept (by simp), saved, numbered, ?_⟩
        rcases kept with rfl | rfl
        · exact behind.insert trivial consistent precedes
        · exact behind.erase (by trivial) transaction.sessionId

variable {shared shared' : SharedDatabase} {side : Side}

namespace SharedDatabase.Coherent

theorem move (h : shared.Coherent codec durable) (lossless : codec.Lossless)
    (step : SharedStep codec shared (side, event) shared') :
    ∃ handle, HandleMove codec durable shared.database (shared.handles side) event shared'.database
        handle ∧
      shared'.handles = update shared.handles side handle := by
  cases step with
  | issue idle taken => exact ⟨_, .of_issue h.saved idle taken, rfl⟩
  | proceed goesOn => exact ⟨_, .of_proceed lossless h.saved (h.behind side) goesOn, rfl⟩

/-- After every access the tables hold one session for every identity, which grew by what was
appended, and the handles are behind them. -/
theorem step (h : shared.Coherent codec durable) (lossless : codec.Lossless)
    (step : SharedStep codec shared (side, event) shared') :
    ∃ durable', TablesGrow durable event durable' ∧ shared'.Coherent codec durable' := by
  obtain ⟨handle, move, hhandles⟩ := h.move lossless step
  obtain ⟨durable', advances, saved, numbered, behind⟩ :=
    move.grown h.saved h.numbered (h.behind side)
  refine ⟨durable', advances, saved, numbered, fun other => ?_⟩
  rw [hhandles, update_apply]
  split_ifs
  · exact behind
  · exact (h.behind other).mono advances.precedes

end SharedDatabase.Coherent

/-! ### Whole runs -/

namespace SharedDatabase

variable {events : List (Side × HandleEvent)} {sessionId : SessionId}

theorem coherent_of_run (lossless : codec.Lossless)
    (run : Run (SharedStep codec) fresh events shared) :
    ∃ durable, shared.Coherent codec durable ∧ ∀ side transaction outcome,
      (side, .replied (.append transaction) (.appended outcome)) ∈ events →
        transaction.records <:+: (durable transaction.sessionId).records ∧
          (durable transaction.sessionId).records ≠ [] := by
  induction run with
  | nil => exact ⟨_, coherent_fresh codec, by simp⟩
  | @snoc events shared shared' event _ last ih =>
    obtain ⟨durable, coherent, appended⟩ := ih
    obtain ⟨durable', advances, coherent'⟩ := coherent.step lossless last
    refine ⟨durable', coherent', fun side transaction outcome mem => ?_⟩
    rcases mem_append.mp mem with mem | mem
    · obtain ⟨records, nonempty⟩ := appended side transaction outcome mem
      have grows := (advances.precedes transaction.sessionId).records
      exact ⟨records.trans grows.isInfix,
        fun empty => nonempty (prefix_nil.mp (empty ▸ grows))⟩
    · obtain rfl := mem_singleton.mp mem
      cases advances with
      | kept other => exact absurd rfl (other transaction outcome)
      | appended _ records nonempty =>
        rw [update_self]
        exact ⟨records ▸ (suffix_append _ _).isInfix, nonempty⟩

end SharedDatabase

theorem StoredSession.records_of_snapshot {stored : StoredSession} {snapshot : SessionSnapshot}
    (h : stored.snapshot = .ok snapshot) : snapshot.records = stored.records := by
  rw [StoredSession.snapshot] at h
  split at h
  · cases h
  · cases h
    rfl

/-- A handle serves a `load` with at least the given records. -/
def Handle.Serves (needed : List RecordEnvelope) (sessionId : SessionId) (handle : Handle) : Prop :=
  ∃ sessions, handle.sessions = some sessions ∧
    match handle.phase with
    | .idle => False
    | .counted command => command = .load sessionId
    | .recordsRead command records => command = .load sessionId ∧ needed <+: records
    | .artifactsRead command records _ => command = .load sessionId ∧ needed <+: records
    | .loaded command => command = .load sessionId ∧
      ∃ stored, sessions[sessionId]? = some stored ∧ needed <+: stored.records

namespace HandleMove

variable {sessionId : SessionId} {needed : List RecordEnvelope}

theorem serves (move : HandleMove codec durable database handle event database' handle')
    (h : handle.Serves needed sessionId) (grown : needed <+: (durable sessionId).records)
    (unreplied : ∀ command reply, event ≠ .replied command reply) :
    handle'.Serves needed sessionId := by
  obtain ⟨_, hsessions, phase⟩ := h
  cases move with
  | unavailable => cases hsessions
  | served _ | counted _ => cases phase
  | records =>
    obtain rfl : _ = HandleCommand.load sessionId := phase
    exact ⟨_, rfl, rfl, grown⟩
  | artifacts => exact ⟨_, rfl, phase⟩
  | @journal _ _ _ _ stored _ hrecords _ =>
    obtain ⟨rfl, kept⟩ := phase
    refine ⟨_, rfl, rfl, stored, ?_, hrecords ▸ kept⟩
    rw [BTreeMap.getElem?_insert_eq]
    exact if_pos rfl
  | answered _ | refused _ | panicked _ => exact absurd rfl (unreplied _ _)

theorem reply_of_serves {command : HandleCommand} {reply : StoreReply}
    (move : HandleMove codec durable database handle (.replied command reply) database' handle')
    (h : handle.Serves needed sessionId) (nonempty : needed ≠ []) (behind : handle.Behind durable) :
    ∃ snapshot, reply = .snapshot snapshot ∧ needed <+: snapshot.records := by
  obtain ⟨sessions, hsessions, phase⟩ := h
  have answers (worker : Worker) (cached : worker.sessions = sessions)
      (phase : command = .load sessionId ∧
        ∃ stored, sessions[sessionId]? = some stored ∧ needed <+: stored.records)
      (behind : Handle.Behind durable ⟨some sessions, .loaded command⟩) :
      ∃ snapshot, answer codec command worker = .ok (.snapshot snapshot) worker ∧
        needed <+: snapshot.records := by
    obtain ⟨rfl, stored, hstored, kept⟩ := phase
    obtain ⟨consistent, -⟩ := behind.cached sessions rfl sessionId stored hstored
    have some_records : stored.records ≠ [] := fun empty =>
      nonempty (prefix_nil.mp (empty ▸ kept))
    obtain ⟨snapshot, hsnapshot, -⟩ := consistent.exists_snapshot some_records
    refine ⟨snapshot, ?_, ?_⟩
    · rw [answer_load, cached, hstored]
      simp only [hsnapshot]
    · rw [records_of_snapshot hsnapshot]
      exact kept
  cases move with
  | unavailable => cases hsessions
  | answered answer =>
    cases hsessions
    obtain ⟨snapshot, hanswer, kept⟩ := answers ⟨database, sessions⟩ rfl phase behind
    cases answer.symm.trans hanswer
    exact ⟨snapshot, rfl, kept⟩
  | refused answer | panicked answer =>
    cases hsessions
    obtain ⟨snapshot, hanswer, -⟩ := answers ⟨database, sessions⟩ rfl phase behind
    cases answer.symm.trans hanswer

end HandleMove

/-! ### Stale transactions -/

/-- A transaction is rejected as stale: its session is said to be missing or to exist already, or
its expected sequence number or journal revision to be another. -/
def SessionStoreError.Stale (error : SessionStoreError) : Prop :=
  error.code = .sessionNotFound ∨ error.code = .sessionAlreadyExists ∨
    error = sequenceConflict "expected session sequence is stale" ∨
    error = sequenceConflict "expected policy journal revision is stale"

instance (error : SessionStoreError) : Decidable error.Stale :=
  inferInstanceAs (Decidable (_ ∨ _ ∨ _ ∨ _))

variable {error : SessionStoreError}

theorem SessionStoreError.Stale.code (h : error.Stale) :
    error.code = .sessionNotFound ∨ error.code = .sessionAlreadyExists ∨
      error.code = .sequenceConflict := by
  rcases h with missing | existing | rfl | rfl
  · exact .inl missing
  · exact .inr (.inl existing)
  · exact .inr (.inr rfl)
  · exact .inr (.inr rfl)

/-- The errors that facts are refused with do not say that a transaction is stale. -/
theorem SessionStoreErrorCode.RefusesFact.not_stale
    (h : error.code.RefusesFact) : ¬ error.Stale := by
  intro stale
  rcases stale.code with code | code | code <;> rw [code] at h <;>
    simp [SessionStoreErrorCode.RefusesFact] at h

theorem not_stale_of_serialized {α : Type} {x : Except String α}
    (h : serialized x = .error error) : ¬ error.Stale := by
  cases x with
  | ok _ => cases h
  | error message =>
    cases h
    exact SessionStoreErrorCode.RefusesFact.not_stale (.inl rfl)

section Stale

variable {sessionId : SessionId}

theorem not_stale_of_serialized_bind {x : Except String String} {write : String → Written Database}
    (statement : ∀ text, write text = .error error → ¬ error.Stale)
    (h : (serialized x >>= write) = .error error) : ¬ error.Stale := by
  rcases except_bind_eq_error.mp h with h | ⟨text, -, h⟩
  · exact not_stale_of_serialized h
  · exact statement text h

theorem not_stale_of_persist {count : Nat}
    (h : persist codec transaction count database = .error error) : ¬ error.Stale := by
  have insertRecord (database : Database) (row : RecordRow)
      (h : database.insertRecord row = .error error) : ¬ error.Stale := by
    rw [Database.insertRecord] at h
    split_ifs at h <;> cases h <;> decide +kernel
  have insertArtifact (database : Database) (row : ArtifactRow)
      (h : database.insertArtifact row = .error error) : ¬ error.Stale := by
    rw [Database.insertArtifact] at h
    split_ifs at h
    cases h
    decide +kernel
  have insertJournal (database : Database) (row : JournalRow)
      (h : database.insertJournal row = .error error) : ¬ error.Stale := by
    rw [Database.insertJournal] at h
    split_ifs at h
    cases h
    decide +kernel
  have insertActiveGrant (database : Database) (row : ActiveGrantRow)
      (h : database.insertActiveGrant row = .error error) : ¬ error.Stale := by
    rw [Database.insertActiveGrant] at h
    split_ifs at h
    cases h
    decide +kernel
  rw [persist] at h
  rcases except_bind_eq_error.mp h with h | ⟨recorded, -, h⟩
  · obtain ⟨_, record, h⟩ := exists_of_foldlM_eq_error h
    exact not_stale_of_serialized_bind (fun _ => insertRecord _ _) h
  rcases except_bind_eq_error.mp h with h | ⟨resolved, -, h⟩
  · obtain ⟨_, artifact, h⟩ := exists_of_foldlM_eq_error h
    exact not_stale_of_serialized_bind (fun _ => insertArtifact _ _) h
  rcases except_bind_eq_error.mp h with h | ⟨journaled, -, h⟩
  · obtain ⟨_, entry, h⟩ := exists_of_foldlM_eq_error h
    rw [persistEntry] at h
    split_ifs at h
    · cases h
      decide +kernel
    · exact not_stale_of_serialized_bind (fun _ => insertJournal _ _) h
  obtain ⟨_, entry, h⟩ := exists_of_foldlM_eq_error h
  cases entry with
  | issued recordId grant =>
    exact not_stale_of_serialized_bind (fun _ => insertActiveGrant _ _) h
  | revoked grant =>
    refine not_stale_of_serialized_bind (fun _ h => ?_) h
    rw [Database.revokeActiveGrant] at h
    split_ifs at h
    cases h
    decide +kernel

theorem not_stale_of_validateExpectation {existing : Option StoredSession}
    (current : ((existing.map (·.records)).getD []).getLast?.map (·.sequence) =
      transaction.expectedSequence)
    (h : validateExpectation existing transaction = .error error) : ¬ error.Stale := by
  rcases validateExpectation_eq_error current h with ⟨-, -, code⟩ | ⟨message, known, rfl⟩
  · exact SessionStoreErrorCode.RefusesFact.not_stale (.inl code)
  · clear h
    revert message
    decide +kernel

theorem not_stale_of_validateIssuedIds {known : GrantId → Bool} {entries : List GrantJournalEntry}
    {seen : BTreeSet GrantId} (h : validateIssuedIds known entries seen = .error error) :
    ¬ error.Stale := by
  induction entries generalizing seen with
  | nil => cases h
  | cons entry entries ih =>
    cases entry with
    | revoked grant => exact ih h
    | issued recordId grant =>
      rw [validateIssuedIds] at h
      split_ifs at h
      · cases h
        exact SessionStoreErrorCode.RefusesFact.not_stale (.inl rfl)
      · exact ih h

theorem not_stale_of_nextJournalRevision
    (revision : transaction.expectedJournalRevision = some stored.journalRevision)
    (h : nextJournalRevision stored transaction = .error error) : ¬ error.Stale := by
  rw [nextJournalRevision, revision] at h
  split at h
  · cases h
    decide +kernel
  · rw [bne_self_eq_false, Bool.and_false] at h
    simp only [Bool.false_eq_true, if_false] at h
    split at h
    · cases h
      decide +kernel
    · cases h

theorem not_stale_of_guardTransaction
    (current : (((if existed then some stored else none).map (·.records)).getD []).getLast?.map
      (·.sequence) = transaction.expectedSequence)
    (revision : transaction.expectedJournalRevision = some stored.journalRevision)
    (h : guardTransaction transaction stored existed grantIdInUse = .error error) :
    ¬ error.Stale := by
  rw [guardTransaction] at h
  rcases except_bind_eq_error.mp h with h | ⟨_, -, h⟩
  · rw [validateTransactionShape] at h
    split_ifs at h <;> cases h <;> exact SessionStoreErrorCode.RefusesFact.not_stale (.inl rfl)
  rcases except_bind_eq_error.mp h with h | ⟨_, -, h⟩
  · exact not_stale_of_validateExpectation current h
  rcases except_bind_eq_error.mp h with h | ⟨_, -, h⟩
  · exact not_stale_of_validateIssuedIds h
  rcases except_bind_eq_error.mp h with h | ⟨_, -, h⟩
  · rw [previousSequence] at h
    split_ifs at h
    split at h
    · cases h
      exact SessionStoreErrorCode.RefusesFact.not_stale (.inr (.inr rfl))
    · cases h
  rcases except_bind_eq_error.mp h with h | ⟨_, -, h⟩
  · exact not_stale_of_nextJournalRevision revision h
  · cases h

end Stale

/-! ### What two handles show -/

/-- The expectations of a transaction are what the tables say. -/
def ExpectsTail (database : Database) (transaction : AppendTransaction) : Prop :=
  transaction.expectedSequence =
      ((database.recordRows transaction.sessionId).map (·.sequence)).max? ∧
    transaction.expectedJournalRevision =
      some ((database.artifactRows transaction.sessionId).length +
        (database.journalRows transaction.sessionId).length)

namespace SharedDatabase

/-- A handle runs and does not cache a session, or caches as many of its records as the table
has. -/
def Current (shared : SharedDatabase) (side : Side) (sessionId : SessionId) : Prop :=
  ∃ sessions, (shared.handles side).sessions = some sessions ∧
    ∀ stored, sessions[sessionId]? = some stored →
      stored.records.length = (shared.database.recordRows sessionId).length

/-- A handle runs and caches as many records and journal entries of a session as the tables have. -/
def UpToDate (shared : SharedDatabase) (side : Side) (sessionId : SessionId) : Prop :=
  ∃ sessions, (shared.handles side).sessions = some sessions ∧
    ((sessions[sessionId]?).getD .empty).records.length =
      (shared.database.recordRows sessionId).length ∧
    ((sessions[sessionId]?).getD .empty).journalRevision =
      (shared.database.artifactRows sessionId).length +
        (shared.database.journalRows sessionId).length

variable {sessionId : SessionId}

namespace Coherent

variable (h : shared.Coherent codec durable)

include h

theorem length_recordRows (sessionId : SessionId) :
    (shared.database.recordRows sessionId).length = (durable sessionId).records.length := by
  rw [(h.saved sessionId).records, length_map]

/-- The snapshots that a handle returns are beginnings of the table. -/
theorem snapshot_prefix (lossless : codec.Lossless) {snapshot : SessionSnapshot}
    (step : SharedStep codec shared (side, .replied (.load sessionId) (.snapshot snapshot))
      shared') :
    snapshot.records.map (savedRecord codec sessionId) <+:
      shared.database.recordRows sessionId := by
  obtain ⟨handle, move, -⟩ := h.move lossless step
  have behind := h.behind side
  generalize shared.handles side = before at move behind
  generalize shared'.database = database' at move
  cases move with
  | answered answer =>
    rw [answer_load] at answer
    split at answer
    · cases answer
    · next stored hstored =>
      split at answer
      · next hsnapshot =>
        cases answer
        obtain ⟨-, precedes⟩ := behind.cached _ rfl sessionId stored hstored
        rw [(h.saved sessionId).records, records_of_snapshot hsnapshot]
        exact precedes.records.map _
      · cases answer

theorem serves_of_issued (lossless : codec.Lossless)
    (current : shared.Current side sessionId) (nonempty : (durable sessionId).records ≠ [])
    (step : SharedStep codec shared (side, .issued (.load sessionId)) shared') :
    (shared'.handles side).Serves (durable sessionId).records sessionId := by
  obtain ⟨handle, move, hhandles⟩ := h.move lossless step
  obtain ⟨sessions, hsessions, cached⟩ := current
  have behind := h.behind side
  rw [hhandles, update_self]
  generalize shared.handles side = before at move behind hsessions
  generalize shared'.database = database' at move
  cases move with
  | counted _ => exact ⟨_, rfl, rfl⟩
  | served ready =>
    cases hsessions
    obtain ⟨stored, hstored⟩ := BTreeMap.exists_getElem?_of_mem (ready.resolve_right nonempty)
    refine ⟨sessions, rfl, rfl, stored, hstored, ?_⟩
    obtain ⟨-, precedes⟩ := behind.cached sessions rfl sessionId stored hstored
    have length := cached stored hstored
    rw [h.length_recordRows] at length
    exact precedes.records.eq_of_length length ▸ prefix_refl _

theorem serves_of_run (lossless : codec.Lossless)
    {needed : List RecordEnvelope} {events : List (Side × HandleEvent)}
    (serves : (shared.handles side).Serves needed sessionId)
    (grown : needed <+: (durable sessionId).records)
    (run : Run (SharedStep codec) shared events shared')
    (unreplied : ∀ command reply, (side, .replied command reply) ∉ events) :
    ∃ durable', shared'.Coherent codec durable' ∧
      (shared'.handles side).Serves needed sessionId := by
  suffices ∃ durable', shared'.Coherent codec durable' ∧ needed <+: (durable' sessionId).records ∧
      (shared'.handles side).Serves needed sessionId by
    obtain ⟨durable', coherent, -, serves⟩ := this
    exact ⟨durable', coherent, serves⟩
  induction run with
  | nil => exact ⟨durable, h, grown, serves⟩
  | @snoc events _ _ event _ last ih =>
    obtain ⟨other, event⟩ := event
    obtain ⟨durable, coherent, grown, serves⟩ := ih fun command reply mem =>
      unreplied command reply (mem_append_left _ mem)
    obtain ⟨handle, move, hhandles⟩ := coherent.move lossless last
    obtain ⟨durable', advances, after⟩ := coherent.step lossless last
    refine ⟨durable', after, grown.trans (advances.precedes sessionId).records, ?_⟩
    rw [hhandles, update_apply]
    split_ifs with same
    · subst same
      refine move.serves serves grown fun command reply replied => ?_
      exact unreplied command reply (mem_append_right _ (by simp [replied]))
    · exact serves

/-- What an append says about the tables: it succeeds at their tail and adds its records, or it
leaves them as they are. A handle that is up to date does not find the tail stale. -/
theorem append_reply (lossless : codec.Lossless)
    {transaction : AppendTransaction} {reply : StoreReply}
    (step : SharedStep codec shared (side, .replied (.append transaction) reply) shared') :
    ((∃ outcome, reply = .appended outcome) →
      transaction.expectedSequence =
          ((shared.database.recordRows transaction.sessionId).map (·.sequence)).max? ∧
        shared'.database.recordRows transaction.sessionId =
          shared.database.recordRows transaction.sessionId ++
            transaction.records.map (savedRecord codec transaction.sessionId)) ∧
    ((∀ outcome, reply ≠ .appended outcome) → shared'.database = shared.database) ∧
    (shared.UpToDate side transaction.sessionId → ExpectsTail shared.database transaction →
      ∀ error, reply = .failed error → ¬ error.Stale) := by
  obtain ⟨handle, move, -⟩ := h.move lossless step
  have behind := h.behind side
  have saved := h.saved transaction.sessionId
  have numbered := h.numbered transaction.sessionId
  have lengths := h.length_recordRows transaction.sessionId
  rw [UpToDate]
  generalize shared.handles side = before at move behind ⊢
  generalize shared'.database = database' at move ⊢
  cases move with
  | unavailable =>
    refine ⟨by simp, fun _ => rfl, ?_⟩
    rintro ⟨sessions, hsessions, -⟩
    cases hsessions
  | panicked answer =>
    refine ⟨by simp, fun _ => rfl, ?_⟩
    intro _ _ error failed
    rw [← StoreReply.failed.inj failed]
    decide +kernel
  | answered answer =>
    obtain ⟨consistent, precedes, -⟩ := behind.storedOf shared.database transaction.sessionId
    rw [answer_append] at answer
    rcases finishAppend_cases codec transaction consistent with
      ⟨outcome, stored, database', finished, guarded, committed, persisted⟩ |
        ⟨error, sessions', failed, -⟩
    · rw [finished] at answer
      cases answer
      refine ⟨fun _ => ⟨(of_validatePersistedExpectation_eq_ok guarded).1, ?_⟩, fun other => ?_,
        by simp⟩
      · rw [(rows_of_persist_eq_ok persisted transaction.sessionId).1, if_pos rfl]
      · exact absurd rfl (other outcome)
    · rw [failed] at answer
      cases answer
  | @refused sessions _ _ _ answer =>
    obtain ⟨consistent, precedes, existing⟩ :=
      behind.storedOf shared.database transaction.sessionId
    rw [answer_append] at answer
    rcases finishAppend_cases codec transaction consistent with
      ⟨outcome, stored, database', finished, -⟩ | ⟨error, sessions', failed, -, reason⟩
    · rw [finished] at answer
      cases answer
    · rw [failed] at answer
      cases answer
      refine ⟨by simp, fun _ => rfl, ?_⟩
      rintro ⟨_, ⟨⟩, records, revision⟩ ⟨tail, journal⟩ error failed
      obtain rfl := StoreReply.failed.inj failed
      rcases reason with refused | refused | refused | refused
      · rcases Refines.validatePersistedExpectation_eq_error tail.symm refused with
          ⟨missing, expects, -⟩ | ⟨present, expects, -⟩ | ⟨last, expected, hlast, hexpected, stale,
            -⟩ | ⟨-, -, -, stale⟩
        · simp [missing] at expects
        · simp [expects] at present
        · exact absurd (Option.some.inj (hlast.symm.trans hexpected)) stale
        · exact absurd journal stale
      · refine not_stale_of_guardTransaction ?_ (journal.trans (congrArg some revision.symm))
          refused
        have same := precedes.records.eq_of_length (records.trans lengths)
        rw [tail, saved.tail_eq numbered, ← same]
        exact congrArg (fun log => log.getLast?.map (·.sequence)) (records_of_existing existing)
      · exact refused.not_stale
      · exact not_stale_of_persist refused

end Coherent

/-- One access of a handle: it takes the given command, or goes on without one. -/
def access (codec : RowCodec) (side : Side) (command : Option HandleCommand)
    (shared : SharedDatabase) : Option (HandleEvent × SharedDatabase) :=
  match command with
  | some command =>
    if (shared.handles side).phase = .idle then
      let (event, handle) := (shared.handles side).issue shared.database command
      some (event, ⟨shared.database, update shared.handles side handle⟩)
    else none
  | none =>
    ((shared.handles side).proceed codec shared.database).map fun (event, database, handle) =>
      (event, ⟨database, update shared.handles side handle⟩)

/-- The events of a list of accesses, and the tables and handles after them. -/
def play (codec : RowCodec) : List (Side × Option HandleCommand) → SharedDatabase →
    List (Side × HandleEvent) × SharedDatabase
  | [], shared => ([], shared)
  | (side, command) :: accesses, shared =>
    match access codec side command shared with
    | none => play codec accesses shared
    | some (event, next) =>
      ((side, event) :: (play codec accesses next).1, (play codec accesses next).2)

theorem sharedStep_of_access {command : Option HandleCommand}
    {next : SharedDatabase} {event : HandleEvent}
    (h : access codec side command shared = some (event, next)) :
    SharedStep codec shared (side, event) next := by
  cases command with
  | some command =>
    rw [access] at h
    split_ifs at h with idle
    cases h
    exact .issue idle rfl
  | none =>
    obtain ⟨⟨event, database, handle⟩, goesOn, same⟩ := Option.map_eq_some_iff.mp h
    cases same
    exact .proceed goesOn

theorem run_play (codec : RowCodec) (accesses : List (Side × Option HandleCommand))
    (shared : SharedDatabase) :
    Run (SharedStep codec) shared (play codec accesses shared).1
      (play codec accesses shared).2 := by
  induction accesses generalizing shared with
  | nil => exact .nil
  | cons first accesses ih =>
    obtain ⟨side, command⟩ := first
    rw [play]
    split
    · exact ih shared
    · next event next accessed =>
      exact Run.cons_iff.mpr ⟨next, sharedStep_of_access accessed, ih next⟩

theorem sharedStep_of_play {access : Side × Option HandleCommand} {event : Side × HandleEvent}
    (h : (play codec [access] shared).1 = [event]) :
    SharedStep codec shared event (play codec [access] shared).2 := by
  have run := run_play codec [access] shared
  rw [h] at run
  obtain ⟨next, step, rest⟩ := Run.cons_iff.mp run
  rw [Run.nil_iff.mp rest]
  exact step

end SharedDatabase

/-- The transaction that an event commits. -/
def HandleEvent.commits : HandleEvent → Option AppendTransaction
  | .replied (.append transaction) (.appended _) => some transaction
  | _ => none

/-- The records that an event shows. -/
def HandleEvent.shows : HandleEvent → Option (List RecordEnvelope)
  | .replied _ (.snapshot snapshot) => some snapshot.records
  | _ => none

theorem HandleEvent.exists_of_commits {events : List (Side × HandleEvent)} {side : Side}
    (h : (side, some transaction) ∈ events.map fun event => (event.1, event.2.commits)) :
    ∃ outcome, (side, .replied (.append transaction) (.appended outcome)) ∈ events := by
  obtain ⟨⟨_, event⟩, mem, same⟩ := mem_map.mp h
  obtain ⟨rfl, committed⟩ := Prod.mk.inj same
  dsimp only at committed
  unfold commits at committed
  split at committed
  · cases committed
    exact ⟨_, mem⟩
  · cases committed

open SessionReducer in
/-- An append that continues a created session. -/
def continuing (sequence : Nat) : AppendTransaction where
  sessionId := ⟨0⟩
  expectedSequence := some sequence
  records := [profileChanged (sequence + 1) ⟨"a"⟩]
  expectedJournalRevision := some 0
  approvalArtifacts := []
  grantEntries := []

/-- The codec of the created session and its continuations. -/
def continuingCodec : RowCodec :=
  tallyRowCodec (numberedCreationTransaction.records ++ (continuing 0).records ++
    (continuing 1).records) []

/-- The first handle creates a session. -/
def creatingAccesses : List (Side × Option HandleCommand) :=
  [(.first, some (.append numberedCreationTransaction)), (.first, none)]

/-- The second handle loads the session, and the first one appends to it. -/
def continuingAccesses : List (Side × Option HandleCommand) :=
  creatingAccesses ++ [(.second, some (.load ⟨0⟩)), (.second, none), (.second, none),
    (.second, none), (.second, none), (.first, some (.append (continuing 0))), (.first, none)]

namespace SharedDatabase

/-- The session was created. -/
def created : SharedDatabase := (play continuingCodec creatingAccesses fresh).2

/-- The second handle takes a `load` of the created session. -/
def issued : SharedDatabase := (play continuingCodec [(.second, some (.load ⟨0⟩))] created).2

/-- The second handle has read the created session. -/
def reading : SharedDatabase :=
  (play continuingCodec [(.second, none), (.second, none), (.second, none)] issued).2

/-- The session was created, loaded and continued. -/
def continued : SharedDatabase := (play continuingCodec continuingAccesses fresh).2

end SharedDatabase

end TeaRs
