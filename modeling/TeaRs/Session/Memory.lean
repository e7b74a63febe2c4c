import TeaRs.Session.StoreEngine

/-!
# The in-memory session store

The reference implementation of a session store, after `tea-session/src/memory.rs`. Every operation
takes the lock of the whole store once, so a history of the store is a list of commands in the order
in which they took it, whichever client issued them. A panic under the write lock poisons it.

## Main definitions

* `StoreCommand`, `StoreReply`: the operations of a session store and their results.
* `InMemorySessionStore`, with `append`, `load` and `activeGrantsForActor`.
* `StoreEvent`, `InMemorySessionStore.History`: a history of commands and replies.

## Main results

* `InMemorySessionStore.Consistent.append_cases`: what an append does to the store.
* `InMemorySessionStore.History.grantsIndexed`: a grant belongs to one session.
* `InMemorySessionStore.no_lost_update`: in every history the records of a session only grow, carry
  the sequence numbers from zero, and no two successful appends to a session used the same guard.
* `InMemorySessionStore.replies_answered`: no command ends in a panic, and sessions can be loaded.
-/

namespace TeaRs

open StateError BTreeMap List

/-! ### Commands and replies -/

/-- The operations of a `SessionStore`. -/
inductive StoreCommand where
  | load (sessionId : SessionId)
  | append (transaction : AppendTransaction)
  | activeGrantsForActor (actorId : ActorId)
  deriving DecidableEq

/-- What an operation of a `SessionStore` returns. -/
inductive StoreReply where
  | snapshot (snapshot : SessionSnapshot)
  | appended (outcome : AppendOutcome)
  | grants (grants : List PolicyGrant)
  | failed (error : SessionStoreError)
  | panicked (message : String)
  deriving DecidableEq

/-- The reply for the result of an operation. -/
def StoreReply.ofResult {σ α : Type} (reply : α → StoreReply) :
    EStateM.Result (Abort SessionStoreError) σ α → StoreReply
  | .ok a _ => reply a
  | .error (.error error) _ => .failed error
  | .error (.panic message) _ => .panicked message

/-- `active_grants_for_actor` over the stored sessions of a store. -/
def activeGrantsOf (sessions : List StoredSession) (actorId : ActorId) : List PolicyGrant :=
  let grants := (sessions.flatMap fun stored => stored.artifacts.activeGrants).filter
    fun grant => grant.actorId == actorId
  (sortByKey (·.id) grants).destutter fun a b => a.id ≠ b.id

/-! ### The store -/

/-- `InMemorySessionStore`, without the display names of its sessions. -/
structure InMemorySessionStore where
  sessions : BTreeMap SessionId StoredSession
  poisoned : Bool
  deriving DecidableEq

variable {store store' : InMemorySessionStore} {transaction : AppendTransaction}
  {outcome : AppendOutcome}

namespace InMemorySessionStore

/-- Programs of the store. -/
abbrev MemoryM := EStateM (Abort SessionStoreError) InMemorySessionStore

/-- `InMemorySessionStore::new`. -/
def new : InMemorySessionStore := ⟨∅, false⟩

/-- The error of an operation that finds the lock poisoned. -/
def lockPoisoned : SessionStoreError :=
  .new .storageUnavailable "in-memory session store lock is poisoned"

/-- Whether some journal of the store mentions a grant: membership in `known_grant_ids`. -/
def grantIdInUse (store : InMemorySessionStore) (id : GrantId) : Bool :=
  (valueList store.sessions).any fun stored =>
    stored.grantJournal.any fun entry => entry.grantId == id

/-- The stored session that an append works on: the existing one, or a default one. -/
def storedOf (store : InMemorySessionStore) (sessionId : SessionId) : StoredSession :=
  (store.sessions[sessionId]?).getD .empty

/-- `InMemorySessionStore::append_sync`. -/
def append (transaction : AppendTransaction) : MemoryM AppendOutcome := fun store =>
  if store.poisoned then .error (.error lockPoisoned) store
  else
    let existed := store.sessions.contains transaction.sessionId
    match applyTransactionInPlace transaction existed store.grantIdInUse
        (store.storedOf transaction.sessionId) with
    | .ok outcome stored =>
      .ok outcome { store with sessions := store.sessions.insert transaction.sessionId stored }
    | .error (.error error) stored =>
      let sessions := store.sessions.insert transaction.sessionId stored
      .error (.error error)
        { store with
          sessions := if existed then sessions else sessions.erase transaction.sessionId }
    | .error (.panic message) stored =>
      .error (.panic message)
        { sessions := store.sessions.insert transaction.sessionId stored, poisoned := true }

/-- `InMemorySessionStore::load`. -/
def load (sessionId : SessionId) : MemoryM SessionSnapshot := do
  let store ← get
  ensure (!store.poisoned) (.error lockPoisoned)
  match store.sessions[sessionId]? with
  | none => fail (.new .sessionNotFound "session does not exist")
  | some stored => propagate stored.snapshot

/-- `InMemorySessionStore::active_grants_for_actor`. -/
def activeGrantsForActor (actorId : ActorId) : MemoryM (List PolicyGrant) := do
  let store ← get
  ensure (!store.poisoned) (.error lockPoisoned)
  return activeGrantsOf (valueList store.sessions) actorId

/-- The reply to a command, and the store after it. -/
def execute (command : StoreCommand) (store : InMemorySessionStore) :
    StoreReply × InMemorySessionStore :=
  match command with
  | .load sessionId =>
    let result := load sessionId store
    (.ofResult .snapshot result, resultState result)
  | .append transaction =>
    let result := append transaction store
    (.ofResult .appended result, resultState result)
  | .activeGrantsForActor actorId =>
    let result := activeGrantsForActor actorId store
    (.ofResult .grants result, resultState result)

/-- The records of a session, none if the session does not exist. -/
def recordsOf (store : InMemorySessionStore) (sessionId : SessionId) : List RecordEnvelope :=
  (store.storedOf sessionId).records

/-- The journal revision of a session, zero if the session does not exist. -/
def journalRevisionOf (store : InMemorySessionStore) (sessionId : SessionId) : Nat :=
  (store.storedOf sessionId).journalRevision

variable {sessionId : SessionId}

theorem storedOf_eq_of_some
    {stored : StoredSession} (h : store.sessions[sessionId]? = some stored) :
    store.storedOf sessionId = stored := by
  rw [storedOf, h, Option.getD_some]

theorem storedOf_eq_of_none
    (h : store.sessions[sessionId]? = none) : store.storedOf sessionId = .empty := by
  rw [storedOf, h, Option.getD_none]

theorem map_records_getD (store : InMemorySessionStore) (sessionId : SessionId) :
    ((store.sessions[sessionId]?).map (·.records)).getD [] = store.recordsOf sessionId := by
  rw [recordsOf, storedOf]
  cases store.sessions[sessionId]? <;> rfl

theorem existing_eq (store : InMemorySessionStore) (sessionId : SessionId) :
    (if store.sessions.contains sessionId then
      some (store.storedOf sessionId) else none) = store.sessions[sessionId]? := by
  rw [storedOf]
  cases hlookup : store.sessions[sessionId]? with
  | none =>
    have missing := contains_eq_false_iff.mpr
      (getElem?_eq_none_iff_notMem.mp hlookup)
    rw [missing, if_neg (by simp)]
  | some stored =>
    rw [if_pos (Std.ExtTreeMap.mem_iff_contains.mp (mem_of_getElem? hlookup)),
      Option.getD_some]

/-! ### What an append does -/

/-- Every stored session is consistent and was created, and the lock is not poisoned. -/
structure Consistent (store : InMemorySessionStore) : Prop where
  sessions : ∀ (sessionId : SessionId) stored, store.sessions[sessionId]? = some stored →
    stored.Consistent ∧ stored.records ≠ []
  unpoisoned : store.poisoned = false

theorem consistent_new : new.Consistent := ⟨by simp [new], rfl⟩

namespace Consistent

theorem storedOf (h : store.Consistent) (sessionId : SessionId) :
    (store.storedOf sessionId).Consistent := by
  rw [InMemorySessionStore.storedOf]
  cases hlookup : store.sessions[sessionId]? with
  | none => exact StoredSession.consistent_empty
  | some stored => exact (h.sessions sessionId stored hlookup).1

/-- An append commits its transaction to one session, or it fails and changes nothing. -/
theorem append_cases (h : store.Consistent) (transaction : AppendTransaction) : (∃ outcome stored,
      applyTransactionInPlace transaction (store.sessions.contains transaction.sessionId)
        store.grantIdInUse (store.storedOf transaction.sessionId) = .ok outcome stored ∧
      Committed transaction (store.sessions.contains transaction.sessionId) store.grantIdInUse
        (store.storedOf transaction.sessionId) outcome stored ∧
      append transaction store = .ok outcome
        { store with sessions := store.sessions.insert transaction.sessionId stored }) ∨
    ∃ error,
      applyTransactionInPlace transaction (store.sessions.contains transaction.sessionId)
        store.grantIdInUse (store.storedOf transaction.sessionId) =
          .error (.error error) (store.storedOf transaction.sessionId) ∧
      append transaction store = .error (.error error) store := by
  rcases (h.storedOf transaction.sessionId).applyTransactionInPlace_cases transaction
    (store.sessions.contains transaction.sessionId) store.grantIdInUse with
    ⟨outcome, stored, ok, committed⟩ | ⟨error, failed, -⟩
  · exact .inl ⟨outcome, stored, ok, committed, by simp [append, h.unpoisoned, ok]⟩
  · refine .inr ⟨error, failed, ?_⟩
    rw [append, if_neg (by simp [h.unpoisoned])]
    simp only [failed]
    congr
    cases hlookup : store.sessions[transaction.sessionId]? with
    | some stored =>
      rw [if_pos (Std.ExtTreeMap.mem_iff_contains.mp (mem_of_getElem? hlookup)),
        storedOf_eq_of_some hlookup, insert_eq_self hlookup]
    | none =>
      have missing := getElem?_eq_none_iff_notMem.mp hlookup
      rw [if_neg (by simpa using missing), erase_insert_eq_self missing]

end Consistent

/-! ### Histories -/

theorem load_state (sessionId : SessionId) (store : InMemorySessionStore) :
    resultState (load sessionId store) = store := by
  have frame : Frame (fun s => s) (load sessionId) := by
    refine .bind .get fun store => .bind (.ensure _ _) fun _ => ?_
    cases store.sessions[sessionId]? with
    | none => exact .throw _
    | some stored => exact .propagate _
  exact frame store

theorem activeGrantsForActor_state (actorId : ActorId) (store : InMemorySessionStore) :
    resultState (activeGrantsForActor actorId store) = store := by
  have frame : Frame (fun s => s) (activeGrantsForActor actorId) :=
    .bind .get fun _ => .bind (.ensure _ _) fun _ => .pure _
  exact frame store

end InMemorySessionStore

/-- A command that a client issued and the reply it got. -/
structure StoreEvent (Client : Type) where
  client : Client
  command : StoreCommand
  reply : StoreReply

variable {Client : Type}

namespace StoreEvent

/-- The expected sequence of a successful append of records to a session. -/
def recordGuard (sessionId : SessionId) (event : StoreEvent Client) :
    Option (Option SessionSequence) :=
  match event.command, event.reply with
  | .append transaction, .appended _ =>
    if transaction.sessionId = sessionId ∧ transaction.records ≠ [] then
      some transaction.expectedSequence
    else none
  | _, _ => none

/-- The expected journal revision of a successful append of journal entries to a session. -/
def journalGuard (sessionId : SessionId) (event : StoreEvent Client) : Option (Option Nat) :=
  match event.command, event.reply with
  | .append transaction, .appended _ =>
    if transaction.sessionId = sessionId ∧
        (transaction.approvalArtifacts ≠ [] ∨ transaction.grantEntries ≠ []) then
      some transaction.expectedJournalRevision
    else none
  | _, _ => none

end StoreEvent

namespace InMemorySessionStore

variable {event : StoreEvent Client}

/-- The store answers a command with the recorded reply. -/
def Performs (store : InMemorySessionStore) (event : StoreEvent Client)
    (store' : InMemorySessionStore) : Prop :=
  execute event.command store = (event.reply, store')

/-- A history leads from the new store to the given one. -/
def History (events : List (StoreEvent Client)) (store : InMemorySessionStore) : Prop :=
  Run Performs new events store

/-- The store and the event of a committed append. -/
structure Appends (store : InMemorySessionStore) (event : StoreEvent Client)
    (store' : InMemorySessionStore) (transaction : AppendTransaction) (outcome : AppendOutcome)
    (stored : StoredSession) : Prop where
  command : event.command = .append transaction
  reply : event.reply = .appended outcome
  committed : Committed transaction (store.sessions.contains transaction.sessionId)
    store.grantIdInUse (store.storedOf transaction.sessionId) outcome stored
  store_eq : store' = { store with sessions := store.sessions.insert transaction.sessionId stored }

namespace Consistent

theorem performs_cases (h : store.Consistent) (step : Performs store event store') :
    (store' = store ∧ ∀ outcome, event.reply ≠ .appended outcome) ∨
      ∃ transaction outcome stored, Appends store event store' transaction outcome stored := by
  obtain ⟨client, command, reply⟩ := event
  rw [Performs] at step
  dsimp only at step
  cases command with
  | load sessionId =>
    obtain ⟨rfl, rfl⟩ := Prod.mk.inj step
    refine .inl ⟨load_state sessionId store, fun outcome => ?_⟩
    dsimp only
    generalize load sessionId store = result
    rcases result with _ | (_ | _) <;> simp [StoreReply.ofResult]
  | activeGrantsForActor actorId =>
    obtain ⟨rfl, rfl⟩ := Prod.mk.inj step
    refine .inl ⟨activeGrantsForActor_state actorId store, fun outcome => ?_⟩
    dsimp only
    generalize activeGrantsForActor actorId store = result
    rcases result with _ | (_ | _) <;> simp [StoreReply.ofResult]
  | append transaction =>
    obtain ⟨rfl, rfl⟩ := Prod.mk.inj step
    rcases h.append_cases transaction with
      ⟨outcome, stored, -, committed, ok⟩ | ⟨error, -, failed⟩
    · refine .inr ⟨transaction, outcome, stored, ⟨rfl, ?_, committed, ?_⟩⟩
      · simp [ok, StoreReply.ofResult]
      · simp [ok]
    · refine .inl ⟨?_, fun outcome => ?_⟩
      · simp [failed]
      · simp [failed, StoreReply.ofResult]

end Consistent

variable {stored : StoredSession}

namespace Appends

variable (h : Appends store event store' transaction outcome stored)

include h

theorem lookup (sessionId : SessionId) : store'.sessions[sessionId]? =
      if sessionId = transaction.sessionId then some stored else store.sessions[sessionId]? := by
  rw [h.store_eq]
  exact getElem?_insert_eq

theorem storedOf_eq (sessionId : SessionId) : store'.storedOf sessionId =
      if sessionId = transaction.sessionId then stored else store.storedOf sessionId := by
  rw [storedOf, h.lookup]
  split_ifs <;> rfl

theorem recordsOf_eq (sessionId : SessionId) : store'.recordsOf sessionId =
      store.recordsOf sessionId ++
        if sessionId = transaction.sessionId then transaction.records else [] := by
  rw [recordsOf, h.storedOf_eq, recordsOf]
  split_ifs with hid
  · rw [hid, h.committed.records]
  · rw [append_nil]

theorem journalRevisionOf_eq (sessionId : SessionId) : store'.journalRevisionOf sessionId =
      store.journalRevisionOf sessionId + if sessionId = transaction.sessionId then
        transaction.approvalArtifacts.length + transaction.grantEntries.length else 0 := by
  rw [journalRevisionOf, h.storedOf_eq, journalRevisionOf]
  split_ifs with hid
  · obtain ⟨-, -, -, -, hrevision⟩ := guardTransaction_eq_ok.mp h.committed.guarded
    rw [hid, h.committed.journalRevision, (nextJournalRevision_eq_ok hrevision).1]
  · rw [Nat.add_zero]

theorem consistent (before : store.Consistent) : store'.Consistent := by
  refine ⟨fun sessionId found hfound => ?_, by rw [h.store_eq]; exact before.unpoisoned⟩
  rw [h.lookup] at hfound
  split_ifs at hfound with hid
  · cases hfound
    refine ⟨h.committed.consistent (before.storedOf _), ?_⟩
    rw [h.committed.records]
    exact records_ne_nil_of_validateExpectation (guardTransaction_eq_ok.mp h.committed.guarded).2.1
  · exact before.sessions sessionId found hfound

theorem expectedLength_eq
    (before : store.Consistent) : expectedLength transaction.expectedSequence =
      (store.recordsOf transaction.sessionId).length := by
  have expectation := (guardTransaction_eq_ok.mp h.committed.guarded).2.1
  rw [existing_eq] at expectation
  exact expectedLength_of_validateExpectation (store.map_records_getD _)
    (before.storedOf transaction.sessionId).accepted expectation

/-- The expected journal revision of a successful append of journal entries is the revision before
it. -/
theorem expectedJournalRevision_eq
    (entries : 0 < transaction.approvalArtifacts.length + transaction.grantEntries.length) :
    transaction.expectedJournalRevision =
      some (store.journalRevisionOf transaction.sessionId) := by
  obtain ⟨-, -, -, -, hrevision⟩ := guardTransaction_eq_ok.mp h.committed.guarded
  rw [(nextJournalRevision_eq_ok hrevision).2 entries, journalRevisionOf]

end Appends

/-! ### No lost update -/

/-- What later stores keep of an earlier one. -/
structure Extends (store store' : InMemorySessionStore) : Prop where
  records : ∀ sessionId, store.recordsOf sessionId <+: store'.recordsOf sessionId
  journalRevision : ∀ sessionId,
    store.journalRevisionOf sessionId ≤ store'.journalRevisionOf sessionId

theorem Extends.refl (store : InMemorySessionStore) : store.Extends store :=
  ⟨fun _ => prefix_rfl, fun _ => le_rfl⟩

theorem Extends.trans {store₁ store₂ store₃ : InMemorySessionStore} (h₁ : store₁.Extends store₂)
    (h₂ : store₂.Extends store₃) : store₁.Extends store₃ :=
  ⟨fun id => (h₁.records id).trans (h₂.records id),
    fun id => (h₁.journalRevision id).trans (h₂.journalRevision id)⟩

/-- A command keeps the store consistent and extends it. -/
theorem Consistent.performs (h : store.Consistent) (step : Performs store event store') :
    store'.Consistent ∧ store.Extends store' := by
  rcases h.performs_cases step with ⟨rfl, -⟩ | ⟨transaction, outcome, stored, appends⟩
  · exact ⟨h, .refl _⟩
  · refine ⟨appends.consistent h, fun id => ?_, fun id => ?_⟩
    · rw [appends.recordsOf_eq]
      exact prefix_append _ _
    · rw [appends.journalRevisionOf_eq]
      exact Nat.le_add_right _ _

/-- The guard of a record-carrying append is the number of records, which the append increases. -/
theorem Consistent.recordGuard (h : store.Consistent) (step : Performs store event store')
    {sessionId : SessionId} {guard : Option SessionSequence}
    (hguard : event.recordGuard sessionId = some guard) :
    (store.recordsOf sessionId).length = expectedLength guard ∧
      (store.recordsOf sessionId).length < (store'.recordsOf sessionId).length := by
  rcases h.performs_cases step with ⟨-, other⟩ | ⟨transaction, outcome, stored, appends⟩
  · cases hcommand : event.command <;> cases hreply : event.reply <;>
      simp_all [StoreEvent.recordGuard]
  · simp only [StoreEvent.recordGuard, appends.command, appends.reply] at hguard
    split_ifs at hguard with carries
    obtain ⟨rfl, nonempty⟩ := carries
    cases hguard
    refine ⟨(appends.expectedLength_eq h).symm, ?_⟩
    rw [appends.recordsOf_eq, if_pos rfl, length_append]
    have := length_pos_iff.mpr nonempty
    omega

/-- The guard of a journal-carrying append is the journal revision, which the append increases. -/
theorem Consistent.journalGuard (h : store.Consistent) (step : Performs store event store')
    {sessionId : SessionId} {guard : Option Nat}
    (hguard : event.journalGuard sessionId = some guard) :
    store.journalRevisionOf sessionId = guard.getD 0 ∧
      store.journalRevisionOf sessionId < store'.journalRevisionOf sessionId := by
  rcases h.performs_cases step with ⟨-, other⟩ | ⟨transaction, outcome, stored, appends⟩
  · cases hcommand : event.command <;> cases hreply : event.reply <;>
      simp_all [StoreEvent.journalGuard]
  · simp only [StoreEvent.journalGuard, appends.command, appends.reply] at hguard
    split_ifs at hguard with carries
    obtain ⟨rfl, nonempty⟩ := carries
    cases hguard
    have entries : 0 < transaction.approvalArtifacts.length + transaction.grantEntries.length := by
      rcases nonempty with nonempty | nonempty
      · exact Nat.add_pos_left (length_pos_iff.mpr nonempty) _
      · exact Nat.add_pos_right _ (length_pos_iff.mpr nonempty)
    rw [appends.expectedJournalRevision_eq entries, appends.journalRevisionOf_eq, if_pos rfl]
    exact ⟨rfl, Nat.lt_add_of_pos_right entries⟩

theorem History.consistent {events : List (StoreEvent Client)} (run : History events store) :
    store.Consistent :=
  run.invariant consistent_new fun _ _ _ before step => (before.performs step).1

/-- In every history of commands, issued by any clients in any order: the records of a session are
a prefix of its records after any later command; they carry the sequence numbers from zero; no two
successful appends of records to a session used the same expected sequence; no two successful
appends of journal entries to a session used the same expected journal revision; and the journal
revision of a session counts its artifacts and grant entries. -/
theorem no_lost_update {events later : List (StoreEvent Client)} (run : History events store)
    (rest : Run Performs store later store') (sessionId : SessionId) :
    store.recordsOf sessionId <+: store'.recordsOf sessionId ∧
    (store'.recordsOf sessionId).map (·.sequence) =
      range (store'.recordsOf sessionId).length ∧
    ((events ++ later).filterMap (StoreEvent.recordGuard sessionId)).Nodup ∧
    ((events ++ later).filterMap (StoreEvent.journalGuard sessionId)).Nodup ∧
    ∀ stored, store'.sessions[sessionId]? = some stored →
      stored.journalRevision = stored.approvalArtifacts.length + stored.grantJournal.length := by
  have whole : History (events ++ later) store' := Run.append_iff.mpr ⟨store, run, rest⟩
  have consistent := whole.consistent
  have extends' : store.Extends store' :=
    (rest.rel_of_step run.consistent Extends.refl (fun _ _ _ => Extends.trans)
      fun _ _ _ before step => before.performs step).2
  refine ⟨extends'.records sessionId, ?_, ?_, ?_, ?_⟩
  · exact (consistent.storedOf sessionId).accepted.sequence_eq
  · refine whole.nodup_guards (fun store => (store.recordsOf sessionId).length) expectedLength
      consistent_new (fun _ _ _ before step => ?_) fun _ _ _ _ before step =>
        before.recordGuard step
    exact ⟨(before.performs step).1, ((before.performs step).2.records sessionId).length_le⟩
  · refine whole.nodup_guards (fun store => store.journalRevisionOf sessionId) (·.getD 0)
      consistent_new (fun _ _ _ before step => ?_) fun _ _ _ _ before step =>
        before.journalGuard step
    exact ⟨(before.performs step).1, (before.performs step).2.journalRevision sessionId⟩
  · intro stored hlookup
    exact (consistent.sessions sessionId stored hlookup).1.revision

/-! ### Grants over all sessions -/

/-- The journals of every session are indexed, and a grant belongs to one session. -/
structure GrantsIndexed (store : InMemorySessionStore) : Prop where
  indexed : ∀ sessionId, (store.storedOf sessionId).JournalsIndexed
  session_unique : ∀ {sessionId other : SessionId} {id : GrantId},
    id ∈ (store.storedOf sessionId).artifacts.grants →
      id ∈ (store.storedOf other).artifacts.grants → sessionId = other

namespace GrantsIndexed

variable (h : store.GrantsIndexed)

include h

theorem grantIdInUse_iff {id : GrantId} : store.grantIdInUse id = true ↔
      ∃ sessionId, id ∈ (store.storedOf sessionId).artifacts.grants := by
  simp only [grantIdInUse, any_eq_true, mem_valueList, beq_iff_eq]
  constructor
  · rintro ⟨stored, ⟨sessionId, hlookup⟩, mentioned⟩
    refine ⟨sessionId, ((h.indexed sessionId).mem_grants id).mpr ?_⟩
    rwa [storedOf_eq_of_some hlookup]
  · rintro ⟨sessionId, hmem⟩
    have mentioned := ((h.indexed sessionId).mem_grants id).mp hmem
    cases hlookup : store.sessions[sessionId]? with
    | none =>
      rw [storedOf_eq_of_none hlookup] at mentioned
      obtain ⟨_, hentry, -⟩ := mentioned
      cases hentry
    | some stored =>
      rw [storedOf_eq_of_some hlookup] at mentioned
      exact ⟨stored, ⟨sessionId, hlookup⟩, mentioned⟩

theorem notMem_of_committed {existed : Bool} {stored' : StoredSession}
    (committed : Committed transaction existed store.grantIdInUse stored outcome stored')
    {entry : GrantJournalEntry} (hentry : entry ∈ transaction.grantEntries)
    (issued : entry.isIssued = true) (other : SessionId) :
    entry.grantId ∉ (store.storedOf other).artifacts.grants := by
  intro hmem
  have new := known_eq_false_of_validateIssuedIds
    (guardTransaction_eq_ok.mp committed.guarded).2.2.1 hentry issued
  have inUse := h.grantIdInUse_iff.mpr ⟨other, hmem⟩
  simp [inUse] at new

theorem mem_activeGrants_iff {actorId : ActorId} {grant : PolicyGrant} :
    grant ∈ ((valueList store.sessions).flatMap fun stored =>
        stored.artifacts.activeGrants).filter (·.actorId == actorId) ↔
      (∃ sessionId, (store.storedOf sessionId).artifacts.grants[grant.id]? = some grant) ∧
        grant.revokedAt.isNone = true ∧ grant.actorId = actorId := by
  simp only [mem_filter, mem_flatMap, mem_valueList, ArtifactState.activeGrants,
    beq_iff_eq]
  constructor
  · rintro ⟨⟨stored, ⟨sessionId, hlookup⟩, ⟨id, hgrant⟩, active⟩, actor⟩
    rw [← storedOf_eq_of_some hlookup] at hgrant
    refine ⟨⟨sessionId, ?_⟩, active, actor⟩
    rwa [(h.indexed sessionId).keyed id grant hgrant]
  · rintro ⟨⟨sessionId, hgrant⟩, active, actor⟩
    cases hlookup : store.sessions[sessionId]? with
    | none =>
      rw [storedOf_eq_of_none hlookup] at hgrant
      simp [StoredSession.empty, ArtifactState.empty] at hgrant
    | some stored =>
      rw [storedOf_eq_of_some hlookup] at hgrant
      exact ⟨⟨stored, ⟨sessionId, hlookup⟩, ⟨grant.id, hgrant⟩, active⟩, actor⟩

theorem nodup_activeGrants : (((valueList store.sessions).flatMap fun stored =>
      stored.artifacts.activeGrants).map (·.id)).Nodup := by
  have known {sessionId : SessionId} {stored : StoredSession} {id : GrantId}
      (hlookup : store.sessions[sessionId]? = some stored)
      (hid : id ∈ stored.artifacts.activeGrants.map (·.id)) :
      id ∈ (store.storedOf sessionId).artifacts.grants := by
    obtain ⟨grant, hgrant, rfl⟩ := mem_map.mp hid
    obtain ⟨key, hkey⟩ := mem_valueList.mp (mem_of_mem_filter hgrant)
    rw [← storedOf_eq_of_some hlookup] at hkey
    rw [(h.indexed sessionId).keyed key grant hkey]
    exact mem_of_getElem? hkey
  rw [map_flatMap, nodup_flatMap]
  constructor
  · intro stored hstored
    obtain ⟨sessionId, hlookup⟩ := mem_valueList.mp hstored
    have keyed := (h.indexed sessionId).keyed
    rw [storedOf_eq_of_some hlookup] at keyed
    refine List.Nodup.sublist (filter_sublist.map _) (pairwise_map.mpr ?_)
    refine pairwise_valueList fun key key' grant grant' hkey hkey' distinct same => ?_
    exact distinct ((keyed key grant hkey).symm.trans (same.trans (keyed key' grant' hkey')))
  · refine pairwise_valueList fun sessionId other stored stored' hlookup hlookup'
      distinct => ?_
    intro id hid hid'
    exact distinct (h.session_unique (known hlookup hid) (known hlookup' hid'))

theorem appends
    (step : Appends store event store' transaction outcome stored) : store'.GrantsIndexed := by
  have alone {id : GrantId} {other : SessionId} (distinct : other ≠ transaction.sessionId)
      (hmem : id ∈ stored.artifacts.grants) : id ∉ (store.storedOf other).artifacts.grants := by
    intro hother
    rcases GrantStep.issued_of_run step.committed.run_grantStep hmem with
      hold | ⟨entry, hentry, issued, rfl⟩
    · exact distinct (h.session_unique hother hold)
    · exact h.notMem_of_committed step.committed hentry issued other hother
  refine ⟨fun sessionId => ?_, fun {sessionId other id} hmem hother => ?_⟩
  · rw [step.storedOf_eq]
    split_ifs
    · exact step.committed.journalsIndexed (h.indexed _)
    · exact h.indexed sessionId
  · rw [step.storedOf_eq] at hmem hother
    split_ifs at hmem hother with hid hid' hid'
    · rw [hid, hid']
    · exact absurd hother (alone hid' hmem)
    · exact absurd hmem (alone hid hother)
    · exact h.session_unique hmem hother

end GrantsIndexed

theorem grantsIndexed_new : new.GrantsIndexed := by
  have nothing (sessionId : SessionId) : new.storedOf sessionId = .empty := by
    simp [storedOf, new]
  refine ⟨fun sessionId => ?_, fun {sessionId other id} hmem => ?_⟩
  · rw [nothing]
    exact StoredSession.journalsIndexed_empty
  · rw [nothing] at hmem
    simp [StoredSession.empty, ArtifactState.empty] at hmem

/-- In every history a grant belongs to one session. -/
theorem History.grantsIndexed {events : List (StoreEvent Client)} (run : History events store) :
    store.GrantsIndexed := by
  refine (run.invariant (P := fun store => store.Consistent ∧ store.GrantsIndexed)
    ⟨consistent_new, grantsIndexed_new⟩ fun store event store' before step =>
      ⟨(before.1.performs step).1, ?_⟩).2
  rcases before.1.performs_cases step with ⟨rfl, -⟩ | ⟨transaction, outcome, stored, appends⟩
  · exact before.2
  · exact before.2.appends appends

/-- The history of a list of commands and the store after it. -/
def replies : List (Client × StoreCommand) → InMemorySessionStore →
    List (StoreEvent Client) × InMemorySessionStore
  | [], store => ([], store)
  | (client, command) :: commands, store =>
    let (reply, store) := execute command store
    let (events, store) := replies commands store
    (⟨client, command, reply⟩ :: events, store)

theorem run_replies (commands : List (Client × StoreCommand)) (store : InMemorySessionStore) :
    Run Performs store (replies commands store).1 (replies commands store).2 := by
  induction commands generalizing store with
  | nil => exact .nil
  | cons head commands ih =>
    exact Run.cons_iff.mpr ⟨(execute head.2 store).2, rfl, ih _⟩

/-- A session is loaded with all its records, or it has none and is not found. -/
def Loads (store : InMemorySessionStore) (sessionId : SessionId) : Prop :=
  (∃ snapshot, load sessionId store = .ok snapshot store ∧
      snapshot.records = store.recordsOf sessionId) ∨
    store.recordsOf sessionId = [] ∧ load sessionId store =
      .error (.error (.new .sessionNotFound "session does not exist")) store

theorem Consistent.loads (h : store.Consistent) (sessionId : SessionId) :
    store.Loads sessionId := by
  rw [Loads, recordsOf]
  cases found : store.sessions[sessionId]? with
  | none =>
    rw [storedOf_eq_of_none found]
    exact .inr ⟨rfl, by simp [load, bind_run, ensure, h.unpoisoned, found]⟩
  | some stored =>
    obtain ⟨consistent, recorded⟩ := h.sessions sessionId stored found
    rw [storedOf_eq_of_some found]
    cases state : stored.reducer.state with
    | none => exact absurd (consistent.accepted.eq_nil_of_state state) recorded
    | some => simp [load, bind_run, ensure, h.unpoisoned, found, StoredSession.snapshot, state]

theorem Consistent.execute_ne_panicked (h : store.Consistent) (command : StoreCommand)
    (message : String) : (execute command store).1 ≠ .panicked message := by
  cases command with
  | load sessionId =>
    rcases h.loads sessionId with ⟨snapshot, ok, -⟩ | ⟨-, failed⟩ <;>
      simp [execute, StoreReply.ofResult, *]
  | append transaction =>
    rcases h.append_cases transaction with ⟨outcome, stored, -, -, ok⟩ | ⟨error, -, failed⟩ <;>
      simp [execute, StoreReply.ofResult, *]
  | activeGrantsForActor actorId =>
    simp [execute, activeGrantsForActor, bind_run, ensure, h.unpoisoned, StoreReply.ofResult]

/-- Whatever commands clients issue, none ends in a panic, and after them a session is loaded with
all its records. -/
theorem replies_answered (commands : List (Client × StoreCommand)) :
    (∀ event ∈ (replies commands new).1, ∀ message, event.reply ≠ .panicked message) ∧
      ∀ sessionId, (replies commands new).2.Loads sessionId := by
  have run := run_replies commands new
  refine ⟨fun event mem message => ?_, (History.consistent run).loads⟩
  obtain ⟨before, after, split⟩ := append_of_mem mem
  rw [split] at run
  obtain ⟨s, first, rest⟩ := Run.append_iff.mp run
  obtain ⟨t, step, -⟩ := Run.cons_iff.mp rest
  have answered := (History.consistent first).execute_ne_panicked event.command message
  rwa [show execute event.command s = _ from step] at answered

/-- Two clients read the created session and append a record after its creation. -/
def raceCommands : List (Nat × StoreCommand) :=
  [(0, .load ⟨0⟩), (1, .load ⟨0⟩),
    (0, .append (.new ⟨0⟩ (some 0)
      [SessionReducer.profileChanged 1 ⟨"a"⟩])),
    (1, .append (.new ⟨0⟩ (some 0)
      [SessionReducer.profileChanged 1 ⟨"b"⟩]))]

/-- The store after the session of the race is created. -/
def raceStart : List (StoreEvent Nat) × InMemorySessionStore :=
  replies [(0, .append numberedCreationTransaction)] new

/-- Of two clients that append after the same record one succeeds, the other conflicts. -/
theorem no_lost_update_race : ((raceStart.1 ++ (replies raceCommands raceStart.2).1).filterMap
        (StoreEvent.recordGuard ⟨0⟩)).Nodup ∧
      (replies raceCommands raceStart.2).1.getLast?.map (·.reply) =
        some (.failed ⟨.sequenceConflict, "expected session sequence is stale"⟩) ∧
      ((replies raceCommands raceStart.2).2.recordsOf ⟨0⟩).map (·.sequence) = [0, 1] := by
  have result := no_lost_update (run_replies [((0 : Nat), .append numberedCreationTransaction)] new)
    (run_replies raceCommands raceStart.2) ⟨0⟩
  refine ⟨result.2.2.1, by decide +kernel, ?_⟩
  rw [result.2.1]
  decide +kernel

end InMemorySessionStore

end TeaRs
