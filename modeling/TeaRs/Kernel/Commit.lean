import TeaRs.Kernel.RunLoop
import TeaRs.Session.Extension

/-!
# What a commit of the kernel does

Every durable step of the kernel continues the snapshot it holds. A commit either extends the log by
its records, and the fresh snapshot shows what the records do to the active branch, or the store
refuses and nothing changes.

## Main definitions

* `InMemorySessionStore.Sound`: the invariant of the stores a kernel works with.
* `Current`: the snapshot the kernel holds is that of the stored session.
* `Advances`: the records between two snapshots.

## Main results

* `commit_spec`: a commit extends the log by its records, or it is refused because it does not fit.
-/

namespace TeaRs

open StateError InMemorySessionStore SessionReducer.Accepted

/-! ### Sound stores -/

/-- A consistent store that keeps every session under its own identity. -/
structure InMemorySessionStore.Sound (store : InMemorySessionStore) : Prop where
  consistent : store.Consistent
  keyed : ∀ (sessionId : SessionId) stored s, store.sessions[sessionId]? = some stored →
    stored.reducer.state = some s → s.sessionId = sessionId
  bounded : ∀ (sessionId : SessionId) stored, store.sessions[sessionId]? = some stored →
    stored.journalRevision < 2 ^ 64

namespace InMemorySessionStore

variable {store store' : InMemorySessionStore} {transaction : AppendTransaction}
  {outcome : AppendOutcome} {stored : StoredSession}

theorem sound_new : new.Sound := ⟨consistent_new, by simp [new], by simp [new]⟩

theorem Sound.committed (h : store.Sound)
    (committed : Committed transaction (store.sessions.contains transaction.sessionId)
      store.grantIdInUse (store.storedOf transaction.sessionId) outcome stored) :
    ({ store with sessions := store.sessions.insert transaction.sessionId stored } :
      InMemorySessionStore).Sound := by
  have guards := guardTransaction_eq_ok.mp committed.guarded
  have nonempty := records_ne_nil_of_validateExpectation guards.2.1
  have lookup (sessionId : SessionId) :
      (store.sessions.insert transaction.sessionId stored)[sessionId]? =
        if sessionId = transaction.sessionId then some stored else store.sessions[sessionId]? :=
    BTreeMap.getElem?_insert_eq
  have accepted := committed.accepted
  refine ⟨⟨fun sessionId found hfound => ?_, h.consistent.unpoisoned⟩,
    fun sessionId found s hfound hs => ?_, fun sessionId found hfound => ?_⟩
  all_goals
    dsimp only at hfound
    rw [lookup] at hfound
    split_ifs at hfound with hid
  · cases hfound
    refine ⟨committed.consistent (h.consistent.storedOf _), ?_⟩
    rwa [committed.records]
  · exact h.consistent.sessions sessionId found hfound
  · cases hfound
    rw [hid]
    cases hstored : store.sessions[transaction.sessionId]? with
    | some before =>
      -- An existing session keeps the identity of its first records.
      rw [storedOf_eq_of_some hstored] at accepted
      obtain ⟨e, he⟩ := List.exists_mem_of_ne_nil _ (h.consistent.sessions _ _ hstored).2
      have same := sessionId_eq accepted hs (List.mem_append_left _ he)
      have before' := (h.consistent.sessions _ _ hstored).1.accepted
      obtain ⟨s₀, hs₀⟩ : ∃ s₀, before.reducer.state = some s₀ :=
        Option.ne_none_iff_exists'.mp fun empty =>
          (h.consistent.sessions _ _ hstored).2
            (eq_nil_of_state before' empty)
      rw [← same, sessionId_eq before' hs₀ he,
        h.keyed _ _ _ hstored hs₀]
    | none =>
      rw [storedOf_eq_of_none hstored] at accepted
      obtain ⟨e, he⟩ := List.exists_mem_of_ne_nil _ (show transaction.records ≠ [] by
        rw [storedOf_eq_of_none hstored] at nonempty
        exact nonempty)
      rw [← sessionId_eq accepted hs (List.mem_append_right _ he)]
      exact sessionId_eq_of_validateTransactionShape guards.1 he
  · exact h.keyed sessionId found s hfound hs
  · cases hfound
    rw [committed.journalRevision]
    exact lt_of_nextJournalRevision_eq_ok guards.2.2.2.2
  · exact h.bounded sessionId found hfound

end InMemorySessionStore

/-! ### Snapshots and commits -/

theorem StoredSession.of_snapshot {stored : StoredSession} {snapshot : SessionSnapshot}
    (h : stored.snapshot = .ok snapshot) :
    stored.reducer.state = some snapshot.state ∧ stored.records = snapshot.records ∧
      stored.approvalArtifacts = snapshot.approvalArtifacts := by
  rw [StoredSession.snapshot] at h
  split at h
  · cases h
  · next state hstate =>
    cases h
    exact ⟨hstate, rfl, rfl⟩

/-- The snapshot is that of the stored session. -/
structure Current (k : KernelState) (snapshot : SessionSnapshot) : Prop where
  sound : k.store.Sound
  found : k.store.sessions[snapshot.state.sessionId]? =
    some (k.store.storedOf snapshot.state.sessionId)
  snapshot : (k.store.storedOf snapshot.state.sessionId).snapshot = .ok snapshot

/-- The view of the active branch that belongs to a snapshot. -/
def KernelState.view (k : KernelState) (snapshot : SessionSnapshot) : ActiveView :=
  (k.store.storedOf snapshot.state.sessionId).reducer.activeView snapshot.state

/-- The kernel states before and after some records, with the snapshots that belong to them. -/
structure Advances (k : KernelState) (snapshot : SessionSnapshot) (added : List RecordEnvelope)
    (k' : KernelState) (snapshot' : SessionSnapshot) : Prop where
  current : Current k' snapshot'
  records : snapshot'.records = snapshot.records ++ added
  view : k'.view snapshot' = (k.view snapshot).afterAll added
  allowed : (k.view snapshot).AllowsAll added
  sessionId : snapshot'.state.sessionId = snapshot.state.sessionId
  activeBranchId : snapshot'.state.activeBranchId = snapshot.state.activeBranchId

variable {k : KernelState} {snapshot : SessionSnapshot}

namespace Current

variable (h : Current k snapshot)

include h

theorem state : (k.store.storedOf snapshot.state.sessionId).reducer.state = some snapshot.state :=
  (StoredSession.of_snapshot h.snapshot).1

theorem records : (k.store.storedOf snapshot.state.sessionId).records = snapshot.records :=
  (StoredSession.of_snapshot h.snapshot).2.1

theorem approvalArtifacts :
    (k.store.storedOf snapshot.state.sessionId).approvalArtifacts = snapshot.approvalArtifacts :=
  (StoredSession.of_snapshot h.snapshot).2.2

theorem consistent :
    (k.store.storedOf snapshot.state.sessionId).Consistent := h.sound.consistent.storedOf _

theorem accepted : SessionReducer.Accepted snapshot.records
    (k.store.storedOf snapshot.state.sessionId).reducer := by
  have := h.consistent.accepted
  rwa [h.records] at this

theorem contains : k.store.sessions.contains snapshot.state.sessionId = true :=
  Std.ExtTreeMap.mem_iff_contains.mp (BTreeMap.mem_of_getElem? h.found)

theorem appends {transaction : AppendTransaction}
    (fits : transaction.Fits (k.store.storedOf snapshot.state.sessionId) snapshot.state) :
    ∃ outcome store, append transaction k.store = .ok outcome store := by
  have bounded := h.sound.bounded _ _ h.found
  obtain ⟨outcome, stored, applied⟩ : ∃ outcome stored,
      applyTransactionInPlace transaction true k.store.grantIdInUse
        (k.store.storedOf snapshot.state.sessionId) = .ok outcome stored :=
    fits.applyTransactionInPlace_eq_ok h.consistent h.state bounded
  have contains := h.contains
  rw [← fits.sessionId] at contains applied
  exact ⟨outcome, { k.store with sessions := k.store.sessions.insert transaction.sessionId stored },
    by
      simp only [append, h.sound.consistent.unpoisoned, contains, applied]
      rfl⟩

theorem congr {k' : KernelState} (same : k'.store = k.store) : Current k' snapshot := by
  obtain ⟨sound, found, current⟩ := h
  rw [← same] at sound found current
  exact ⟨sound, found, current⟩

omit h in
theorem view_congr {k' : KernelState} (same : k'.store = k.store) :
    k'.view snapshot = k.view snapshot := by
  rw [KernelState.view, KernelState.view, same]

theorem load_eq :
    onStore (load snapshot.state.sessionId) k = .ok snapshot k := by
  have loaded : load snapshot.state.sessionId k.store =
      .ok snapshot k.store := by
    simp [load, bind_run, h.sound.consistent.unpoisoned, ensure, h.found,
      h.snapshot, propagate]
  simp [onStore, loaded]

end Current

namespace Advances

variable {k₁ k₂ : KernelState} {snapshot₁ snapshot₂ : SessionSnapshot}
  {records records' : List RecordEnvelope}

theorem congr (h : Advances k snapshot records k₁ snapshot₁) {k' k₁' : KernelState}
    (same : k'.store = k.store) (same₁ : k₁'.store = k₁.store) :
    Advances k' snapshot records k₁' snapshot₁ where
  current := h.current.congr same₁
  records := h.records
  view := by rw [Current.view_congr same, Current.view_congr same₁, h.view]
  allowed := by
    rw [Current.view_congr same]
    exact h.allowed
  sessionId := h.sessionId
  activeBranchId := h.activeBranchId

end Advances

theorem KernelError.message_ofStore_ne (error : SessionStoreError) :
    (ofStore error).message ≠ "" := by
  refine message_new_ne _ ?_
  rw [String.toList_append, String.toList_append]
  cases error.code <;> simp [SessionStoreErrorCode.debugName]

section Programs

variable {α : Type}

theorem wp_onPort {x : PortM α} {Q : α → KernelState → Prop}
    {E : KernelError → KernelState → Prop} :
    wp (onPort x) Q E k ↔
      wp x (fun a port => Q a { k with port }) (fun e port => E e { k with port }) k.port := by
  simp only [wp, onPort]
  cases x k.port with
  | ok a port => rfl
  | error e port => cases e <;> rfl

theorem load_spec (sound : k.store.Sound) (sessionId : SessionId) :
    wp (onStore (load sessionId))
      (fun snapshot k' => k' = k ∧ Current k snapshot ∧ snapshot.state.sessionId = sessionId)
      (fun e k' => k' = k ∧ e.message ≠ "") k := by
  cases found : k.store.sessions[sessionId]? with
  | none =>
    have missing : load sessionId k.store =
        .error (.error (.new .sessionNotFound "session does not exist")) k.store := by
      simp [load, bind_run, sound.consistent.unpoisoned, ensure, found]
    simp only [wp, onStore, missing, Abort.map, true_and]
    exact KernelError.message_ofStore_ne _
  | some stored =>
    obtain ⟨consistent, nonempty⟩ := sound.consistent.sessions sessionId stored found
    obtain ⟨snapshot, hsnapshot, -⟩ := consistent.exists_snapshot nonempty
    have state := (StoredSession.of_snapshot hsnapshot).1
    have session := sound.keyed sessionId stored snapshot.state found state
    subst session
    have current : Current k snapshot := by
      have storedOf := storedOf_eq_of_some found
      exact ⟨sound, by rw [storedOf, found], by rw [storedOf, hsnapshot]⟩
    rw [wp_of_ok current.load_eq]
    exact ⟨rfl, current, rfl⟩

/-- What a refused transaction leaves. It did not fit. -/
structure Refused (k : KernelState) (snapshot : SessionSnapshot) (transaction : AppendTransaction)
    (k' : KernelState) (error : KernelError) : Prop where
  state : k' = { k with notes := k.notes ++ [.refused transaction] }
  message : error.message ≠ ""
  misfit : ¬ transaction.Fits (k.store.storedOf snapshot.state.sessionId) snapshot.state

/-- A commit extends the log of its session by its records, or it is refused. -/
theorem commit_spec {snapshot : SessionSnapshot} (current : Current k snapshot)
    {transaction : AppendTransaction} (session : transaction.sessionId = snapshot.state.sessionId)
    (plain : ∀ e ∈ transaction.records, SessionReducer.Plain e) :
    wp (AgentKernel.commit snapshot transaction)
      (fun snapshot' k' => Advances k snapshot transaction.records k' snapshot' ∧
        snapshot'.approvalArtifacts = snapshot.approvalArtifacts ++ transaction.approvalArtifacts ∧
        k'.port = k.port ∧ k'.currentTurnId = k.currentTurnId ∧ k'.notes = k.notes)
      (fun e k' => Refused k snapshot transaction k' e) k := by
  rw [AgentKernel.commit, wp_bind, appendTransaction, wp_bind, wp_attempt]
  rcases current.sound.consistent.append_cases transaction with
    ⟨outcome, stored, -, committed, ok⟩ | ⟨error, -, failed⟩
  · have appended : onStore (append transaction) k = .ok outcome
        { k with store :=
          { k.store with
            sessions := k.store.sessions.insert transaction.sessionId stored } } := by
      simp [onStore, ok]
    rw [wp_of_ok appended]
    simp only [wp_pure]
    have sound' := current.sound.committed committed
    generalize hk' : ({ k with store :=
      { k.store with sessions := k.store.sessions.insert transaction.sessionId stored } } :
        KernelState) = k'
    have found : k'.store.sessions[snapshot.state.sessionId]? = some stored := by
      rw [← hk', ← session]
      exact BTreeMap.getElem?_insert_eq.trans (if_pos rfl)
    have storedOf := storedOf_eq_of_some found
    rw [session] at committed
    obtain ⟨s', grown⟩ := current.accepted.view_append current.state
      (by rw [← current.records]; exact committed.accepted) plain
    have stored_snapshot : stored.snapshot = .ok
        { records := stored.records
          state := s'
          approvalArtifacts := stored.approvalArtifacts
          grantJournal := stored.grantJournal
          activeGrants := stored.artifacts.activeGrants
          journalRevision := stored.journalRevision } := by
      rw [StoredSession.snapshot, grown.state]
    have current' : Current k'
        { records := stored.records
          state := s'
          approvalArtifacts := stored.approvalArtifacts
          grantJournal := stored.grantJournal
          activeGrants := stored.artifacts.activeGrants
          journalRevision := stored.journalRevision } := by
      refine ⟨by rw [← hk']; exact sound', ?_, ?_⟩
      · rw [grown.sessionId, storedOf, found]
      · rw [grown.sessionId, storedOf, stored_snapshot]
    have load := current'.load_eq
    rw [grown.sessionId] at load
    rw [wp_of_ok load]
    refine ⟨⟨current', ?_, ?_, grown.allowed, grown.sessionId, grown.activeBranchId⟩, ?_, ?_⟩
    · rw [committed.records, current.records]
    · simp only [KernelState.view, grown.sessionId, storedOf]
      exact grown.view
    · rw [committed.approvalArtifacts, current.approvalArtifacts]
    · rw [← hk']
      exact ⟨rfl, rfl, rfl⟩
  · have refused : onStore (append transaction) k =
        .error (.error (KernelError.ofStore error)) k := by
      simp [onStore, failed, Abort.map]
    rw [wp_of_error refused]
    refine ⟨rfl, KernelError.message_ofStore_ne error, fun fits => ?_⟩
    obtain ⟨outcome, stored, ok⟩ := current.appends fits
    cases failed.symm.trans ok

end Programs

/-! ### Calls of ports -/

variable {E : KernelError → PortState → Prop} {s : PortState}

theorem wp_countCall {Q : Nat → PortState → Prop} : wp countCall Q E s ↔ Q s.calls
    { s with calls := s.calls + 1 } := Iff.rfl

theorem wp_callPort {α : Type} {port : Nat → Except KernelError α} {Q : α → PortState → Prop} :
    wp (callPort port) Q E s ↔
      (∀ a, port s.calls = .ok a → Q a { s with calls := s.calls + 1 }) ∧
        ∀ e, port s.calls = .error e → E e { s with calls := s.calls + 1 } := by
  rw [callPort, wp_bind, wp_countCall, wp_check]

/-- A record that continues a branch. -/
def SessionRecord.Plain (record : SessionRecord) : Prop :=
  SessionReducer.isBranchRecord record = false ∧ SessionReducer.isSessionCreated record = false

end TeaRs
