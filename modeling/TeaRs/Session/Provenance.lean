import TeaRs.Session.Journals
import TeaRs.Session.Memory
import TeaRs.Session.Representation

/-!
# Where active grants come from

An active grant of a session goes back to one entry of its grant journal, the entry to the stored
resolution of an approval, the resolution to an earlier stored request, and both to canonical
records of the session. A grant belongs to one session, and a revocation is final.

## Main definitions

* `IssuedBy`: the issuance of a grant by an approval of its session.

## Main results

* `GrantStep.filter_eq_of_run`: an active grant has one entry, the one that issued it.
* `SessionReducer.Accepted.asks_before_resolved`: an approval is asked for before it is resolved.
* `InMemorySessionStore.History.recorded`: the journals of every stored session are recorded.
* `InMemorySessionStore.grant_provenance`: the provenance of the active grants of every reachable
  store.
-/

namespace TeaRs

open BTreeMap List

/-! ### Entries of a journal about one grant -/

namespace GrantStep

variable {entries : List GrantJournalEntry} {grants grants' : BTreeMap GrantId PolicyGrant}

/-- No entry is about a grant that is not known, and an active grant has one entry, the one that
issued it. -/
theorem filter_eq_of_run (run : Run GrantStep ∅ entries grants) (id : GrantId) :
    (grants[id]? = none → entries.filter (·.grantId == id) = []) ∧
      ∀ grant, grants[id]? = some grant → grant.revokedAt = none →
        ∃ recordId, entries.filter (·.grantId == id) = [.issued recordId grant] := by
  induction run with
  | nil => simp
  | @snoc entries grants grants' entry run last ih =>
    rw [last.grants_eq, filter_append, getElem?_insert_eq]
    split_ifs with same
    · refine ⟨nofun, fun grant found active => ?_⟩
      cases found
      cases last with
      | @issued recordId grant fresh active =>
        have earlier := ih.1 (getElem?_eq_none_iff_notMem.mpr (same ▸ fresh))
        refine ⟨recordId, ?_⟩
        rw [earlier, nil_append, same]
        simp [GrantJournalEntry.grant]
      | revoked known active' ended =>
        rw [GrantJournalEntry.grant] at active
        rw [active] at ended
        cases ended
    · have other : [entry].filter (·.grantId == id) = [] := by simp [Ne.symm same]
      rw [other, append_nil]
      exact ih

theorem revoked_of_run (run : Run GrantStep grants entries grants') {id : GrantId}
    (revoked : ∃ grant, grants[id]? = some grant ∧ grant.revokedAt.isSome = true) :
    ∃ grant, grants'[id]? = some grant ∧ grant.revokedAt.isSome = true := by
  refine run.invariant (P := fun grants => ∃ grant, grants[id]? = some grant ∧
    grant.revokedAt.isSome = true) revoked fun grants entry grants' before step => ?_
  obtain ⟨grant, found, ended⟩ := before
  rw [step.grants_eq, getElem?_insert_eq]
  split_ifs with same
  · cases step with
    | issued fresh => exact absurd (mem_of_getElem? (same ▸ found)) fresh
    | revoked known active ended => exact ⟨_, rfl, ended⟩
  · exact ⟨grant, found, ended⟩

theorem revoked_of_mem (run : Run GrantStep grants entries grants') {grant : PolicyGrant}
    (member : .revoked grant ∈ entries) :
    ∃ revoked, grants'[grant.id]? = some revoked ∧ revoked.revokedAt.isSome = true := by
  obtain ⟨before, after, rfl⟩ := append_of_mem member
  obtain ⟨_, -, rest⟩ := Run.append_iff.mp run
  obtain ⟨_, step, rest⟩ := Run.cons_iff.mp rest
  refine revoked_of_run rest ?_
  cases step with
  | revoked known active ended =>
    exact ⟨grant, by rw [getElem?_insert_eq, if_pos rfl], ended⟩

end GrantStep

/-! ### Approvals of a journal -/

variable {log records : List RecordEnvelope} {approvals : List ApprovalArtifactEntry}
  {tables : ApprovalTables}

theorem ApprovalStep.requested_of_run
    (run : Run (ApprovalStep log records) ArtifactState.empty.approvals approvals tables)
    {approvalId : ApprovalId} {request : ApprovalRequest}
    (found : tables.1[approvalId]? = some request) :
    ∃ record ∈ records, ∃ format,
      .requested record.recordId request format ∈ approvals ∧ request.Describes log record := by
  induction run with
  | nil => simp [ArtifactState.approvals, ArtifactState.empty] at found
  | @snoc approvals tables _ entry run last ih =>
    have earlier (found : tables.1[approvalId]? = some request) :
        ∃ record ∈ records, ∃ format, .requested record.recordId request format ∈
          approvals ++ [entry] ∧ request.Describes log record := by
      obtain ⟨record, member, format, stored, describes⟩ := ih found
      exact ⟨record, member, format, mem_append_left _ stored, describes⟩
    cases last with
    | @requested record stored format member describes fresh =>
      rw [getElem?_insert_eq] at found
      split_ifs at found with same
      · cases found
        exact ⟨record, member, format, by simp, describes⟩
      · exact earlier found
    | resolved => exact earlier found

theorem ApprovalStep.resolved_of_run
    (run : Run (ApprovalStep log records) ArtifactState.empty.approvals approvals tables)
    {recordId : RecordId} {resolution : ApprovalResolution}
    (member : .resolved recordId resolution ∈ approvals) :
    ∃ requested ∈ records, ∃ resolved ∈ records, ∃ before after format,
      approvals = before ++ .resolved recordId resolution :: after ∧
      .requested requested.recordId resolution.request format ∈ before ∧
      resolution.request.Describes log requested ∧
      resolved.recordId = recordId ∧ resolution.Describes resolved := by
  obtain ⟨before, after, rfl⟩ := append_of_mem member
  obtain ⟨mid, first, rest⟩ := Run.append_iff.mp run
  obtain ⟨_, step, -⟩ := Run.cons_iff.mp rest
  cases step with
  | @resolved resolved _ inside describes known fresh =>
    obtain ⟨requested, asked, format, stored, described⟩ := requested_of_run first known
    exact ⟨requested, asked, resolved, inside, before, after, format, rfl, stored, described, rfl,
      describes⟩

/-! ### The order of the canonical records -/

namespace SessionReducer

variable {r : SessionReducer} {a : ApprovalId}

theorem Accepted.asks_of_pending (h : Accepted log r) {s : MaterializedSessionState}
    (hs : r.state = some s) {pending : PendingApproval}
    (found : s.pendingApprovals[a]? = some pending) : ∃ t, Asks log a t := by
  obtain ⟨x, lookup, -, approval, -⟩ := ((h.approvalsExact hs).pending a _).mp ⟨pending, found, rfl⟩
  exact ⟨_, h.asks_of_approvalId hs lookup approval⟩

theorem Accepted.requested_unique (h : Accepted log r) {e e' : RecordEnvelope}
    (member : e ∈ log) (member' : e' ∈ log) {t t' : ToolCallId} {x x' : ProtocolTimestamp}
    (record : e.record = .approvalRequested a t x)
    (record' : e'.record = .approvalRequested a t' x') : e = e' := by
  induction h using Accepted.induct with
  | nil => cases member
  | @snoc log r q last before step _ ih =>
    have fresh {t t' : ToolCallId} {x x' : ProtocolTimestamp} {e : RecordEnvelope}
        (newest : last.record = .approvalRequested a t x) (member : e ∈ log)
        (record : e.record = .approvalRequested a t' x') : False := by
      rcases step.sameTables with ⟨s, p, t, -, step, -⟩ | ⟨other, -⟩
      · exact step.approval_fresh newest
          (before.mem_approvalIds_iff.mpr ⟨t', e, member, x', record⟩)
      · rw [newest] at other
        cases other
    rcases mem_append.mp member with member | member <;>
      rcases mem_append.mp member' with member' | member'
    · exact ih member member'
    · rw [mem_singleton.mp member'] at record'
      exact (fresh record' member record).elim
    · rw [mem_singleton.mp member] at record
      exact (fresh record member' record').elim
    · rw [mem_singleton.mp member, mem_singleton.mp member']

/-- An approval is asked for before it is resolved. -/
theorem Accepted.asks_before_resolved (h : Accepted log r) {requested resolved : RecordEnvelope}
    (asked : requested ∈ log) (member : resolved ∈ log) {t : ToolCallId} {x : ProtocolTimestamp}
    {d : ApprovalDecision} (ask : requested.record = .approvalRequested a t x)
    (answer : resolved.record = .approvalResolved a d) :
    ∃ before after, log = before ++ resolved :: after ∧ requested ∈ before := by
  obtain ⟨before, after, rfl⟩ := append_of_mem member
  refine ⟨before, after, rfl, ?_⟩
  obtain ⟨r₁, first, rest⟩ := Accepted.append_iff.mp h
  obtain ⟨r₂, step, -⟩ := Run.cons_iff.mp rest
  obtain ⟨q, accepted, -⟩ := apply_eq_ok.mp step
  rcases accepted.sameTables with ⟨s, p, t', hs, step, -⟩ | ⟨other, -⟩
  · cases step with
    | approvalResolved record found =>
      cases answer.symm.trans record
      obtain ⟨u, e, inside, y, asks⟩ := Accepted.asks_of_pending first hs found
      have same : requested = e := h.requested_unique asked (mem_append_left _ inside) ask asks
      rwa [same]
    | tool kind step => cases kind.symm.trans answer; cases step
    | message record | toolResult record | configuration record | requested record
    | approvalRequested record | runInterrupted record | runCancelled record | compacted record
    | checkpointed record => cases answer.symm.trans record
  · rw [answer] at other
    cases other

end SessionReducer

/-! ### The issuance of a grant -/

/-- A grant was issued by an approval of its session: it has one entry in the grant journal, which
names the canonical record of a resolution for the session; the stored resolution of that record
carries the grant; and an earlier record asked for the approval, with a stored request for the same
tool, profile, session and expiry. -/
structure IssuedBy (stored : StoredSession) (sessionId : SessionId) (grant : PolicyGrant)
    (requested resolved : RecordEnvelope) (resolution : ApprovalResolution) : Prop where
  entry : stored.grantJournal.filter (·.grantId == grant.id) = [.issued resolved.recordId grant]
  issuedGrant_eq : resolution.issuedGrant = some grant
  artifacts : ∃ before after format,
    stored.approvalArtifacts = before ++ .resolved resolved.recordId resolution :: after ∧
      .requested requested.recordId resolution.request format ∈ before
  records : ∃ before after, stored.records = before ++ resolved :: after ∧ requested ∈ before
  sessions : requested.sessionId = sessionId ∧ resolved.sessionId = sessionId ∧
    resolution.request.sessionId = sessionId
  resolved_eq :
    resolved.record = .approvalResolved resolution.request.approvalId .allowSession
  requested_eq : requested.record = .approvalRequested resolution.request.approvalId
    resolution.request.toolCallId resolution.request.expiresAt
  context : RequestedIn stored.records resolution.request.approvalId
    ⟨resolution.request.profileId, resolution.request.toolName.asStr⟩
  toolName_eq : grant.toolName = resolution.request.toolName
  profileId_eq : grant.profileId = resolution.request.profileId

/-- An active grant of a recorded session was issued by an approval of the session. -/
theorem StoredSession.Recorded.issuedBy {stored : StoredSession} (h : stored.Recorded)
    {sessionId : SessionId} (session : ∀ e ∈ stored.records, e.sessionId = sessionId)
    {grant : PolicyGrant} (active : grant ∈ stored.artifacts.activeGrants) :
    ∃ requested resolved resolution,
      IssuedBy stored sessionId grant requested resolved resolution := by
  obtain ⟨listed, unrevoked⟩ := mem_filter.mp active
  obtain ⟨id, found⟩ := mem_valueList.mp listed
  obtain rfl := h.indexed.keyed id grant found
  obtain ⟨recordId, entry⟩ := (GrantStep.filter_eq_of_run h.journals.granted grant.id).2 grant found
    (Option.isNone_iff_eq_none.mp unrevoked)
  have issued : .issued recordId grant ∈ stored.grantJournal :=
    mem_of_mem_filter (entry ▸ mem_singleton_self _)
  obtain ⟨resolution, stored', carries⟩ := h.journals.linked recordId grant issued
  obtain ⟨requested, asked, resolved, answered, before, after, format, split, earlier, describes,
    rfl, decides⟩ := ApprovalStep.resolved_of_run h.journals.approved stored'
  have allowed : resolution.decision = .allowSession :=
    resolution.decision_valid (by simp [carries])
  have admitted := resolution.grant_valid grant carries
  simp only [ApprovalRequest.admitsGrant, Bool.and_eq_true, beq_iff_eq] at admitted
  exact ⟨requested, resolved, resolution,
    { entry
      issuedGrant_eq := carries
      artifacts := ⟨before, after, format, split, earlier⟩
      records := h.consistent.accepted.asks_before_resolved asked answered describes.record_eq
        decides.record_eq
      sessions := ⟨session _ asked, session _ answered,
        describes.sessionId_eq.trans (session _ asked)⟩
      resolved_eq := by rw [decides.record_eq, allowed]
      requested_eq := describes.record_eq
      context := describes.context
      toolName_eq := admitted.1.1.1.1.2
      profileId_eq := admitted.1.1.1.1.1.2 }⟩

namespace InMemorySessionStore

variable {Client : Type} {store store' : InMemorySessionStore} {event : StoreEvent Client}

/-- The journals of every session are recorded, and its records belong to it. -/
structure Recorded (store : InMemorySessionStore) : Prop where
  consistent : store.Consistent
  indexed : store.GrantsIndexed
  stored : ∀ sessionId, (store.storedOf sessionId).Recorded
  session : ∀ sessionId, ∀ e ∈ store.recordsOf sessionId, e.sessionId = sessionId

theorem recorded_new : new.Recorded := by
  have nothing (sessionId : SessionId) : new.storedOf sessionId = .empty := by
    simp [storedOf, new]
  refine ⟨consistent_new, grantsIndexed_new, fun sessionId => ?_, fun sessionId e member => ?_⟩
  · rw [nothing]
    exact StoredSession.recorded_empty
  · rw [recordsOf, nothing] at member
    cases member

/-- A command keeps the journals recorded, and only adds entries to them. -/
theorem Recorded.performs (h : store.Recorded) (step : Performs store event store') :
    store'.Recorded ∧ ∀ sessionId,
      ∃ entries, Run GrantStep (store.storedOf sessionId).artifacts.grants entries
        (store'.storedOf sessionId).artifacts.grants := by
  rcases h.consistent.performs_cases step with ⟨rfl, -⟩ | ⟨transaction, outcome, stored, appends⟩
  · exact ⟨h, fun sessionId => ⟨[], .nil⟩⟩
  · have shape := (guardTransaction_eq_ok.mp appends.committed.guarded).1
    refine ⟨⟨appends.consistent h.consistent, h.indexed.appends appends, fun sessionId => ?_,
      fun sessionId e member => ?_⟩, fun sessionId => ?_⟩
    · rw [appends.storedOf_eq]
      split_ifs
      · exact appends.committed.recorded (h.stored _)
      · exact h.stored sessionId
    · rw [appends.recordsOf_eq, mem_append] at member
      rcases member with member | member
      · exact h.session sessionId e member
      · split_ifs at member with same
        · rw [same]
          exact sessionId_eq_of_validateTransactionShape shape member
        · cases member
    · rw [appends.storedOf_eq]
      split_ifs with same
      · rw [same]
        exact ⟨_, appends.committed.run_grantStep⟩
      · exact ⟨[], .nil⟩

theorem History.recorded {events : List (StoreEvent Client)} (run : History events store) :
    store.Recorded :=
  run.invariant recorded_new fun _ _ _ before step => (before.performs step).1

theorem Recorded.grants_of_run (h : store.Recorded) {later : List (StoreEvent Client)}
    (rest : Run Performs store later store') (sessionId : SessionId) :
    ∃ entries, Run GrantStep (store.storedOf sessionId).artifacts.grants entries
      (store'.storedOf sessionId).artifacts.grants := by
  refine (rest.rel_of_step (P := Recorded) (Q := fun store store' => ∃ entries, Run GrantStep
    (store.storedOf sessionId).artifacts.grants entries
      (store'.storedOf sessionId).artifacts.grants) h (fun _ => ⟨[], .nil⟩) ?_ ?_).2
  · rintro _ _ _ ⟨first, run⟩ ⟨second, run'⟩
    exact ⟨first ++ second, Run.append_iff.mpr ⟨_, run, run'⟩⟩
  · intro store event store' before step
    exact ⟨(before.performs step).1, (before.performs step).2 sessionId⟩

/-- In every reachable store: an active grant was issued by an approval of its session; no two
sessions issued the same grant identity; and after any later commands a revoked grant is not active
in any session. -/
theorem grant_provenance {events later : List (StoreEvent Client)} (run : History events store)
    (rest : Run Performs store later store') :
    (∀ sessionId, ∀ grant ∈ (store.storedOf sessionId).artifacts.activeGrants,
      ∃ requested resolved resolution,
        IssuedBy (store.storedOf sessionId) sessionId grant requested resolved resolution) ∧
    (∀ sessionId sessionId' recordId recordId' grant grant',
      .issued recordId grant ∈ (store.storedOf sessionId).grantJournal →
      .issued recordId' grant' ∈ (store.storedOf sessionId').grantJournal →
      grant.id = grant'.id → sessionId = sessionId') ∧
    ∀ sessionId revoked, .revoked revoked ∈ (store.storedOf sessionId).grantJournal →
      ∀ sessionId', ∀ grant ∈ (store'.storedOf sessionId').artifacts.activeGrants,
        grant.id ≠ revoked.id := by
  have h := run.recorded
  have h' : store'.Recorded := History.recorded (Run.append_iff.mpr ⟨store, run, rest⟩)
  refine ⟨fun sessionId grant active => ?_, ?_, ?_⟩
  · exact (h.stored sessionId).issuedBy (h.session sessionId) active
  · intro sessionId sessionId' recordId recordId' grant grant' issued issued' same
    have known := ((h.indexed.indexed sessionId).mem_grants grant.id).mpr ⟨_, issued, rfl⟩
    have known' := ((h.indexed.indexed sessionId').mem_grants grant.id).mpr ⟨_, issued', same.symm⟩
    exact h.indexed.session_unique known known'
  · intro sessionId revoked member sessionId' grant active same
    obtain ⟨listed, unrevoked⟩ := mem_filter.mp active
    obtain ⟨id, found⟩ := mem_valueList.mp listed
    obtain rfl := (h'.indexed.indexed sessionId').keyed id grant found
    obtain ⟨entries, later⟩ := h.grants_of_run rest sessionId
    obtain ⟨ended, found', isRevoked⟩ := GrantStep.revoked_of_run later
      (GrantStep.revoked_of_mem (h.stored sessionId).journals.granted member)
    have session : sessionId' = sessionId := h'.indexed.session_unique
      (mem_of_getElem? found) (same ▸ mem_of_getElem? found')
    rw [session, same, found'] at found
    cases found
    rw [Option.isNone_iff_eq_none.mp unrevoked] at isRevoked
    cases isRevoked

/-- Two sessions are granted reading, and the grant of the first is revoked. -/
def revokingCommands : List (Unit × StoreCommand) :=
  [((), .append (grantingTransaction ⟨1⟩ ⟨0⟩)), ((), .append (grantingTransaction ⟨2⟩ ⟨1⟩)),
    ((), .append (revokingTransaction ⟨1⟩ ⟨0⟩))]

/-- The store after the commands. -/
def revokedStore : InMemorySessionStore := (replies revokingCommands new).2

/-- The grant that is left goes back to its approval, and the revoked one does not come back, even
if a third session tries to issue it again. -/
theorem grant_provenance_revoked :
    (∃ requested resolved resolution, IssuedBy (revokedStore.storedOf ⟨2⟩) ⟨2⟩
      (PolicyEngine.readGrant ⟨1⟩ ⟨2⟩) requested resolved resolution) ∧
    ∀ sessionId, ∀ grant ∈ ((replies [((), .append (grantingTransaction ⟨3⟩ ⟨0⟩))]
      revokedStore).2.storedOf sessionId).artifacts.activeGrants, grant.id ≠ ⟨0⟩ := by
  obtain ⟨issued, -, final⟩ := grant_provenance (run_replies revokingCommands new)
    (run_replies [((), .append (grantingTransaction ⟨3⟩ ⟨0⟩))] revokedStore)
  exact ⟨issued ⟨2⟩ _ (by decide +kernel), final ⟨1⟩ (revokedGrant ⟨1⟩ ⟨0⟩) (by decide +kernel)⟩

end InMemorySessionStore

end TeaRs
