import TeaRs.SessionSqlite.Store

/-!
# The `SQLite` store against the in-memory store

The in-memory store is the specification of the `SQLite` store. The refinement relation says that a
session of the specification is cached by the worker as it is, that the keys of its rows are those
of its records and journal entries, and that the index of active grants lists the grants of all
sessions, each once.

The two stores do not agree on every history. A session whose first append failed stays in the cache
of the worker without records; the worker panics when it is read. The stores also check a
transaction in different orders, and the index returns a grant as its codec reads it back. For
histories in which every command avoids these cases the replies agree.

## Main definitions

* `StoreReply.Agrees`: the same value, or errors of the same code.
* `GrantIndex`: the rows of `active_grants` list the grants of all sessions.
* `Refines`: the refinement relation.
* `RegularCommand`, `RegularHistory`: the commands on which the stores agree.

## Main results

* `Refines.append`, `Refines.load`, `Refines.activeGrants`: each operation agrees and keeps the
  relation.
* `sqlite_replies_agree`: on regular histories all replies agree and the worker keeps running.
-/

namespace TeaRs

open StateError BTreeMap InMemorySessionStore SqliteSessionStore ActiveGrantRow Database

/-- Two replies carry the same value, or errors of the same code. A panic agrees with nothing. -/
def StoreReply.Agrees : StoreReply → StoreReply → Prop
  | .snapshot a, .snapshot b => a = b
  | .appended a, .appended b => a = b
  | .grants a, .grants b => a = b
  | .failed a, .failed b => a.code = b.code
  | _, _ => False

/-! ### The index of active grants -/

/-- The codec writes a grant to a text that it reads back as the same grant. -/
def RowCodec.RoundTrips (codec : RowCodec) (grant : PolicyGrant) : Prop :=
  ∃ text, codec.grant.encode grant = .ok text ∧ codec.grant.decode text = .ok grant

/-- A row of the index stands for a grant. -/
structure ActiveGrantRow.Shows (codec : RowCodec) (row : ActiveGrantRow) (grant : PolicyGrant) :
    Prop where
  actor : row.actorId = grant.actorId
  revoked : row.revoked = grant.revokedAt.isSome
  decoded : codec.grant.decode row.grantJson = .ok grant

/-- The rows list the grants of all sessions, each once. -/
structure GrantIndex (codec : RowCodec) (grantsOf : SessionId → BTreeMap GrantId PolicyGrant)
    (rows : List ActiveGrantRow) : Prop where
  nodup : (rows.map (·.grantId)).Nodup
  sound : ∀ row ∈ rows, ∃ grant, (grantsOf row.sessionId)[row.grantId]? = some grant ∧
    row.Shows codec grant
  complete : ∀ sessionId (id : GrantId), id ∈ grantsOf sessionId →
    ∃ row ∈ rows, row.sessionId = sessionId ∧ row.grantId = id

variable {codec : RowCodec} {sessionId : SessionId}

namespace GrantIndex

variable {grantsOf : SessionId → BTreeMap GrantId PolicyGrant} {rows : List ActiveGrantRow}
  {grant issued : PolicyGrant} {text : String}

variable (h : GrantIndex codec grantsOf rows)

include h

theorem eq_of_grantId {row row' : ActiveGrantRow}
    (hrow : row ∈ rows) (hrow' : row' ∈ rows) (hid : row.grantId = row'.grantId) : row = row' :=
  List.inj_on_of_nodup_map h.nodup hrow hrow' hid

theorem any_iff {id : GrantId} :
    rows.any (·.grantId == id) = true ↔ ∃ sessionId, id ∈ grantsOf sessionId := by
  rw [List.any_eq_true]
  constructor
  · rintro ⟨row, hrow, hid⟩
    obtain ⟨grant, lookup, -⟩ := h.sound row hrow
    rw [beq_iff_eq] at hid
    subst hid
    exact ⟨row.sessionId, mem_of_getElem? lookup⟩
  · rintro ⟨sessionId, hmem⟩
    obtain ⟨row, hrow, -, hid⟩ := h.complete sessionId id hmem
    exact ⟨row, hrow, by simpa using hid⟩

theorem session_unique {id : GrantId} {other : SessionId}
    (hmem : id ∈ grantsOf sessionId) (hother : id ∈ grantsOf other) : sessionId = other := by
  obtain ⟨row, hrow, rfl, hid⟩ := h.complete sessionId id hmem
  obtain ⟨row', hrow', rfl, hid'⟩ := h.complete other id hother
  rw [h.eq_of_grantId hrow hrow' (hid.trans hid'.symm)]

/-- Reading the rows of the active grants of an actor returns the grants in the order of their
identities. -/
theorem mapM_decode (selects : ActiveGrantRow → Bool) :
    (sortByKey (·.grantId) (rows.filter selects)).mapM
        (fun row => serialized (codec.grant.decode row.grantJson)) =
      .ok ((sortByKey (·.grantId) (rows.filter selects)).filterMap fun row =>
        (grantsOf row.sessionId)[row.grantId]?) := by
  refine mapM_eq_filterMap fun row hrow => ?_
  obtain ⟨grant, lookup, shows⟩ := h.sound row (List.mem_of_mem_filter (mem_sortByKey.mp hrow))
  exact ⟨grant, lookup, by rw [shows.decoded]; rfl⟩

theorem issue
    (fresh : ∀ sessionId, grant.id ∉ grantsOf sessionId) (active : grant.revokedAt = none)
    (decoded : codec.grant.decode text = .ok grant) :
    GrantIndex codec
      (Function.update grantsOf sessionId ((grantsOf sessionId).insert grant.id grant))
      (rows ++ [⟨grant.id, sessionId, grant.actorId, text, false⟩]) where
  nodup := by
    rw [List.map_append, List.nodup_append']
    refine ⟨h.nodup, by simp, ?_⟩
    intro id hold hnew
    obtain ⟨row, hrow, rfl⟩ := List.mem_map.mp hold
    obtain ⟨other, lookup, -⟩ := h.sound row hrow
    have hid : row.grantId = grant.id := by simpa using hnew
    exact fresh row.sessionId (hid ▸ mem_of_getElem? lookup)
  sound row hrow := by
    rcases List.mem_append.mp hrow with hrow | hrow
    · obtain ⟨other, lookup, shows⟩ := h.sound row hrow
      refine ⟨other, ?_, shows⟩
      by_cases hsession : row.sessionId = sessionId
      · have hid : row.grantId ≠ grant.id := fun hid =>
          fresh row.sessionId (hid ▸ mem_of_getElem? lookup)
        rw [hsession, Function.update_self, getElem?_insert_of_ne hid, ← hsession, lookup]
      · rw [Function.update_of_ne hsession, lookup]
    · rw [List.mem_singleton] at hrow
      subst hrow
      refine ⟨grant, ?_, ⟨rfl, by simp [active], decoded⟩⟩
      rw [Function.update_self, getElem?_insert_eq, if_pos rfl]
  complete session id hmem := by
    by_cases hsession : session = sessionId
    · rw [hsession, Function.update_self, mem_insert_iff] at hmem
      rcases hmem with rfl | hmem
      · exact ⟨_, List.mem_append_right _ List.mem_cons_self, hsession.symm, rfl⟩
      · obtain ⟨row, hrow, hkeys⟩ := h.complete sessionId id hmem
        exact ⟨row, List.mem_append_left _ hrow, by rw [hsession]; exact hkeys⟩
    · rw [Function.update_of_ne hsession] at hmem
      obtain ⟨row, hrow, hkeys⟩ := h.complete session id hmem
      exact ⟨row, List.mem_append_left _ hrow, hkeys⟩

omit h in
theorem revoke_grantId (id : GrantId) (row : ActiveGrantRow) :
    (row.revoke id sessionId text).grantId = row.grantId := by
  rw [revoke]
  split_ifs <;> rfl

omit h in
theorem revoke_sessionId (id : GrantId) (row : ActiveGrantRow) :
    (row.revoke id sessionId text).sessionId = row.sessionId := by
  rw [revoke]
  split_ifs <;> rfl

theorem countP_isFor {id : GrantId}
    (known : id ∈ grantsOf sessionId) : rows.countP (·.isFor id sessionId) = 1 := by
  obtain ⟨row, hrow, hsession, hid⟩ := h.complete sessionId id known
  have unique (other : ActiveGrantRow) (hother : other ∈ rows) :
      other.isFor id sessionId = true ↔ (other == row) = true := by
    rw [isFor, Bool.and_eq_true, beq_iff_eq, beq_iff_eq, beq_iff_eq]
    constructor
    · rintro ⟨hid', -⟩
      exact h.eq_of_grantId hother hrow (hid'.trans hid.symm)
    · rintro rfl
      exact ⟨hid, hsession⟩
  rw [List.countP_congr unique]
  exact List.count_eq_one_of_mem h.nodup.of_map hrow

theorem revoke
    (known : (grantsOf sessionId)[grant.id]? = some issued)
    (actor : issued.actorId = grant.actorId) (ended : grant.revokedAt.isSome = true)
    (decoded : codec.grant.decode text = .ok grant) :
    GrantIndex codec
      (Function.update grantsOf sessionId ((grantsOf sessionId).insert grant.id grant))
      (rows.map (·.revoke grant.id sessionId text)) where
  nodup := by
    rw [List.map_map]
    have same : (fun row : ActiveGrantRow => row.grantId) ∘
        (fun row : ActiveGrantRow => row.revoke grant.id sessionId text) =
          fun row : ActiveGrantRow => row.grantId :=
      funext (revoke_grantId grant.id)
    rw [same]
    exact h.nodup
  sound := by
    intro row' hrow'
    obtain ⟨row, hrow, rfl⟩ := List.mem_map.mp hrow'
    obtain ⟨other, lookup, shows⟩ := h.sound row hrow
    rw [revoke_grantId, revoke_sessionId]
    by_cases hselects : row.isFor grant.id sessionId = true
    · have keys : row.grantId = grant.id ∧ row.sessionId = sessionId := by
        simpa [isFor] using hselects
      refine ⟨grant, ?_, ?_⟩
      · rw [keys.1, keys.2, Function.update_self, getElem?_insert_eq, if_pos rfl]
      · rw [keys.1, keys.2, known] at lookup
        cases lookup
        rw [ActiveGrantRow.revoke, if_pos hselects]
        exact ⟨shows.actor.trans actor, by simp [ended], decoded⟩
    · refine ⟨other, ?_, by rwa [ActiveGrantRow.revoke, if_neg hselects]⟩
      by_cases hsession : row.sessionId = sessionId
      · have hid : row.grantId ≠ grant.id := fun hid => by
          simp [isFor, hid, hsession] at hselects
        rw [hsession, Function.update_self, getElem?_insert_of_ne hid, ← hsession, lookup]
      · rw [Function.update_of_ne hsession, lookup]
  complete := by
    intro session id hmem
    have old : id ∈ grantsOf session := by
      by_cases hsession : session = sessionId
      · rw [hsession, Function.update_self, mem_insert_iff] at hmem
        rcases hmem with rfl | hmem
        · exact hsession ▸ mem_of_getElem? known
        · exact hsession ▸ hmem
      · rwa [Function.update_of_ne hsession] at hmem
    obtain ⟨row, hrow, hkeys⟩ := h.complete session id old
    exact ⟨_, List.mem_map_of_mem hrow, by rwa [revoke_sessionId, revoke_grantId]⟩

end GrantIndex

/-! ### Writing a committed transaction -/

/-- The text of an encoded value. -/
def encodedText (encoded : Except String String) : String := encoded.toOption.getD ""

theorem serialized_eq {encoded : Except String String} (h : ∃ text, encoded = .ok text) :
    serialized encoded = .ok (encodedText encoded) := by
  obtain ⟨text, rfl⟩ := h
  rfl

variable {database : Database} {α : Type}

section Writing

variable (codec : RowCodec) (sessionId : SessionId)

/-- The row of a record. -/
def recordRow (record : RecordEnvelope) : RecordRow :=
  ⟨sessionId, record.sequence, record.recordId, encodedText (codec.encodeRecord record)⟩

/-- The row of an approval artifact. -/
def artifactRow (artifact : ApprovalArtifactEntry) : ArtifactRow :=
  ⟨sessionId, artifact.recordId, encodedText (codec.artifact.encode artifact)⟩

/-- The row of a numbered journal entry. -/
def journalRow (entry : GrantJournalEntry × Nat) : JournalRow :=
  ⟨sessionId, entry.2, entry.1.grantId, encodedText (codec.entry.encode entry.1)⟩

variable {codec sessionId} {ρ κ : Type} {keyOf : ρ → κ}

theorem filter_append_rows (session : ρ → SessionId) (row : α → ρ)
    (hrow : ∀ a, session (row a) = sessionId) (rows : List ρ) (items : List α) (other : SessionId) :
    (rows ++ items.map row).filter (session · == other) =
      rows.filter (session · == other) ++ if other = sessionId then items.map row else [] := by
  rw [List.filter_append]
  congr 1
  split_ifs with hother
  · rw [List.filter_eq_self]
    intro r hr
    obtain ⟨a, -, rfl⟩ := List.mem_map.mp hr
    rw [hrow, hother, beq_self_eq_true]
  · rw [List.filter_eq_nil_iff]
    intro r hr
    obtain ⟨a, -, rfl⟩ := List.mem_map.mp hr
    rw [hrow, beq_iff_eq]
    exact fun h => hother h.symm

theorem map_append_rows (key : α → κ) (row : α → ρ)
    (hrow : ∀ a, keyOf (row a) = key a) (rows : List ρ) (items : List α) (p : Prop) [Decidable p] :
    (rows ++ if p then items.map row else []).map keyOf =
      rows.map keyOf ++ (if p then items else []).map key := by
  rw [List.map_append]
  split_ifs
  · rw [List.map_map, List.append_cancel_left_eq]
    exact List.map_congr_left fun a _ => hrow a
  · rfl

theorem any_eq_false_of_nodup [DecidableEq κ] {key : α → κ}
    (row : α → ρ) (hrow : ∀ a, keyOf (row a) = key a) {rows : List ρ} {done rest : List α} {x : α}
    (h : (rows.map keyOf ++ (done ++ x :: rest).map key).Nodup) :
    (rows ++ done.map row).any (keyOf · == key x) = false := by
  rw [List.any_eq_false]
  intro r hr
  rw [beq_iff_eq]
  intro hkey
  rw [List.map_append, List.map_cons, ← List.append_assoc, List.nodup_middle, List.nodup_cons]
    at h
  refine h.1 (List.mem_append_left _ ?_)
  rcases List.mem_append.mp hr with hr | hr
  · exact List.mem_append_left _ (hkey ▸ List.mem_map_of_mem hr)
  · obtain ⟨a, ha, rfl⟩ := List.mem_map.mp hr
    refine List.mem_append_right _ ?_
    rw [← hkey, hrow]
    exact List.mem_map_of_mem ha

theorem recordRows_append (codec : RowCodec) (database : Database)
    (records : List RecordEnvelope) (sessionId other : SessionId) :
    recordRows { database with
      records := database.records ++ records.map (recordRow codec sessionId) } other =
      database.recordRows other ++
        if other = sessionId then records.map (recordRow codec sessionId) else [] :=
  filter_append_rows RecordRow.sessionId (recordRow codec sessionId) (fun _ => rfl)
    database.records records other

theorem artifactRows_append (codec : RowCodec) (database : Database)
    (artifacts : List ApprovalArtifactEntry) (sessionId other : SessionId) :
    artifactRows { database with
      approvalArtifacts := database.approvalArtifacts ++
        artifacts.map (artifactRow codec sessionId) } other =
      database.artifactRows other ++
        if other = sessionId then artifacts.map (artifactRow codec sessionId) else [] :=
  filter_append_rows ArtifactRow.sessionId (artifactRow codec sessionId) (fun _ => rfl)
    database.approvalArtifacts artifacts other

theorem journalRows_append (codec : RowCodec) (database : Database)
    (entries : List (GrantJournalEntry × Nat)) (sessionId other : SessionId) :
    journalRows { database with
      grantJournal := database.grantJournal ++ entries.map (journalRow codec sessionId) } other =
      database.journalRows other ++
        if other = sessionId then entries.map (journalRow codec sessionId) else [] :=
  filter_append_rows JournalRow.sessionId (journalRow codec sessionId) (fun _ => rfl)
    database.grantJournal entries other

theorem insertRecord_eq_ok {row : RecordRow}
    (newSequence : (database.recordRows row.sessionId).any (·.sequence == row.sequence) = false)
    (newId : (database.recordRows row.sessionId).any (·.recordId == row.recordId) = false) :
    database.insertRecord row = .ok { database with records := database.records ++ [row] } := by
  rw [insertRecord, newSequence, newId]
  rfl

theorem insertArtifact_eq_ok {row : ArtifactRow}
    (newId : (database.artifactRows row.sessionId).any (·.recordId == row.recordId) = false) :
    database.insertArtifact row =
      .ok { database with approvalArtifacts := database.approvalArtifacts ++ [row] } := by
  rw [insertArtifact, newId]
  rfl

theorem insertJournal_eq_ok {row : JournalRow}
    (newSeq : (database.journalRows row.sessionId).any (·.seq == row.seq) = false) :
    database.insertJournal row =
      .ok { database with grantJournal := database.grantJournal ++ [row] } := by
  rw [insertJournal, newSeq]
  rfl

theorem persistRecords_eq_ok {records : List RecordEnvelope}
    (encodes : ∀ record ∈ records, ∃ text, codec.encodeRecord record = .ok text)
    (room : ∀ record ∈ records, record.sequence < 2 ^ 63)
    (sequences : ((database.recordRows sessionId).map (·.sequence) ++
      records.map (·.sequence)).Nodup)
    (recordIds : ((database.recordRows sessionId).map (·.recordId) ++
      records.map (·.recordId)).Nodup) :
    records.foldlM (persistRecord codec sessionId) database =
      .ok { database with
        records := database.records ++ records.map (recordRow codec sessionId) } := by
  refine foldlM_eq_ok (d := database) (fun done => { database with
    records := database.records ++ done.map (recordRow codec sessionId) }) (by simp) ?_
  rintro done x rest rfl
  have hx : x ∈ done ++ x :: rest := by simp
  have newSequence := any_eq_false_of_nodup (recordRow codec sessionId) (fun _ => rfl) sequences
  have newId := any_eq_false_of_nodup (recordRow codec sessionId) (fun _ => rfl) recordIds
  have rows := recordRows_append codec database done sessionId sessionId
  rw [if_pos rfl] at rows
  rw [← rows] at newSequence newId
  rw [persistRecord, serialized_eq (encodes x hx), saturatedSequence, if_pos (room x hx)]
  exact (insertRecord_eq_ok newSequence newId).trans (by simp [recordRow])

theorem persistArtifacts_eq_ok {artifacts : List ApprovalArtifactEntry}
    (encodes : ∀ artifact ∈ artifacts, ∃ text, codec.artifact.encode artifact = .ok text)
    (recordIds : ((database.artifactRows sessionId).map (·.recordId) ++
      artifacts.map (·.recordId)).Nodup) :
    artifacts.foldlM (persistArtifact codec sessionId) database =
      .ok { database with
        approvalArtifacts := database.approvalArtifacts ++
          artifacts.map (artifactRow codec sessionId) } := by
  refine foldlM_eq_ok (d := database) (fun done => { database with
    approvalArtifacts := database.approvalArtifacts ++ done.map (artifactRow codec sessionId) })
    (by simp) ?_
  rintro done x rest rfl
  have newId := any_eq_false_of_nodup (artifactRow codec sessionId) (fun _ => rfl) recordIds
  have rows := artifactRows_append codec database done sessionId sessionId
  rw [if_pos rfl] at rows
  rw [← rows] at newId
  rw [persistArtifact, serialized_eq (encodes x (by simp))]
  exact (insertArtifact_eq_ok newId).trans (by simp [artifactRow])

theorem persistEntries_eq_ok {entries : List (GrantJournalEntry × Nat)}
    (encodes : ∀ entry ∈ entries, ∃ text, codec.entry.encode entry.1 = .ok text)
    (room : ∀ entry ∈ entries, entry.2 < 2 ^ 63)
    (numbers : ((database.journalRows sessionId).map (·.seq) ++ entries.map (·.2)).Nodup) :
    entries.foldlM (persistEntry codec sessionId) database =
      .ok { database with
        grantJournal := database.grantJournal ++ entries.map (journalRow codec sessionId) } := by
  refine foldlM_eq_ok (d := database) (fun done => { database with
    grantJournal := database.grantJournal ++ done.map (journalRow codec sessionId) }) (by simp) ?_
  rintro done x rest rfl
  have hx : x ∈ done ++ x :: rest := by simp
  have newSeq := any_eq_false_of_nodup (journalRow codec sessionId) (fun _ => rfl) numbers
  have rows := journalRows_append codec database done sessionId sessionId
  rw [if_pos rfl] at rows
  rw [← rows] at newSeq
  rw [persistEntry, if_neg (Nat.not_le.mpr (room x hx)), serialized_eq (encodes x hx)]
  exact (insertJournal_eq_ok newSeq).trans (by simp [journalRow])

theorem persistActiveGrants_eq_ok (database : Database)
    {grantsOf : SessionId → BTreeMap GrantId PolicyGrant} {grants : BTreeMap GrantId PolicyGrant}
    {entries : List GrantJournalEntry} (index : GrantIndex codec grantsOf database.activeGrants)
    (run : Run GrantStep (grantsOf sessionId) entries grants)
    (roundTrips : ∀ entry ∈ entries, codec.RoundTrips entry.grant)
    (fresh : ∀ entry ∈ entries, entry.isIssued = true →
      ∀ other, other ≠ sessionId → entry.grantId ∉ grantsOf other) :
    ∃ rows, entries.foldlM (persistActiveGrant codec sessionId) database =
        .ok { database with activeGrants := rows } ∧
      GrantIndex codec (Function.update grantsOf sessionId grants) rows := by
  induction entries generalizing grantsOf database with
  | nil =>
    rw [Run.nil_iff.mp run, Function.update_eq_self]
    exact ⟨database.activeGrants, rfl, index⟩
  | cons entry entries ih =>
    obtain ⟨next, step, run⟩ := Run.cons_iff.mp run
    obtain ⟨text, encoded, decoded⟩ := roundTrips entry List.mem_cons_self
    have first : ∃ rows, persistActiveGrant codec sessionId database entry =
          .ok { database with activeGrants := rows } ∧
        GrantIndex codec (Function.update grantsOf sessionId next) rows := by
      cases step with
      | @issued recordId grant new active =>
        have unused (other : SessionId) : grant.id ∉ grantsOf other := by
          by_cases hother : other = sessionId
          · rw [hother]
            exact new
          · exact fresh _ List.mem_cons_self rfl other hother
        refine ⟨_, ?_, index.issue unused active decoded⟩
        have absent : database.activeGrants.any (·.grantId == grant.id) = false := by
          rw [← Bool.not_eq_true, index.any_iff]
          rintro ⟨other, hmem⟩
          exact unused other hmem
        have encoded : codec.grant.encode grant = .ok text := encoded
        simp [persistActiveGrant, encoded, serialized, Except.mapError, bind, Except.bind,
          insertActiveGrant, absent]
      | @revoked grant issued known active ended same =>
        have actor : issued.actorId = grant.actorId := by
          simp only [sameGrantBeforeRevocation, Bool.and_eq_true, beq_iff_eq] at same
          tauto
        refine ⟨_, ?_, index.revoke known actor ended decoded⟩
        have selected := index.countP_isFor (mem_of_getElem? known)
        have encoded : codec.grant.encode grant = .ok text := encoded
        simp [persistActiveGrant, encoded, serialized, Except.mapError, bind, Except.bind,
          revokeActiveGrant, selected]
    obtain ⟨rows, hfirst, index⟩ := first
    have run' : Run GrantStep (Function.update grantsOf sessionId next sessionId) entries
        grants := by
      rwa [Function.update_self]
    obtain ⟨rows', hrest, index⟩ := ih { database with activeGrants := rows } index run'
      (fun entry hentry => roundTrips entry (List.mem_cons_of_mem _ hentry))
      (fun entry hentry issued other hother => by
        rw [Function.update_of_ne hother]
        exact fresh entry (List.mem_cons_of_mem _ hentry) issued other hother)
    rw [Function.update_idem] at index
    refine ⟨rows', ?_, index⟩
    rw [List.foldlM_cons, hfirst]
    exact hrest

end Writing

/-! ### The refinement relation -/

/-- The worker represents the in-memory store: it caches the existing sessions, a missing session is
at most cached without records, the keys of the rows are those of the stored facts, and the index
lists the grants of all sessions. -/
structure Refines (codec : RowCodec) (memory : InMemorySessionStore) (worker : Worker) : Prop where
  consistent : memory.Consistent
  indexed : ∀ sessionId, (memory.storedOf sessionId).JournalsIndexed
  cached : ∀ (sessionId : SessionId) stored, memory.sessions[sessionId]? = some stored →
    worker.sessions[sessionId]? = some stored
  uncached : ∀ sessionId : SessionId, memory.sessions[sessionId]? = none →
    worker.sessions[sessionId]? = none ∨ worker.sessions[sessionId]? = some .empty
  sequences : ∀ sessionId, (worker.database.recordRows sessionId).map (·.sequence) =
    (memory.recordsOf sessionId).map (·.sequence)
  recordIds : ∀ sessionId, (worker.database.recordRows sessionId).map (·.recordId) =
    (memory.recordsOf sessionId).map (·.recordId)
  artifactIds : ∀ sessionId, (worker.database.artifactRows sessionId).map (·.recordId) =
    (memory.storedOf sessionId).approvalArtifacts.map (·.recordId)
  journalSeqs : ∀ sessionId, (worker.database.journalRows sessionId).map (·.seq) =
    List.range (memory.storedOf sessionId).grantJournal.length
  grants : GrantIndex codec (fun sessionId => (memory.storedOf sessionId).artifacts.grants)
    worker.database.activeGrants

/-- The values of a transaction can be written, and its grants are read back as they are. -/
structure Storable (codec : RowCodec) (transaction : AppendTransaction) : Prop where
  records : ∀ record ∈ transaction.records, ∃ text, codec.encodeRecord record = .ok text
  artifacts : ∀ artifact ∈ transaction.approvalArtifacts,
    ∃ text, codec.artifact.encode artifact = .ok text
  entries : ∀ entry ∈ transaction.grantEntries, ∃ text, codec.entry.encode entry = .ok text
  grants : ∀ entry ∈ transaction.grantEntries, codec.RoundTrips entry.grant

/-- The sequence numbers of a transaction fit into the integers of the database. -/
structure HasRoom (memory : InMemorySessionStore) (transaction : AppendTransaction) : Prop where
  records : ∀ record ∈ transaction.records, record.sequence < 2 ^ 63
  entries : (memory.storedOf transaction.sessionId).grantJournal.length +
    transaction.grantEntries.length ≤ 2 ^ 63

/-- A transaction is well formed, whatever the sequence and the journal revision it expects: it has
a fact and only records of its session, a creation has a record, and the grants it issues are
new. -/
structure WellFormed (memory : InMemorySessionStore) (transaction : AppendTransaction) :
    Prop where
  shape : validateTransactionShape transaction = .ok ()
  creates : transaction.expectedSequence = none → transaction.records ≠ []
  grants : validateGlobalGrantIds memory.sessions[transaction.sessionId]?
    transaction.grantEntries memory.grantIdInUse = .ok ()

variable {memory : InMemorySessionStore} {worker : Worker} {transaction : AppendTransaction}

namespace Refines

theorem refines_fresh (codec : RowCodec) : Refines codec .new ⟨.fresh, ∅⟩ where
  consistent := consistent_new
  indexed _ := StoredSession.journalsIndexed_empty
  cached := by simp [new]
  uncached := by simp
  sequences _ := rfl
  recordIds _ := rfl
  artifactIds _ := rfl
  journalSeqs _ := rfl
  grants :=
    { nodup := by simp [fresh]
      sound := by simp [fresh]
      complete := fun _ _ hmem => absurd hmem (by
        simp [storedOf, new, StoredSession.empty,
          ArtifactState.empty]) }

theorem grantsIndexed (h : Refines codec memory worker) : memory.GrantsIndexed :=
  ⟨h.indexed, fun hmem hother => h.grants.session_unique hmem hother⟩

theorem grantIdInUse_eq (h : Refines codec memory worker) {entry : GrantJournalEntry}
    (hentry : entry ∈ transaction.grantEntries) (issued : entry.isIssued = true) :
    (persistedGrantIds worker.database transaction.grantEntries).contains entry.grantId =
      memory.grantIdInUse entry.grantId := by
  rw [Bool.eq_iff_iff, h.grantsIndexed.grantIdInUse_iff, ← h.grants.any_iff, List.contains_iff_mem,
    persistedGrantIds, List.mem_filter, and_iff_right_iff_imp]
  intro _
  exact List.mem_map.mpr ⟨entry, List.mem_filter.mpr ⟨hentry, issued⟩, rfl⟩

theorem range_append_zipIdx {α : Type} (n : Nat) (entries : List α) :
    List.range n ++ (entries.zipIdx n).map (·.2) = List.range (n + entries.length) := by
  have continued := List.range'_append_1 (s := 0) (m := n) (n := entries.length)
  rw [Nat.zero_add] at continued
  rw [List.zipIdx_map_snd, List.range_eq_range', List.range_eq_range', continued]

variable {outcome : AppendOutcome} {stored : StoredSession} {tail : Option Nat}
  {error : SessionStoreError}

theorem persist_eq_ok (h : Refines codec memory worker) (storable : Storable codec transaction)
    (room : HasRoom memory transaction) {existed : Bool}
    (committed : Committed transaction existed memory.grantIdInUse
      (memory.storedOf transaction.sessionId) outcome stored) :
    ∃ rows, persist codec transaction
        (memory.storedOf transaction.sessionId).grantJournal.length worker.database =
      .ok
        { records := worker.database.records ++
            transaction.records.map (recordRow codec transaction.sessionId)
          approvalArtifacts := worker.database.approvalArtifacts ++
            transaction.approvalArtifacts.map (artifactRow codec transaction.sessionId)
          grantJournal := worker.database.grantJournal ++
            (transaction.grantEntries.zipIdx
              (memory.storedOf transaction.sessionId).grantJournal.length).map
                (journalRow codec transaction.sessionId)
          activeGrants := rows } ∧
      GrantIndex codec (Function.update
        (fun sessionId => (memory.storedOf sessionId).artifacts.grants) transaction.sessionId
        stored.artifacts.grants) rows := by
  have sequences : ((worker.database.recordRows transaction.sessionId).map (·.sequence) ++
      transaction.records.map (·.sequence)).Nodup := by
    rw [h.sequences, ← List.map_append]
    exact committed.accepted.sequence_eq ▸ List.nodup_range
  have recordIds : ((worker.database.recordRows transaction.sessionId).map (·.recordId) ++
      transaction.records.map (·.recordId)).Nodup := by
    rw [h.recordIds, ← List.map_append]
    exact committed.accepted.nodup
  have artifactIds : ((worker.database.artifactRows transaction.sessionId).map (·.recordId) ++
      transaction.approvalArtifacts.map (·.recordId)).Nodup := by
    rw [h.artifactIds, ← List.map_append]
    exact committed.artifacts_disjoint (h.indexed _)
  have numbers : ((worker.database.journalRows transaction.sessionId).map (·.seq) ++
      (transaction.grantEntries.zipIdx
        (memory.storedOf transaction.sessionId).grantJournal.length).map (·.2)).Nodup := by
    rw [h.journalSeqs, range_append_zipIdx]
    exact List.nodup_range
  have inRange : ∀ entry ∈ transaction.grantEntries.zipIdx
      (memory.storedOf transaction.sessionId).grantJournal.length, entry.2 < 2 ^ 63 := by
    intro entry hentry
    have bound := List.snd_lt_add_of_mem_zipIdx hentry
    have := room.entries
    omega
  have unused : ∀ entry ∈ transaction.grantEntries, entry.isIssued = true →
      ∀ other, other ≠ transaction.sessionId →
        entry.grantId ∉ (memory.storedOf other).artifacts.grants :=
    fun entry hentry issued other _ =>
      h.grantsIndexed.notMem_of_committed committed hentry issued other
  let recorded : Database :=
    { worker.database with
      records := worker.database.records ++
        transaction.records.map (recordRow codec transaction.sessionId) }
  let resolved : Database :=
    { recorded with
      approvalArtifacts := worker.database.approvalArtifacts ++
        transaction.approvalArtifacts.map (artifactRow codec transaction.sessionId) }
  let journaled : Database :=
    { resolved with
      grantJournal := worker.database.grantJournal ++
        (transaction.grantEntries.zipIdx
          (memory.storedOf transaction.sessionId).grantJournal.length).map
            (journalRow codec transaction.sessionId) }
  have hrecords : transaction.records.foldlM (persistRecord codec transaction.sessionId)
      worker.database = .ok recorded :=
    persistRecords_eq_ok storable.records room.records sequences recordIds
  have hartifacts : transaction.approvalArtifacts.foldlM
      (persistArtifact codec transaction.sessionId) recorded = .ok resolved :=
    persistArtifacts_eq_ok storable.artifacts artifactIds
  have hentries : (transaction.grantEntries.zipIdx
      (memory.storedOf transaction.sessionId).grantJournal.length).foldlM
        (persistEntry codec transaction.sessionId) resolved = .ok journaled :=
    persistEntries_eq_ok
      (fun entry hentry => storable.entries _ (List.fst_mem_of_mem_zipIdx hentry)) inRange numbers
  obtain ⟨rows, hgrants, index⟩ := persistActiveGrants_eq_ok journaled h.grants
    committed.run_grantStep storable.grants unused
  refine ⟨rows, ?_, index⟩
  simp only [persist, hrecords, hartifacts, hentries, bind, Except.bind]
  exact hgrants

/-- Writing a committed transaction and caching its session represents the store after it. -/
theorem commit (h : Refines codec memory worker) (storable : Storable codec transaction)
    (room : HasRoom memory transaction)
    (committed : Committed transaction (memory.sessions.contains transaction.sessionId)
      memory.grantIdInUse (memory.storedOf transaction.sessionId) outcome stored) :
    ∃ database, persist codec transaction
        (memory.storedOf transaction.sessionId).grantJournal.length worker.database =
      .ok database ∧
      Refines codec
        { memory with sessions := memory.sessions.insert transaction.sessionId stored }
        ⟨database, worker.sessions.insert transaction.sessionId stored⟩ := by
  obtain ⟨rows, hpersist, index⟩ := h.persist_eq_ok storable room committed
  have appends : InMemorySessionStore.Appends memory
      (⟨(), .append transaction, .appended outcome⟩ : StoreEvent Unit) _ transaction outcome
      stored := ⟨rfl, rfl, committed, rfl⟩
  have recordRows := recordRows_append codec worker.database transaction.records
    transaction.sessionId
  have artifactRows := artifactRows_append codec worker.database transaction.approvalArtifacts
    transaction.sessionId
  have journalRows := journalRows_append codec worker.database
    (transaction.grantEntries.zipIdx
      (memory.storedOf transaction.sessionId).grantJournal.length) transaction.sessionId
  refine ⟨_, hpersist, ?_⟩
  constructor
  case consistent => exact appends.consistent h.consistent
  case indexed =>
    intro sessionId
    rw [appends.storedOf_eq]
    split_ifs
    · exact committed.journalsIndexed (h.indexed _)
    · exact h.indexed sessionId
  case cached =>
    intro sessionId found hfound
    rw [appends.lookup] at hfound
    rw [getElem?_insert_eq]
    split_ifs at hfound ⊢
    · exact hfound
    · exact h.cached sessionId found hfound
  case uncached =>
    intro sessionId missing
    rw [appends.lookup] at missing
    rw [getElem?_insert_eq]
    split_ifs at missing ⊢
    exact h.uncached sessionId missing
  case sequences =>
    intro sessionId
    rw [appends.recordsOf_eq, List.map_append, ← h.sequences]
    exact (congrArg _ (recordRows sessionId)).trans
      (map_append_rows _ (recordRow codec transaction.sessionId) (fun _ => rfl) _ _ _)
  case recordIds =>
    intro sessionId
    rw [appends.recordsOf_eq, List.map_append, ← h.recordIds]
    exact (congrArg _ (recordRows sessionId)).trans
      (map_append_rows _ (recordRow codec transaction.sessionId) (fun _ => rfl) _ _ _)
  case artifactIds =>
    intro sessionId
    refine ((congrArg _ (artifactRows sessionId)).trans
      (map_append_rows (·.recordId) (artifactRow codec transaction.sessionId) (fun _ => rfl)
        _ _ _)).trans ?_
    rw [h.artifactIds, appends.storedOf_eq, ← List.map_append]
    split_ifs with hid
    · rw [hid, committed.approvalArtifacts]
    · rw [List.append_nil]
  case journalSeqs =>
    intro sessionId
    refine ((congrArg _ (journalRows sessionId)).trans
      (map_append_rows (·.2) (journalRow codec transaction.sessionId) (fun _ => rfl)
        _ _ _)).trans ?_
    rw [h.journalSeqs, appends.storedOf_eq]
    split_ifs with hid
    · rw [hid, committed.grantJournal, List.length_append]
      exact range_append_zipIdx _ _
    · rw [List.map_nil, List.append_nil]
  case grants =>
    have same : (fun sessionId => (storedOf
        { memory with sessions := memory.sessions.insert transaction.sessionId stored }
        sessionId).artifacts.grants) =
        Function.update (fun sessionId => (memory.storedOf sessionId).artifacts.grants)
          transaction.sessionId stored.artifacts.grants := by
      funext sessionId
      rw [appends.storedOf_eq, Function.update_apply]
      split_ifs <;> rfl
    rw [same]
    exact index

/-- A session that is taken out and put back is cached as before, or without records. -/
theorem recache (h : Refines codec memory worker) (sessionId : SessionId) :
    Refines codec memory ⟨worker.database,
      worker.sessions.insert sessionId (memory.storedOf sessionId)⟩ := by
  refine { h with cached := fun other stored hstored => ?_, uncached := fun other missing => ?_ }
  · rw [getElem?_insert_eq]
    split_ifs with hother
    · rw [← hother, storedOf_eq_of_some hstored]
    · exact h.cached other stored hstored
  · rw [getElem?_insert_eq]
    split_ifs with hother
    · rw [← hother, storedOf_eq_of_none missing]
      exact .inr rfl
    · exact h.uncached other missing

/-! ### The guards against the tables -/

theorem tail_eq (h : Refines codec memory worker) (sessionId : SessionId) :
    ((worker.database.recordRows sessionId).map (·.sequence)).max? =
      (memory.recordsOf sessionId).getLast?.map (·.sequence) := by
  have numbers := (h.consistent.storedOf sessionId).accepted.sequence_eq
  rw [h.sequences, ← List.getLast?_map, recordsOf, numbers,
    List.getLast?_range]
  split_ifs with hlength
  · simp [hlength]
  · rw [List.max?_eq_some_iff]
    simp only [List.mem_range]
    exact ⟨by omega, fun _ _ => by omega⟩

theorem revision_eq (h : Refines codec memory worker) (sessionId : SessionId) :
    (worker.database.artifactRows sessionId).length +
      (worker.database.journalRows sessionId).length =
        (memory.storedOf sessionId).journalRevision := by
  have artifacts := congrArg List.length (h.artifactIds sessionId)
  have entries := congrArg List.length (h.journalSeqs sessionId)
  rw [List.length_map, List.length_map] at artifacts
  rw [List.length_map, List.length_range] at entries
  rw [(h.consistent.storedOf sessionId).revision, artifacts, entries]

theorem validatePersistedExpectation_eq
    (htail : ((database.recordRows transaction.sessionId).map (·.sequence)).max? = tail) :
    validatePersistedExpectation database transaction =
      if tail ≠ transaction.expectedSequence then
        .error (if tail = none then sessionNotFound
          else if transaction.expectedSequence = none then
            .new .sessionAlreadyExists "session already exists"
          else sequenceConflict "expected session sequence is stale")
      else if 0 < transaction.approvalArtifacts.length + transaction.grantEntries.length ∧
          some ((database.artifactRows transaction.sessionId).length +
            (database.journalRows transaction.sessionId).length) ≠
              transaction.expectedJournalRevision then
        .error (sequenceConflict "expected policy journal revision is stale")
      else .ok () := by
  rw [validatePersistedExpectation, htail, ite_and]
  cases tail <;> cases transaction.expectedSequence
  case some.some last expected =>
    by_cases stale : last = expected
    · simp [stale]
      rfl
    · simp [stale]
      rfl
  all_goals simp
  all_goals rfl

theorem validatePersistedExpectation_eq_error
    (htail : ((database.recordRows transaction.sessionId).map (·.sequence)).max? = tail)
    (h : validatePersistedExpectation database transaction = .error error) :
    (tail = none ∧ transaction.expectedSequence.isSome = true ∧ error.code = .sessionNotFound) ∨
    (tail.isSome = true ∧ transaction.expectedSequence = none ∧
      error.code = .sessionAlreadyExists) ∨
    (∃ last expected, tail = some last ∧ transaction.expectedSequence = some expected ∧
      last ≠ expected ∧ error.code = .sequenceConflict) ∨
    (tail = transaction.expectedSequence ∧ error.code = .sequenceConflict ∧
      0 < transaction.approvalArtifacts.length + transaction.grantEntries.length ∧
      transaction.expectedJournalRevision ≠
        some ((database.artifactRows transaction.sessionId).length +
          (database.journalRows transaction.sessionId).length)) := by
  rw [validatePersistedExpectation_eq htail] at h
  split_ifs at h with other missing fresh stale <;> cases h
  · subst missing
    exact .inl ⟨rfl, Option.isSome_iff_ne_none.mpr other.symm, rfl⟩
  · exact .inr (.inl ⟨Option.isSome_iff_ne_none.mpr missing, fresh, rfl⟩)
  · obtain ⟨last, rfl⟩ := Option.ne_none_iff_exists'.mp missing
    obtain ⟨expected, hexpected⟩ := Option.ne_none_iff_exists'.mp fresh
    rw [hexpected, Ne, Option.some_inj] at other
    exact .inr (.inr (.inl ⟨last, expected, rfl, hexpected, other, rfl⟩))
  · exact .inr (.inr (.inr ⟨not_not.mp other, rfl, stale.1, stale.2.symm⟩))

theorem exists_previousSequence (h : memory.Consistent) (sessionId : SessionId) :
    ∃ previous, previousSequence (memory.storedOf sessionId)
      (memory.sessions.contains sessionId) = .ok previous := by
  rw [previousSequence]
  cases hlookup : memory.sessions[sessionId]? with
  | none =>
    have missing := contains_eq_false_iff.mpr
      (getElem?_eq_none_iff_notMem.mp hlookup)
    exact ⟨none, by rw [missing]; rfl⟩
  | some stored =>
    obtain ⟨consistent, nonempty⟩ := h.sessions sessionId stored hlookup
    rw [if_pos (Std.ExtTreeMap.mem_iff_contains.mp (mem_of_getElem? hlookup)),
      storedOf_eq_of_some hlookup]
    cases hstate : stored.reducer.state with
    | none => exact absurd (consistent.accepted.eq_nil_of_state hstate) nonempty
    | some state => exact ⟨some state.tailSequence, rfl⟩

/-- A well-formed transaction that the tables refuse is refused by the guards of the engine with the
same code. -/
theorem refused_code (h : Refines codec memory worker) (wellFormed : WellFormed memory transaction)
    (refused : validatePersistedExpectation worker.database transaction = .error error) :
    ∃ error', guardTransaction transaction (memory.storedOf transaction.sessionId)
        (memory.sessions.contains transaction.sessionId) memory.grantIdInUse = .error error' ∧
      error'.code = error.code := by
  have existing := memory.existing_eq transaction.sessionId
  have records := memory.map_records_getD transaction.sessionId
  rcases validatePersistedExpectation_eq_error (h.tail_eq _) refused with
    ⟨missing, expects, code⟩ | ⟨present, expects, code⟩ | ⟨last, expected, hlast, hexpected, stale,
      code⟩ | ⟨current, code, entries, stale⟩
  · obtain ⟨expected, hexpected⟩ := Option.isSome_iff_exists.mp expects
    refine ⟨.new .sessionNotFound "cannot append to a missing session",
      guardTransaction_eq_error wellFormed.shape ?_, code.symm⟩
    rw [existing, validateExpectation, records, Option.map_eq_none_iff.mp missing, hexpected]
  · rw [Option.isSome_map] at present
    obtain ⟨tail, hlast⟩ := Option.isSome_iff_exists.mp present
    refine ⟨.new .sessionAlreadyExists "session already exists",
      guardTransaction_eq_error wellFormed.shape ?_, code.symm⟩
    rw [existing, validateExpectation, records, hlast, expects]
  · obtain ⟨tail, htail, rfl⟩ := Option.map_eq_some_iff.mp hlast
    refine ⟨sequenceConflict "expected session sequence is stale",
      guardTransaction_eq_error wellFormed.shape ?_, code.symm⟩
    rw [existing, validateExpectation, records, htail, hexpected]
    dsimp only
    rw [if_pos (by simpa using stale)]
  · cases hexpectation : validateExpectation memory.sessions[transaction.sessionId]?
        transaction with
    | error error' =>
      rw [← records] at current
      rcases validateExpectation_eq_error current hexpectation with
        ⟨creation, records, -⟩ | ⟨message, -, rfl⟩
      · exact absurd records (wellFormed.creates creation)
      · rw [← existing] at hexpectation
        exact ⟨_, guardTransaction_eq_error wellFormed.shape hexpectation, code.symm⟩
    | ok =>
      obtain ⟨previous, hprevious⟩ := exists_previousSequence h.consistent transaction.sessionId
      cases hrevision : nextJournalRevision (memory.storedOf transaction.sessionId)
          transaction with
      | ok revision =>
        rw [h.revision_eq] at stale
        exact absurd ((nextJournalRevision_eq_ok hrevision).2 entries) stale
      | error error' =>
        refine ⟨error', ?_, (code_of_nextJournalRevision hrevision).trans code.symm⟩
        rw [guardTransaction, existing, wellFormed.shape, hexpectation, wellFormed.grants,
          hprevious, hrevision]
        rfl

end Refines

/-! ### The operations -/

/-- The worker caches no session without records under an identity. -/
def Usable (worker : Worker) (sessionId : SessionId) : Prop :=
  ∀ stored, worker.sessions[sessionId]? = some stored → stored.records ≠ []

/-- A reply of the `SQLite` store agrees with the one of the in-memory store, the worker runs on and
represents the in-memory store. -/
def Simulates (codec : RowCodec) (specified : StoreReply × InMemorySessionStore)
    (result : StoreReply × SqliteSessionStore) : Prop :=
  specified.1.Agrees result.1 ∧
    ∃ worker, result.2 = ⟨some worker⟩ ∧ Refines codec specified.2 worker

namespace Refines

variable {memory' : InMemorySessionStore} {worker' : Worker}
  {specified : InMemorySessionStore.MemoryM α} {operation : Worker.WorkerM α}

variable (h : Refines codec memory worker)

include h

theorem lookup_eq (usable : Usable worker sessionId) :
    worker.sessions[sessionId]? = memory.sessions[sessionId]? := by
  cases hlookup : memory.sessions[sessionId]? with
  | some stored => exact h.cached sessionId stored hlookup
  | none =>
    rcases h.uncached sessionId hlookup with missing | empty
    · exact missing
    · exact absurd rfl (usable .empty empty)

theorem ensureLoaded_run (usable : Usable worker sessionId) :
    Worker.ensureLoaded codec sessionId worker = .ok () worker := by
  rw [Worker.ensureLoaded]
  simp only [bind_run, get_run]
  split_ifs with cached
  · rfl
  · have missing : memory.sessions[sessionId]? = none := by
      rw [← h.lookup_eq usable, getElem?_eq_none_iff_notMem]
      simpa using cached
    have rows : (worker.database.recordRows sessionId).length = 0 := by
      have lengths := congrArg List.length (h.recordIds sessionId)
      rw [List.length_map, List.length_map, recordsOf,
        storedOf_eq_of_none missing] at lengths
      exact lengths
    have unloaded : loadStored codec worker.database sessionId = .ok none := by
      rw [loadStored, if_pos rows]
      rfl
    rw [unloaded]
    rfl

omit h in
theorem simulates_ok (reply : α → StoreReply) (agrees : ∀ a, (reply a).Agrees (reply a)) {a : α}
    (hspecified : specified memory = .ok a memory')
    (hoperation : operation worker = .ok a worker') (h : Refines codec memory' worker') :
    Simulates codec (.ofResult reply (specified memory), resultState (specified memory))
      (request reply operation ⟨some worker⟩) := by
  simp only [request, hspecified, hoperation]
  exact ⟨agrees a, worker', rfl, h⟩

omit h in
theorem simulates_error (reply : α → StoreReply) {error error' : SessionStoreError}
    (hspecified : specified memory = .error (.error error) memory')
    (hoperation : operation worker = .error (.error error') worker')
    (code : error.code = error'.code) (h : Refines codec memory' worker') :
    Simulates codec (.ofResult reply (specified memory), resultState (specified memory))
      (request reply operation ⟨some worker⟩) := by
  simp only [request, hspecified, hoperation]
  exact ⟨code, worker', rfl, h⟩

/-- Loading a session agrees. -/
theorem load (usable : Usable worker sessionId) :
    Simulates codec (memory.execute (.load sessionId))
      (execute codec (.load sessionId) ⟨some worker⟩) := by
  have loaded := h.ensureLoaded_run usable
  have lookup := h.lookup_eq usable
  cases hlookup : memory.sessions[sessionId]? with
  | none =>
    rw [hlookup] at lookup
    have specified : InMemorySessionStore.load sessionId memory =
        .error (.error sessionNotFound) memory := by
      simp [InMemorySessionStore.load, bind_run, ensure, h.consistent.unpoisoned, hlookup,
        sessionNotFound]
    have missing : Worker.load codec sessionId worker = .error (.error sessionNotFound) worker := by
      simp [Worker.load, bind_run, loaded, lookup]
    exact simulates_error .snapshot specified missing rfl h
  | some stored =>
    obtain ⟨consistent, nonempty⟩ := h.consistent.sessions sessionId stored hlookup
    rw [hlookup] at lookup
    obtain ⟨snapshot, hsnapshot, -⟩ := consistent.exists_snapshot nonempty
    refine simulates_ok .snapshot (fun _ => rfl) (a := snapshot) ?_ ?_ h
    · simp [InMemorySessionStore.load, bind_run, ensure, h.consistent.unpoisoned, hlookup,
        hsnapshot]
    · simp [Worker.load, bind_run, loaded, lookup, hsnapshot]

/-- Appending a transaction agrees. -/
theorem append (usable : Usable worker transaction.sessionId)
    (storable : Storable codec transaction) (room : HasRoom memory transaction)
    (wellFormed : validatePersistedExpectation worker.database transaction ≠ .ok () →
      WellFormed memory transaction) :
    Simulates codec (memory.execute (.append transaction))
      (execute codec (.append transaction) ⟨some worker⟩) := by
  have loaded := h.ensureLoaded_run usable
  have lookup := h.lookup_eq usable
  have stored : (worker.sessions[transaction.sessionId]?).getD .empty =
      memory.storedOf transaction.sessionId := by
    rw [lookup]
    rfl
  have existed : worker.sessions.contains transaction.sessionId =
      memory.sessions.contains transaction.sessionId := by
    rw [Std.ExtTreeMap.contains_eq_isSome_getElem?, Std.ExtTreeMap.contains_eq_isSome_getElem?,
      lookup]
  cases hguard : validatePersistedExpectation worker.database transaction with
  | error error =>
    obtain ⟨error', hrefused, code⟩ := h.refused_code (wellFormed (by simp [hguard])) hguard
    have specified : InMemorySessionStore.append transaction memory =
        .error (.error error') memory := by
      have failed := applyTransactionInPlace_of_refused hrefused
      rcases h.consistent.append_cases transaction with
        ⟨_, _, ok, -, -⟩ | ⟨error'', failed', specified⟩
      · cases ok.symm.trans failed
      · cases failed'.symm.trans failed
        exact specified
    have refused : Worker.append codec transaction worker = .error (.error error)
        ⟨worker.database, worker.sessions.insert transaction.sessionId
          (memory.storedOf transaction.sessionId)⟩ := by
      simp [Worker.append, bind_run, loaded, stored, hguard, Worker.cache,
        insert_erase_eq]
    exact simulates_error .appended specified refused code (h.recache _)
  | ok =>
    have same : applyTransactionInPlace transaction
        (memory.sessions.contains transaction.sessionId)
        (persistedGrantIds worker.database transaction.grantEntries).contains =
          applyTransactionInPlace transaction (memory.sessions.contains transaction.sessionId)
            memory.grantIdInUse :=
      applyTransactionInPlace_congr fun entry hentry issued => h.grantIdInUse_eq hentry issued
    rcases h.consistent.append_cases transaction with
      ⟨outcome, stored', ok, committed, specified⟩ | ⟨error, failed, specified⟩
    · obtain ⟨database, hpersist, after⟩ := h.commit storable room committed
      refine simulates_ok .appended (fun _ => rfl) specified ?_ after
      simp only [Worker.append, bind_run, get_run, set_run, modify_run, pure_run, check_ok, loaded,
        stored, hguard, existed, same, ok, hpersist, Worker.cache, insert_erase_eq]
    · have refused : Worker.append codec transaction worker = .error (.error error)
          ⟨worker.database, worker.sessions.insert transaction.sessionId
            (memory.storedOf transaction.sessionId)⟩ := by
        simp [Worker.append, bind_run, loaded, stored, hguard, existed, same, failed, Worker.cache,
          insert_erase_eq]
      exact simulates_error .appended specified refused rfl (h.recache _)

/-- The index returns the active grants that the in-memory store lists. -/
theorem filterMap_activeGrants (actorId : ActorId) :
    (sortByKey (·.grantId) (worker.database.activeGrants.filter fun row =>
        row.actorId == actorId && !row.revoked)).filterMap
      (fun row => (memory.storedOf row.sessionId).artifacts.grants[row.grantId]?) =
      activeGrantsOf (valueList memory.sessions) actorId := by
  have sorted := pairwise_sortByKey
    (h.grantsIndexed.nodup_activeGrants.sublist
      (List.filter_sublist (p := (·.actorId == actorId)).map _))
  rw [activeGrantsOf, destutter_key_eq sorted]
  refine eq_of_pairwise_key (List.pairwise_filterMap.mpr ?_) sorted fun grant => ?_
  · refine (pairwise_sortByKey (h.grants.nodup.sublist (List.filter_sublist.map _))).imp ?_
    intro row row' lt grant hgrant grant' hgrant'
    rwa [(h.indexed _).keyed _ _ hgrant, (h.indexed _).keyed _ _ hgrant']
  · rw [mem_sortByKey, h.grantsIndexed.mem_activeGrants_iff, List.mem_filterMap]
    simp only [mem_sortByKey, List.mem_filter, Bool.and_eq_true, beq_iff_eq]
    constructor
    · rintro ⟨row, ⟨hrow, actor, active⟩, hgrant⟩
      obtain ⟨shown, hshown, shows⟩ := h.grants.sound row hrow
      cases hshown.symm.trans hgrant
      have hid := (h.indexed _).keyed _ _ hgrant
      refine ⟨⟨row.sessionId, by rwa [hid]⟩, ?_, shows.actor.symm.trans actor⟩
      rw [shows.revoked] at active
      simpa using active
    · rintro ⟨⟨sessionId, hgrant⟩, active, actor⟩
      obtain ⟨row, hrow, rfl, hid⟩ := h.grants.complete sessionId grant.id
        (mem_of_getElem? hgrant)
      rw [← hid] at hgrant
      obtain ⟨shown, hshown, shows⟩ := h.grants.sound row hrow
      cases hshown.symm.trans hgrant
      refine ⟨row, ⟨hrow, shows.actor.trans actor, ?_⟩, hgrant⟩
      rw [shows.revoked]
      simpa using active

/-- Listing the active grants of an actor agrees. -/
theorem activeGrants (actorId : ActorId) :
    Simulates codec (memory.execute (.activeGrantsForActor actorId))
      (execute codec (.activeGrantsForActor actorId) ⟨some worker⟩) := by
  have specified : activeGrantsForActor actorId memory =
      .ok (activeGrantsOf (valueList memory.sessions) actorId) memory := by
    simp [activeGrantsForActor, bind_run, ensure, h.consistent.unpoisoned]
  have listed : Worker.activeGrants codec actorId worker =
      .ok (activeGrantsOf (valueList memory.sessions) actorId) worker := by
    simp only [Worker.activeGrants, bind_run, get_run]
    rw [h.grants.mapM_decode, h.filterMap_activeGrants]
    rfl
  exact simulates_ok .grants (fun _ => rfl) specified listed h

end Refines

/-! ### Histories -/

/-- The replies to a list of commands, and the store after them. -/
def runCommands {σ : Type} (execute : StoreCommand → σ → StoreReply × σ) :
    List StoreCommand → σ → List StoreReply × σ
  | [], store => ([], store)
  | command :: commands, store =>
    let result := execute command store
    let rest := runCommands execute commands result.2
    (result.1 :: rest.1, rest.2)

/-- A command on which the stores agree. It names no session that is cached without records. An
append can be written, and if the tables refuse it, nothing else is wrong with it. -/
def RegularCommand (codec : RowCodec) (memory : InMemorySessionStore) (worker : Worker) :
    StoreCommand → Prop
  | .load sessionId => Usable worker sessionId
  | .append transaction =>
    Usable worker transaction.sessionId ∧ Storable codec transaction ∧
      HasRoom memory transaction ∧
      (validatePersistedExpectation worker.database transaction ≠ .ok () →
        WellFormed memory transaction)
  | .activeGrantsForActor _ => True

/-- Every command of a history is regular in the states that the history before it leads to. -/
def RegularHistory (codec : RowCodec) :
    List StoreCommand → InMemorySessionStore → SqliteSessionStore → Prop
  | [], _, _ => True
  | command :: commands, memory, store =>
    (∀ worker ∈ store.worker, RegularCommand codec memory worker command) ∧
      RegularHistory codec commands (memory.execute command).2
        (execute codec command store).2

theorem Refines.execute (h : Refines codec memory worker) {command : StoreCommand}
    (regular : RegularCommand codec memory worker command) :
    Simulates codec (memory.execute command)
      (execute codec command ⟨some worker⟩) := by
  cases command with
  | load sessionId => exact h.load regular
  | append transaction =>
    obtain ⟨usable, storable, room, wellFormed⟩ := regular
    exact h.append usable storable room wellFormed
  | activeGrantsForActor actorId => exact h.activeGrants actorId

theorem Refines.agree_of_regular (h : Refines codec memory worker) {commands : List StoreCommand}
    (regular : RegularHistory codec commands memory ⟨some worker⟩) :
    List.Forall₂ StoreReply.Agrees
        (runCommands InMemorySessionStore.execute commands memory).1
        (runCommands (SqliteSessionStore.execute codec) commands ⟨some worker⟩).1 ∧
      ∃ worker', (runCommands (SqliteSessionStore.execute codec) commands
          ⟨some worker⟩).2 = ⟨some worker'⟩ ∧
        Refines codec (runCommands InMemorySessionStore.execute commands memory).2
          worker' := by
  induction commands generalizing memory worker with
  | nil => exact ⟨.nil, worker, rfl, h⟩
  | cons command commands ih =>
    obtain ⟨first, rest⟩ := regular
    obtain ⟨agrees, worker', after, refines⟩ := h.execute (first worker rfl)
    rw [after] at rest
    obtain ⟨replies, final⟩ := ih refines rest
    rw [runCommands, runCommands, after]
    exact ⟨.cons agrees replies, final⟩

/-- On a regular history from the new stores every reply of the `SQLite` store agrees with the reply
of the in-memory store, and its worker never panics. -/
theorem sqlite_replies_agree (codec : RowCodec) (commands : List StoreCommand)
    (regular : RegularHistory codec commands .new .openFresh) :
    List.Forall₂ StoreReply.Agrees (runCommands InMemorySessionStore.execute commands .new).1
        (runCommands (SqliteSessionStore.execute codec) commands .openFresh).1 ∧
      (runCommands (SqliteSessionStore.execute codec) commands .openFresh).2.worker.isSome =
        true := by
  obtain ⟨agree, worker, final, -⟩ := (Refines.refines_fresh codec).agree_of_regular regular
  refine ⟨agree, ?_⟩
  rw [openFresh, final]
  rfl

/-! ### Regular histories can be checked -/

section Decide

instance decidableExistsOk {ε α : Type} (x : Except ε α) : Decidable (∃ a, x = .ok a) :=
  match x with
  | .ok a => isTrue ⟨a, rfl⟩
  | .error _ => isFalse (by simp)

instance (grant : PolicyGrant) : Decidable (codec.RoundTrips grant) :=
  match hencode : codec.grant.encode grant with
  | .ok text =>
    decidable_of_iff (codec.grant.decode text = .ok grant) (by simp [RowCodec.RoundTrips, hencode])
  | .error _ => isFalse (by simp [RowCodec.RoundTrips, hencode])

instance (sessionId : SessionId) : Decidable (Usable worker sessionId) :=
  decidable_of_iff (∀ stored ∈ worker.sessions[sessionId]?, stored.records ≠ []) Iff.rfl

instance : Decidable (Storable codec transaction) :=
  decidable_of_iff (_ ∧ _ ∧ _ ∧ _)
    ⟨fun ⟨h₁, h₂, h₃, h₄⟩ => ⟨h₁, h₂, h₃, h₄⟩, fun ⟨h₁, h₂, h₃, h₄⟩ => ⟨h₁, h₂, h₃, h₄⟩⟩

instance : Decidable (HasRoom memory transaction) :=
  decidable_of_iff (_ ∧ _) ⟨fun ⟨h₁, h₂⟩ => ⟨h₁, h₂⟩, fun ⟨h₁, h₂⟩ => ⟨h₁, h₂⟩⟩

instance : Decidable (WellFormed memory transaction) :=
  decidable_of_iff (_ ∧ _ ∧ _) ⟨fun ⟨h₁, h₂, h₃⟩ => ⟨h₁, h₂, h₃⟩, fun ⟨h₁, h₂, h₃⟩ => ⟨h₁, h₂, h₃⟩⟩

instance (command : StoreCommand) : Decidable (RegularCommand codec memory worker command) := by
  cases command <;> unfold RegularCommand <;> infer_instance

instance decidableRegularHistory : (commands : List StoreCommand) →
    (memory : InMemorySessionStore) → (store : SqliteSessionStore) →
    Decidable (RegularHistory codec commands memory store)
  | [], _, _ => isTrue trivial
  | _ :: commands, _, _ =>
    @instDecidableAnd _ _ inferInstance (decidableRegularHistory commands _ _)

end Decide

/-- A codec that writes a record as its identity and nothing else. -/
def recordIdCodec : RowCodec where
  encodeRecord record := .ok record.recordId.toText
  parseValue text := .ok (.string text)
  decodeValue _ := .error "not a record"
  artifact := ⟨fun _ => .error "not written", fun _ => .error "not an artifact"⟩
  entry := ⟨fun _ => .error "not written", fun _ => .error "not a journal entry"⟩
  grant := ⟨fun _ => .error "not written", fun _ => .error "not a grant"⟩

/-- Create a session, read it, append to it with a stale and with the current sequence, and read it
again. -/
def createdCommands : List StoreCommand :=
  [.load ⟨0⟩, .append numberedCreationTransaction, .load ⟨0⟩,
    .append (.new ⟨0⟩ (some 1)
      [SessionReducer.profileChanged 2 ⟨"a"⟩]),
    .append (.new ⟨0⟩ (some 0)
      [SessionReducer.profileChanged 1 ⟨"b"⟩]),
    .load ⟨0⟩, .activeGrantsForActor ⟨"actor", rfl⟩]

theorem sqlite_replies_agree_created : List.Forall₂ StoreReply.Agrees
        (runCommands execute createdCommands .new).1
        (runCommands (execute recordIdCodec) createdCommands .openFresh).1 ∧
      (runCommands (execute recordIdCodec) createdCommands
        .openFresh).2.worker.isSome = true :=
  sqlite_replies_agree recordIdCodec createdCommands (by decide +kernel)

/-- Append to a session that does not exist, and read it. -/
def missingCommands : List StoreCommand := [.append undeclaredTransaction, .load ⟨0⟩]

/-- After a failed append to a session that does not exist the in-memory store does not find the
session; the worker of the `SQLite` store panics. -/
theorem sqlite_replies_disagree_missing :
    (runCommands execute missingCommands .new).1 =
      [.failed ⟨.sessionNotFound, "cannot append to a missing session"⟩,
        .failed ⟨.sessionNotFound, "session does not exist"⟩] ∧
    runCommands (execute recordIdCodec) missingCommands .openFresh =
      ([.failed ⟨.sessionNotFound, "session does not exist"⟩,
        .failed ⟨.storageUnavailable, "sqlite session worker is unavailable"⟩], ⟨none⟩) ∧
    ¬List.Forall₂ StoreReply.Agrees
      (runCommands execute missingCommands .new).1
      (runCommands (execute recordIdCodec) missingCommands .openFresh).1 := by
  have specified : (runCommands execute missingCommands .new).1 =
      [.failed ⟨.sessionNotFound, "cannot append to a missing session"⟩,
        .failed ⟨.sessionNotFound, "session does not exist"⟩] := by
    decide +kernel
  have replied : runCommands (execute recordIdCodec) missingCommands .openFresh =
      ([.failed ⟨.sessionNotFound, "session does not exist"⟩,
        .failed ⟨.storageUnavailable, "sqlite session worker is unavailable"⟩], ⟨none⟩) := by
    decide +kernel
  refine ⟨specified, replied, ?_⟩
  rw [specified, replied]
  simp [StoreReply.Agrees]

end TeaRs
