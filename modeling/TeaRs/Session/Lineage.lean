import TeaRs.Session.History

/-!
# The history of a branch as a log of its own

A branch is built by a chain of records: those of its source up to the fork point, the record that
creates it, and the records applied while it is active. Its history set picks exactly this chain
out of the log, in log order, however the records of other branches are interleaved. A property of
a branch is therefore proved along its lineage, as if the branch were the whole log.

## Main definitions

* `SessionReducer.historyOf`, `SessionReducer.activeHistory`: the records of a history set, and of
  the active branch.
* `SessionReducer.Lineage H p`: the chain of records `H` builds the projection `p`.

## Main results

* `SessionReducer.Accepted.lineage_head`: the history of every branch builds its projection.
* `SessionReducer.Accepted.lineage_active`: the active history builds the materialized state.
* `SessionReducer.activated_projection_eq`: the first activation of a branch installs the
  projection of its fork point.
-/

namespace TeaRs

open StateError BranchProjection

namespace SessionReducer

variable {r r' : SessionReducer} {s : MaterializedSessionState} {e : RecordEnvelope}
variable {log H : List RecordEnvelope} {head : BranchSnapshot} {b : BranchId}

/-- The records of the log whose identities are in a history set, in log order. -/
def historyOf (log : List RecordEnvelope) (history : BTreeSet RecordId) : List RecordEnvelope :=
  log.filter fun e => history.contains e.recordId

/-- The history of the active branch. A log without branches is one history. -/
def activeHistory (r : SessionReducer) : List RecordEnvelope :=
  match r.state with
  | none => []
  | some s =>
    match s.activeBranchId with
    | none => r.records
    | some b =>
      match r.branchHeads[b]? with
      | none => []
      | some head => historyOf r.records head.history

/-- The chain of records builds the projection: it starts with the creation of the session, and
goes on with records applied to the projection or with records about branches. -/
inductive Lineage : List RecordEnvelope → BranchProjection → Prop
  | root {e : RecordEnvelope} {profileId : ProfileId} {metadata : ProtocolMetadata}
      (record : e.record = .sessionCreated profileId metadata) :
      Lineage [e] (capture (createdState e profileId metadata))
  | record {log : List RecordEnvelope} {r q : SessionReducer} {s t : MaterializedSessionState}
      {e : RecordEnvelope} (accepted : Accepted log r) (state : r.state = some s)
      (lineage : Lineage r.activeHistory (capture s))
      (step : RecordStep r s e q t) :
      Lineage (r.activeHistory ++ [e]) (capture t)
  | branch {H : List RecordEnvelope} {p : BranchProjection} {e : RecordEnvelope}
      (lineage : Lineage H p) (record : isBranchRecord e.record = true) : Lineage (H ++ [e]) p

/-! ### Histories of a growing log -/

theorem historyOf_snoc (log : List RecordEnvelope) (e : RecordEnvelope)
    (history : BTreeSet RecordId) : historyOf (log ++ [e]) history =
      historyOf log history ++ if e.recordId ∈ history then [e] else [] := by
  simp [historyOf, List.filter_cons]

theorem historyOf_insert {id : RecordId} {history : BTreeSet RecordId}
    (absent : id ∉ log.map (·.recordId)) :
    historyOf log (history.insert id) = historyOf log history := by
  refine List.filter_congr fun e he => ?_
  have hne : e.recordId ≠ id := by
    rintro rfl
    exact absent (List.mem_map_of_mem he)
  rw [Bool.eq_iff_iff]
  simp only [Std.ExtTreeSet.contains_iff_mem, BTreeSet.mem_insert_iff, hne, false_or]

theorem Accepted.fresh_of_snoc (h : Accepted (log ++ [e]) r) :
    e.recordId ∉ log.map (·.recordId) := by
  have nodup := h.nodup
  rw [List.map_append, List.nodup_append] at nodup
  exact fun hmem => nodup.2.2 _ hmem _ (by simp) rfl

theorem historyOf_snoc_insert {history : BTreeSet RecordId}
    (fresh : e.recordId ∉ log.map (·.recordId)) :
    historyOf (log ++ [e]) (history.insert e.recordId) = historyOf log history ++ [e] := by
  rw [historyOf_snoc, historyOf_insert fresh, if_pos (BTreeSet.mem_insert_iff.mpr (.inl rfl))]

/-! ### Every head has a lineage -/

/-- What holds of the head of every branch, and of every tip snapshot, after the log. -/
structure HeadInvariant (log : List RecordEnvelope) (head : BranchSnapshot) : Prop where
  lineage : Lineage (historyOf log head.history) head.projection
  known : ∀ id ∈ head.history, id ∈ log.map (·.recordId)
  declared : head.declaredToolCalls = transcriptToolCalls head.projection.messages

namespace HeadInvariant

theorem mono (h : HeadInvariant log head) (fresh : e.recordId ∉ log.map (·.recordId)) :
    HeadInvariant (log ++ [e]) head := by
  have absent : e.recordId ∉ head.history := fun hmem => fresh (h.known _ hmem)
  refine ⟨?_, ?_, h.declared⟩
  · rw [historyOf_snoc, if_neg absent, List.append_nil]
    exact h.lineage
  · intro id hid
    rw [List.map_append]
    exact List.mem_append_left _ (h.known id hid)

theorem known_insert (h : HeadInvariant log head) :
    ∀ id ∈ head.history.insert e.recordId, id ∈ (log ++ [e]).map (·.recordId) := by
  intro id hid
  rw [List.map_append, List.mem_append]
  rcases BTreeSet.mem_insert_iff.mp hid with rfl | hid
  · exact .inr (by simp)
  · exact .inl (h.known id hid)

theorem extend (h : HeadInvariant log head) (fresh : e.recordId ∉ log.map (·.recordId))
    (record : isBranchRecord e.record = true) :
    HeadInvariant (log ++ [e]) (head.extend e.recordId) := by
  refine ⟨?_, h.known_insert, h.declared⟩
  rw [BranchSnapshot.extend, historyOf_snoc_insert fresh]
  exact h.lineage.branch record

end HeadInvariant

theorem activeHistory_of_none (hs : r.state = some s) (active : s.activeBranchId = none) :
    r.activeHistory = r.records := by
  simp only [activeHistory, hs, active]

theorem activeHistory_of_some (hs : r.state = some s) (active : s.activeBranchId = some b)
    (lookup : r.branchHeads[b]? = some head) :
    r.activeHistory = historyOf r.records head.history := by
  simp only [activeHistory, hs, active, lookup]

variable {fork : BranchId → RecordId → Except SessionReplayError (Option BranchSnapshot)}

theorem Step.head_cases (h : Step fork r e r') (lookup : r'.branchHeads[b]? = some head) :
    r.branchHeads[b]? = some head ∨ tipBranch r' e = some b := by
  by_cases tip : tipBranch r' e = some b
  · exact .inr tip
  · left
    cases h with
    | created empty fresh first record =>
      rw [tipBranch_created record] at tip
      rw [← lookup, afterCreation, createdHeads]
      split
      · rfl
      · next b' hb' =>
        exact (BTreeMap.getElem?_insert_of_ne fun heq => tip (by rw [hb', heq])).symm
    | unbranched _ _ _ step =>
      rw [← lookup, ← step.branchHeads_eq]
      rfl
    | @onBranch _ _ _ b' _ _ _ _ active step _ _ =>
      have hb := step.isBranchRecord_eq_false
      have hne : b ≠ b' := by
        rintro rfl
        refine tip ?_
        rw [tipBranch_of_record hb]
        exact step.activeBranchId_eq.trans active
      rw [← step.branchHeads_eq]
      exact (BTreeMap.getElem?_insert_of_ne hne).symm.trans lookup
    | forked _ record | switched _ record =>
      refine (BTreeMap.getElem?_insert_of_ne ?_).symm.trans lookup
      rintro rfl
      exact tip (by rw [tipBranch, record])

theorem Step.mem_history_tip
    (h : Step fork r e r') (tip : tipSnapshot r' e = some head) : e.recordId ∈ head.history := by
  have self (history : BTreeSet RecordId) : e.recordId ∈ history.insert e.recordId :=
    BTreeSet.mem_insert_iff.mpr (.inl rfl)
  cases h with
  | created empty fresh first record =>
    rw [tipSnapshot_created record, Option.map_eq_some_iff] at tip
    obtain ⟨_, -, rfl⟩ := tip
    exact self _
  | unbranched follows scope active step =>
    rw [tipSnapshot, tipBranch_of_record step.isBranchRecord_eq_false] at tip
    simp [sealed, step.activeBranchId_eq.trans active] at tip
  | onBranch _ _ active step =>
    have active' := step.activeBranchId_eq.trans active
    have hb := step.isBranchRecord_eq_false
    obtain rfl := Option.some.inj ((tipSnapshot_onBranch hb (by exact active')).symm.trans tip)
    exact self _
  | forked _ record =>
    rw [tipSnapshot_withHead (.inl ⟨_, _, record⟩)] at tip
    obtain rfl := Option.some.inj tip
    exact self _
  | switched _ record =>
    rw [tipSnapshot_withHead (.inr record)] at tip
    obtain rfl := Option.some.inj tip
    exact self _

namespace Accepted

/-- The tip snapshot of the next record keeps the invariant of the heads. -/
theorem headInvariant_tip (before : Accepted log r) (step : Step (replayBranchSnapshot r) r e r')
    (heads : ∀ (b : BranchId) head, r.branchHeads[b]? = some head → HeadInvariant log head)
    (tips : ∀ id snapshot, TipAt log id snapshot → HeadInvariant log snapshot)
    (tip : tipSnapshot r' e = some head) : HeadInvariant (log ++ [e]) head := by
  have fresh : e.recordId ∉ log.map (·.recordId) := fun hmem =>
    step.recordId_fresh (before.mem_recordIds_iff.mpr hmem)
  cases step with
  | created empty _ _ record =>
    obtain rfl := before.eq_nil_of_state empty
    rw [tipSnapshot_created record, Option.map_eq_some_iff] at tip
    obtain ⟨_, -, rfl⟩ := tip
    refine ⟨?_, ?_, rfl⟩
    · rw [rootSnapshot, historyOf_snoc_insert fresh]
      exact .root record
    · intro id hid
      rcases BTreeSet.mem_insert_iff.mp hid with rfl | hid
      · simp
      · simp at hid
  | unbranched follows scope active step =>
    have hb := step.isBranchRecord_eq_false
    rw [tipSnapshot, tipBranch_of_record hb] at tip
    simp [sealed, step.activeBranchId_eq.trans active] at tip
  | @onBranch s q t b old summary follows scope active step lookup listed =>
    have hb := step.isBranchRecord_eq_false
    have active' : t.activeBranchId = some b := step.activeBranchId_eq.trans active
    obtain rfl := Option.some.inj ((tipSnapshot_onBranch hb (by exact active')).symm.trans tip)
    have invariant := heads b old lookup
    obtain ⟨_, lookup', projection⟩ := before.active_head follows.state active
    obtain rfl := Option.some.inj (lookup.symm.trans lookup')
    have hhistory : r.activeHistory = historyOf log old.history := by
      rw [activeHistory_of_some follows.state active lookup, before.records_eq]
    refine ⟨?_, invariant.known_insert, rfl⟩
    rw [BranchSnapshot.advance, historyOf_snoc_insert fresh, ← hhistory]
    refine .record before follows.state ?_ step
    rw [hhistory, ← projection]
    exact invariant.lineage
  | forked follows record _ lookup reached found safe =>
    rw [tipSnapshot_withHead (.inl ⟨_, _, record⟩)] at tip
    obtain rfl := Option.some.inj tip
    have invariant := tips _ _ (before.tipAt_of_replayBranchSnapshot found)
    exact invariant.extend fresh (by rw [record]; rfl)
  | switched follows record lookup =>
    rw [tipSnapshot_withHead (.inr record)] at tip
    obtain rfl := Option.some.inj tip
    exact (heads _ _ lookup).extend fresh (by rw [record]; rfl)

theorem headInvariant (h : Accepted log r) :
    (∀ (b : BranchId) head, r.branchHeads[b]? = some head → HeadInvariant log head) ∧
      ∀ id snapshot, TipAt log id snapshot → HeadInvariant log snapshot := by
  induction h using induct with
  | nil =>
    refine ⟨fun b head lookup => ?_, fun id snapshot tip => absurd tip.mem (by simp)⟩
    simp [new] at lookup
  | snoc before step after ih =>
    obtain ⟨heads, tips⟩ := ih
    have fresh := after.fresh_of_snoc
    refine ⟨fun b head lookup => ?_, fun id snapshot tip => ?_⟩
    · rcases step.head_cases lookup with old | tip
      · exact (heads b head old).mono fresh
      · exact before.headInvariant_tip step heads tips (tipSnapshot_of_branch tip lookup)
    · rcases (TipAt.snoc_iff after).mp tip with old | ⟨-, tip⟩
      · exact (tips id snapshot old).mono fresh
      · exact before.headInvariant_tip step heads tips tip

theorem head_eq_none (h : Accepted log r) (hs : r.state = some s)
    (active : s.activeBranchId = none) (b : BranchId) : r.branchHeads[b]? = none := by
  induction h using induct generalizing s b with
  | nil => cases hs
  | snoc before step _ ih =>
    cases step with
    | created empty =>
      obtain rfl := before.eq_nil_of_state empty
      obtain rfl := Run.nil_iff.mp before
      cases hs
      have active : RecordEnvelope.branchId _ = none := active
      simp [push, afterCreation, createdHeads, active, new]
    | unbranched follows _ active' step =>
      refine Eq.trans ?_ (ih follows.state active' b)
      exact congrArg (·[b]?) step.branchHeads_eq
    | onBranch _ _ active' step =>
      cases hs
      cases active'.symm.trans (step.activeBranchId_eq.symm.trans active)
    | forked follows _ _ lookup =>
      cases hs
      cases (ih follows.state active _).symm.trans lookup
    | switched =>
      cases hs
      cases active

/-- The history of every branch builds its projection. -/
theorem lineage_head (h : Accepted log r) (lookup : r.branchHeads[b]? = some head) :
    Lineage (historyOf log head.history) head.projection :=
  (h.headInvariant.1 b head lookup).lineage

/-- The active history builds the materialized state. -/
theorem lineage_active (h : Accepted log r) (hs : r.state = some s) :
    Lineage r.activeHistory (capture s) := by
  cases active : s.activeBranchId with
  | some b =>
    obtain ⟨head, lookup, projection⟩ := h.active_head hs active
    rw [activeHistory_of_some hs active lookup, h.records_eq, ← projection]
    exact h.lineage_head lookup
  | none =>
    rw [activeHistory_of_none hs active]
    induction h using induct generalizing s with
    | nil => cases hs
    | snoc before step _ ih =>
      cases step with
      | created empty _ _ record =>
        obtain rfl := before.eq_nil_of_state empty
        obtain rfl := Run.nil_iff.mp before
        cases hs
        exact .root record
      | unbranched follows _ active' step =>
        cases hs
        have lineage := ih follows.state active'
        rw [← activeHistory_of_none follows.state active'] at lineage
        have next := lineage.record before follows.state step
        rw [activeHistory_of_none follows.state active', ← step.records_eq] at next
        exact next
      | onBranch _ _ active' step =>
        cases hs
        cases active'.symm.trans (step.activeBranchId_eq.symm.trans active)
      | forked follows _ _ lookup =>
        cases hs
        cases (before.head_eq_none follows.state active _).symm.trans lookup
      | switched =>
        cases hs
        cases active

theorem mem_history_iff (h : Accepted (log ++ [e]) r) (lookup : r.branchHeads[b]? = some head) :
    e.recordId ∈ head.history ↔ tipBranch r e = some b := by
  obtain ⟨r₀, q, before, step, rfl⟩ := snoc_iff.mp h
  constructor
  · intro hmem
    rcases step.head_cases lookup with old | tip
    · exact absurd ((before.headInvariant.1 b head old).known _ hmem) h.fresh_of_snoc
    · exact tip
  · intro tip
    exact step.mem_history_tip (tipSnapshot_of_branch tip lookup)

end Accepted

/-! ### The first activation of a branch -/

/-- The branch that owns the record `origin` of the log, and its head right after the record. -/
def OwnedBy (log : List RecordEnvelope) (origin : RecordId) (owner : BranchId)
    (head : BranchSnapshot) : Prop :=
  ∃ before f after r, log = before ++ f :: after ∧ f.recordId = origin ∧
    Accepted (before ++ [f]) r ∧ r.branchHeads[owner]? = some head ∧
    ∀ (b : BranchId) other, r.branchHeads[b]? = some other →
      (origin ∈ other.history ↔ b = owner)

theorem TipAt.exists_ownedBy {origin : RecordId} {snapshot : BranchSnapshot}
    (tip : TipAt log origin snapshot) : ∃ owner, OwnedBy log origin owner snapshot := by
  obtain ⟨before, f, after, r, rfl, rfl, accepted, htip⟩ := tip
  obtain ⟨owner, howner, lookup⟩ := Option.bind_eq_some_iff.mp htip
  refine ⟨owner, before, f, after, r, rfl, rfl, accepted, lookup, fun b other hb => ?_⟩
  rw [accepted.mem_history_iff hb, howner]
  exact ⟨fun h => (Option.some.inj h).symm, fun h => by rw [h]⟩

/-- The first activation of a branch installs the projection that the branch owning its fork point
had right after the fork point, whatever came in between. A replay of the log with a table of
captured snapshots ends in the same reducer. -/
theorem activated_projection_eq {before between : List RecordEnvelope} {c a : RecordEnvelope}
    {source b : BranchId} {origin : RecordId}
    (accepted : Accepted (before ++ c :: between ++ [a]) r)
    (creates : c.record = .branchCreated source b origin)
    (activates : a.record = .activeBranchChanged b)
    (first : ∀ x ∈ between, x.record ≠ .activeBranchChanged b) :
    ∃ owner head s, OwnedBy before origin owner head ∧ r.state = some s ∧
      s.activeBranchId = some b ∧ capture s = head.projection ∧
      ∀ required : BTreeSet RecordId,
        (∀ id ∈ forkPoints (before ++ c :: between ++ [a]), id ∈ required) →
        ∃ table, replayCapturing (before ++ c :: between ++ [a]) new
          { required, captured := ∅ } = .ok (r, table) := by
  obtain ⟨r₂, -, prior, -, -⟩ := Accepted.snoc_iff.mp accepted
  obtain ⟨r₁, created, run⟩ : ∃ r₁, Accepted (before ++ [c]) r₁ ∧
      Run (fun r e r' => apply e r = .ok () r') r₁ between r₂ := by
    rw [← Accepted.append_iff]
    simpa using prior
  obtain ⟨snapshot, tip, dormant⟩ := created.dormant_of_created creates
  obtain ⟨owner, owned⟩ := tip.exists_ownedBy
  have still := dormant.run run first
  obtain ⟨s, hs, active, projection⟩ :=
    accepted.projection_of_activated activates prior still.lookup
  refine ⟨owner, snapshot, s, owned, hs, active, projection, fun required covers => ?_⟩
  obtain ⟨table, replayed, -, -⟩ := reproduces _ r required accepted covers
  exact ⟨table, replayed⟩

/-- A branch forked at a message, activated after its source went on. -/
def forkedLog : List RecordEnvelope :=
  [numberedCreation,
    numbered 1 (some ⟨0⟩) (.messageCommitted (.user ⟨0⟩ [.text "hello"] 1)) rfl,
    numbered 2 (some ⟨1⟩) (.branchCreated ⟨0⟩ ⟨1⟩ ⟨1⟩) rfl,
    numbered 3 (some ⟨0⟩) (.messageCommitted (.user ⟨1⟩ [.text "again"] 3)) rfl,
    branchSwitched 4]

/-- The branch starts with the one message its fork point had. -/
theorem activated_projection_eq_forkedLog : ∃ owner head s,
    OwnedBy (forkedLog.take 2) ⟨1⟩ owner head ∧ (reducerOf forkedLog).state = some s ∧
      capture s = head.projection := by
  have accepted : Accepted (forkedLog.take 2 ++ forkedLog.get ⟨2, by decide⟩ ::
      [forkedLog.get ⟨3, by decide⟩] ++ [forkedLog.get ⟨4, by decide⟩]) (reducerOf forkedLog) :=
    accepted_reducerOf (by decide +kernel)
  obtain ⟨owner, head, s, owned, hs, -, projection, -⟩ :=
    activated_projection_eq accepted rfl rfl (by decide)
  exact ⟨owner, head, s, owned, hs, projection⟩

end SessionReducer

end TeaRs
