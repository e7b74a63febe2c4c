import TeaRs.Session.Replay

/-!
# Branch snapshots and the replays that produce them

Creating a branch looks up the state its source had at an older record. The lookup replays a prefix
of the log, and while it replays, nested branch creations read the snapshots captured so far. Both
ways give the tip snapshot of the older record: the snapshot that the branch owning the record had
right after the record was applied. The proof is an induction on the length of the log, since the
prefix that a lookup replays contains branch creations of its own.

## Main definitions

* `SessionReducer.TipAt log id snapshot`: the tip snapshot of the record `id` of the log.
* `SessionReducer.forkPoints`: the records that the branches of a log start from.

## Main results

* `SessionReducer.reproduces`: a replay with a table of snapshots ends in the same
  reducer, and its table holds exactly the tip snapshots of the required records.
* `SessionReducer.Accepted.tipAt_of_replayBranchSnapshot`: a branch starts from the tip snapshot of
  its fork point.
* `SessionReducer.Accepted.projection_of_activated`: the activation of a branch installs the
  projection of its head.
-/

namespace TeaRs

open StateError HistoricalSnapshots BTreeMap List

namespace SessionReducer

variable {r r' : SessionReducer} {s : MaterializedSessionState} {e : RecordEnvelope}
variable {log : List RecordEnvelope}

theorem withHead_lookup (r : SessionReducer) (b : BranchId) (head : BranchSnapshot) :
    (r.withHead b head).branchHeads[b]? = some head :=
  Std.ExtTreeMap.getElem?_insert_self

theorem createdHeads_root {heads : BTreeMap BranchId BranchSnapshot} {b : BranchId}
    (root : e.branchId = some b) :
    (createdHeads heads e s)[b]? = some (rootSnapshot s e.recordId) := by
  simp [createdHeads, root]

/-! ### Prefixes and record identities -/

namespace Accepted

theorem append_iff {l₁ l₂ : List RecordEnvelope} : Accepted (l₁ ++ l₂) r' ↔
    ∃ r, Accepted l₁ r ∧ Run (fun r e r' => apply e r = .ok () r') r l₂ r' :=
  Run.append_iff

theorem mem_recordIds_iff (h : Accepted log r) {id : RecordId} :
    id ∈ r.recordIds ↔ id ∈ log.map (·.recordId) := by
  induction h using induct with
  | nil => simp [new]
  | snoc before step _ ih =>
    rw [push, step.recordIds_eq, BTreeSet.mem_insert_iff, ih]
    simp only [map_append, mem_append, map_cons, map_nil, mem_singleton]
    exact or_comm

theorem nodup (h : Accepted log r) : (log.map (·.recordId)).Nodup := by
  induction h using induct with
  | nil => exact nodup_nil
  | @snoc log r q e before step _ ih =>
    have fresh : e.recordId ∉ log.map (·.recordId) := fun hmem =>
      step.recordId_fresh (before.mem_recordIds_iff.mpr hmem)
    rw [map_append, nodup_append]
    refine ⟨ih, by simp, ?_⟩
    intro id hid id' hid' heq
    obtain rfl : id' = e.recordId := by simpa using hid'
    exact fresh (heq ▸ hid)

end Accepted

/-! ### Tip snapshots -/

/-- The tip snapshot of the record `id` of the log: the one its branch had right after it. -/
def TipAt (log : List RecordEnvelope) (id : RecordId) (snapshot : BranchSnapshot) : Prop :=
  ∃ before f after r, log = before ++ f :: after ∧ f.recordId = id ∧
    Accepted (before ++ [f]) r ∧ tipSnapshot r f = some snapshot

namespace TipAt

variable {id : RecordId} {snapshot : BranchSnapshot}

theorem mem (h : TipAt log id snapshot) : id ∈ log.map (·.recordId) := by
  obtain ⟨before, f, after, r, rfl, rfl, -, -⟩ := h
  simp

theorem append (h : TipAt log id snapshot) (l : List RecordEnvelope) :
    TipAt (log ++ l) id snapshot := by
  obtain ⟨before, f, after, r, rfl, hid, accepted, tip⟩ := h
  exact ⟨before, f, after ++ l, r, by simp, hid, accepted, tip⟩

theorem snoc_iff (h : Accepted (log ++ [e]) r') : TipAt (log ++ [e]) id snapshot ↔
    TipAt log id snapshot ∨ e.recordId = id ∧ tipSnapshot r' e = some snapshot := by
  constructor
  · rintro ⟨before, f, after, r, split, hid, accepted, tip⟩
    cases after using reverseRecOn with
    | nil =>
      obtain ⟨rfl, rfl⟩ := append_singleton_inj.mp split
      exact .inr ⟨hid, h.eq accepted ▸ tip⟩
    | append_singleton after g =>
      rw [← cons_append, ← append_assoc] at split
      obtain ⟨rfl, -⟩ := append_singleton_inj.mp split
      exact .inl ⟨before, f, after, r, rfl, hid, accepted, tip⟩
  · rintro (tip | ⟨hid, tip⟩)
    · exact tip.append [e]
    · exact ⟨log, e, [], r', rfl, hid, h, tip⟩

end TipAt

/-! ### Replays with a table of snapshots -/

/-- The records that the branches of a log start from. -/
def forkPoints (log : List RecordEnvelope) : List RecordId :=
  log.filterMap (forkPoint? ·.record)

theorem replayCapturing_snoc {h h' : HistoricalSnapshots}
    (first : replayCapturing log r h = .ok (r', h')) {captured : HistoricalSnapshots}
    {q : SessionReducer} (last : applyInnerWithHistory (fun _ _ _ => .ok none) e (some h') r' =
      .ok (some captured) q) :
    replayCapturing (log ++ [e]) r h = .ok (q.push e, captured) := by
  induction log generalizing r h with
  | nil =>
    cases first
    simp [replayCapturing, last]
  | cons f log ih =>
    rw [cons_append, replayCapturing]
    rw [replayCapturing] at first
    split at first
    · exact ih first
    · cases first

/-- The table of a replay holds exactly the tip snapshots of the required records. -/
def HoldsTips (table : HistoricalSnapshots) (log : List RecordEnvelope) : Prop :=
  ∀ id snapshot, table.get id = some snapshot ↔ id ∈ table.required ∧ TipAt log id snapshot

theorem captureTip_required (table : HistoricalSnapshots) (r : SessionReducer)
    (e : RecordEnvelope) : (captureTip table r e).required = table.required := by
  rw [captureTip]
  split
  · rw [capture]
    split <;> rfl
  · rfl

theorem captureTip_get (table : HistoricalSnapshots) (r : SessionReducer) (e : RecordEnvelope)
    (id : RecordId) : (captureTip table r e).get id =
      if id = e.recordId ∧ id ∈ table.required then (tipSnapshot r e).or (table.get id)
      else table.get id := by
  rw [captureTip]
  cases tipSnapshot r e with
  | none => simp
  | some snapshot =>
    simp only [HistoricalSnapshots.capture]
    by_cases hid : id = e.recordId
    · subst hid
      split_ifs <;> simp_all [HistoricalSnapshots.get]
    · split_ifs <;> simp_all [HistoricalSnapshots.get, getElem?_insert_eq]

/-- Capturing the tip snapshot of the next record keeps the table exact. -/
theorem HoldsTips.captureTip {table : HistoricalSnapshots} (h : HoldsTips table log)
    (accepted : Accepted (log ++ [e]) r') : HoldsTips (captureTip table r' e) (log ++ [e]) := by
  intro id snapshot
  have absent : ∀ snapshot, ¬TipAt log e.recordId snapshot := by
    intro snapshot tip
    have nodup := accepted.nodup
    rw [map_append, nodup_append] at nodup
    exact nodup.2.2 _ tip.mem _ (by simp) rfl
  rw [captureTip_get, captureTip_required, TipAt.snoc_iff accepted]
  by_cases hid : id = e.recordId
  · subst hid
    have missing : table.get e.recordId = none := by
      rw [Option.eq_none_iff_forall_ne_some]
      exact fun snapshot hget => absent snapshot ((h _ _).mp hget).2
    simp [missing, absent]
  · simp [hid, h id snapshot, Ne.symm hid]

/-- Every replay of the log with a table that asks for its fork points ends in the reducer of the
log, and its table holds exactly the tip snapshots of the required records. -/
def Reproduces (log : List RecordEnvelope) : Prop :=
  ∀ r required, Accepted log r → (∀ id ∈ forkPoints log, id ∈ required) →
    ∃ table, replayCapturing log new { required, captured := ∅ } = .ok (r, table) ∧
      table.required = required ∧ HoldsTips table log

theorem tipAt_of_reproduces (prefixes : ∀ l, l <+: log → Reproduces l) (h : Accepted log r)
    {source : BranchId} {origin : RecordId} {snapshot : BranchSnapshot}
    (found : replayBranchSnapshot r source origin = .ok (some snapshot)) :
    TipAt log origin snapshot := by
  rw [replayBranchSnapshot, h.records_eq, forPrefix] at found
  cases hidx : log.findIdx? (·.recordId == origin) with
  | none => simp [hidx] at found
  | some i =>
    simp only [hidx, Option.map_some] at found
    -- The table of the lookup asks for the fork point and for those of the replayed prefix.
    generalize hrequired : ((∅ : BTreeSet RecordId).insert origin).insertMany
      ((log.take (i + 1)).filterMap (forkPoint? ·.record)) = required at found
    have covers : ∀ id ∈ forkPoints (log.take (i + 1)), id ∈ required := by
      intro id hid
      rw [← hrequired, BTreeSet.mem_insertMany_iff]
      exact .inr hid
    obtain ⟨q, hq, -⟩ : ∃ q, Accepted (log.take (i + 1)) q ∧ _ :=
      Accepted.append_iff.mp ((take_append_drop (i + 1) log).symm ▸ h)
    obtain ⟨table, hreplay, -, tips⟩ :=
      prefixes _ (List.take_prefix (i + 1) log) q required hq covers
    rw [hreplay] at found
    have hget : table.get origin = some snapshot := by
      simp only [Except.ok.injEq, Option.filter_eq_some_iff] at found
      exact found.1
    have tip := ((tips origin snapshot).mp hget).2
    have := tip.append (log.drop (i + 1))
    rwa [take_append_drop] at this

theorem reproduces (log : List RecordEnvelope) : Reproduces log := by
  induction hn : log.length using Nat.strongRecOn generalizing log with
  | ind n ih =>
    intro r required accepted covers
    cases log using reverseRecOn with
    | nil =>
      obtain rfl := Run.nil_iff.mp accepted
      refine ⟨_, rfl, rfl, fun id snapshot => ?_⟩
      constructor
      · intro hget
        simp [HistoricalSnapshots.get] at hget
      · rintro ⟨-, tip⟩
        exact absurd tip.mem (by simp)
    | append_singleton log e =>
      have shorter : ∀ l, l <+: log → Reproduces l := by
        intro l hl
        have := hl.length_le
        exact ih l.length (by simp at hn; omega) l rfl
      obtain ⟨r, q, before, step, rfl⟩ := Accepted.snoc_iff.mp accepted
      have covers' : ∀ id ∈ forkPoints log, id ∈ required := by
        intro id hid
        refine covers id ?_
        rw [forkPoints, filterMap_append]
        exact mem_append_left _ hid
      obtain ⟨table, hreplay, hrequired, tips⟩ :=
        shorter log (prefix_refl log) r required before covers'
      -- The branch creations of `e` read from the table what a replay would have found.
      have nested : Step (forkSnapshot (fun _ _ _ => .ok none) (some table) r) r e q := by
        refine step.congr_fork fun source b origin snapshot record found => ?_
        have tip := tipAt_of_reproduces shorter before found
        have asked : origin ∈ table.required := by
          rw [hrequired]
          exact covers origin (by simp [forkPoints, record, forkPoint?])
        exact congrArg Except.ok ((tips origin snapshot).mpr ⟨asked, tip⟩)
      have last := applyInnerWithHistory_of_step nested
      have tips' : HoldsTips (captureTip table (q.push e) e) (log ++ [e]) :=
        tips.captureTip accepted
      refine ⟨_, replayCapturing_snoc hreplay last, ?_, tips'⟩
      rw [captureTip_required, hrequired]

namespace Accepted

/-- A branch starts from the tip snapshot of its fork point. -/
theorem tipAt_of_replayBranchSnapshot (h : Accepted log r) {source : BranchId} {origin : RecordId}
    {snapshot : BranchSnapshot}
    (found : replayBranchSnapshot r source origin = .ok (some snapshot)) :
    TipAt log origin snapshot :=
  tipAt_of_reproduces (fun l _ => reproduces l) h found

theorem active_head (h : Accepted log r) (hs : r.state = some s) {b : BranchId}
    (active : s.activeBranchId = some b) :
    ∃ head, r.branchHeads[b]? = some head ∧ head.projection = BranchProjection.capture s := by
  induction h using induct generalizing s b with
  | nil => cases hs
  | snoc before step _ ih =>
    cases step with
    | created _ _ _ record =>
      cases hs
      exact ⟨_, createdHeads_root active, rfl⟩
    | unbranched follows scope inactive step =>
      cases hs
      have := step.activeBranchId_eq.symm.trans active
      rw [inactive] at this
      cases this
    | @onBranch _ _ t b' _ _ follows scope active' step lookup listed =>
      cases hs
      obtain rfl : b' = b :=
        Option.some.inj (active'.symm.trans (step.activeBranchId_eq.symm.trans active))
      exact ⟨_, withHead_lookup .., rfl⟩
    | @forked _ _ b' _ _ _ follows record fresh lookup reached found safe =>
      cases hs
      obtain ⟨head, lookup, projection⟩ := ih follows.state active
      have hne : b ≠ b' := by
        rintro rfl
        exact fresh (mem_of_getElem? lookup)
      exact ⟨head, (getElem?_insert_of_ne hne).trans lookup, projection⟩
    | switched follows record lookup listed =>
      cases hs
      cases active
      exact ⟨_, withHead_lookup .., rfl⟩

end Accepted

/-! ### Summaries and heads -/

/-- The summary of a branch names a leaf in the history of its head. -/
def Leaves (summary : BranchSummary) (head : BranchSnapshot) : Prop :=
  summary.leafRecordId ∈ head.history

variable {head : BranchSnapshot} {b : BranchId}

theorem rel_insert {summaries : BTreeMap BranchId BranchSummary}
    {heads : BTreeMap BranchId BranchSnapshot} {summary : BranchSummary}
    (h : ∀ b : BranchId, Option.Rel Leaves summaries[b]? heads[b]?) (leaf : Leaves summary head)
    (a b : BranchId) :
    Option.Rel Leaves (summaries.insert a summary)[b]? (heads.insert a head)[b]? := by
  rw [getElem?_insert_eq, getElem?_insert_eq]
  split_ifs
  · exact .some leaf
  · exact h b

/-- The summaries and the heads of the branches have the same keys, and every leaf is in the history
of its branch. -/
theorem Accepted.branches_rel (h : Accepted log r) (hs : r.state = some s) (b : BranchId) :
    Option.Rel Leaves s.branches[b]? r.branchHeads[b]? := by
  have self (history : BTreeSet RecordId) (id : RecordId) : id ∈ history.insert id :=
    BTreeSet.mem_insert_iff.mpr (.inl rfl)
  induction h using Accepted.induct generalizing s b with
  | nil => cases hs
  | @snoc log r q e before step _ ih =>
    cases step with
    | created empty =>
      cases hs
      obtain rfl := before.eq_nil_of_state empty
      obtain rfl := Run.nil_iff.mp before
      have none : ∀ b : BranchId, Option.Rel Leaves (∅ : BTreeMap BranchId BranchSummary)[b]?
          new.branchHeads[b]? := fun b => by simp [new]
      change Option.Rel Leaves (createdState e _ _).branches[b]? (createdHeads _ e _)[b]?
      simp only [createdState, newState, createdHeads]
      cases e.branchId with
      | none => exact none b
      | some root => exact rel_insert none (self _ _) root b
    | unbranched follows _ _ step =>
      cases hs
      have rel := ih follows.state b
      rw [← step.branches_eq, ← step.branchHeads_eq] at rel
      exact rel
    | onBranch follows _ _ step =>
      cases hs
      have rel := ih follows.state
      rw [← step.branches_eq, ← step.branchHeads_eq] at rel
      exact rel_insert rel (self _ _) _ b
    | forked follows | switched follows =>
      cases hs
      exact rel_insert (ih follows.state) (self _ _) _ b

theorem Accepted.active_listed (h : Accepted log r) (hs : r.state = some s)
    (active : s.activeBranchId = some b) : b ∈ s.branches := by
  obtain ⟨head, lookup, -⟩ := h.active_head hs active
  have rel := h.branches_rel hs b
  rw [lookup] at rel
  rw [Std.ExtTreeMap.mem_iff_isSome_getElem?]
  cases found : s.branches[b]? with
  | none =>
    rw [found] at rel
    cases rel
  | some => rfl

/-! ### Branches before their first activation -/

/-- The branch has the given head and is not the active one. -/
structure Dormant (r : SessionReducer) (b : BranchId) (head : BranchSnapshot) : Prop where
  started : r.state ≠ none
  lookup : r.branchHeads[b]? = some head
  inactive : ∀ s, r.state = some s → s.activeBranchId ≠ some b

/-- The head of a branch does not change while the branch is not active. -/
theorem Dormant.step (h : Dormant r b head)
    {fork : BranchId → RecordId → Except SessionReplayError (Option BranchSnapshot)}
    (hstep : Step fork r e r') (other : e.record ≠ .activeBranchChanged b) :
    Dormant r' b head := by
  cases hstep with
  | created empty => exact absurd empty h.started
  | unbranched follows scope active step =>
    refine ⟨by simp [sealed], ?_, ?_⟩
    · exact (congrArg (·[b]?) step.branchHeads_eq).trans h.lookup
    · rintro _ ⟨⟩ hactive
      rw [step.activeBranchId_eq, active] at hactive
      cases hactive
  | @onBranch s q t b' _ _ follows scope active step lookup listed =>
    have hne : b ≠ b' := by
      rintro rfl
      exact h.inactive s follows.state active
    refine ⟨by simp [sealed], ?_, ?_⟩
    · refine (getElem?_insert_of_ne hne).trans ?_
      exact (congrArg (·[b]?) step.branchHeads_eq).trans h.lookup
    · rintro _ ⟨⟩ hactive
      exact h.inactive s follows.state (step.activeBranchId_eq.symm.trans hactive)
  | @forked s source b' _ _ _ follows record fresh lookup reached found safe =>
    have hne : b ≠ b' := by
      rintro rfl
      exact fresh (mem_of_getElem? h.lookup)
    refine ⟨by simp [sealed], (getElem?_insert_of_ne hne).trans h.lookup, ?_⟩
    rintro _ ⟨⟩ hactive
    exact h.inactive s follows.state hactive
  | @switched s b' _ _ follows record lookup listed =>
    have hne : b ≠ b' := by
      rintro rfl
      exact other record
    refine ⟨by simp [sealed], (getElem?_insert_of_ne hne).trans h.lookup, ?_⟩
    rintro _ ⟨⟩ hactive
    exact hne (Option.some.inj hactive).symm

theorem Dormant.run (h : Dormant r b head)
    (hrun : Run (fun r e r' => apply e r = .ok () r') r log r')
    (other : ∀ x ∈ log, x.record ≠ .activeBranchChanged b) : Dormant r' b head := by
  induction hrun with
  | nil => exact h
  | snoc _ step ih =>
    obtain ⟨q, hstep, rfl⟩ := apply_eq_ok.mp step
    have dormant := ih fun x hx => other x (mem_append_left _ hx)
    have next := dormant.step hstep (other _ (by simp))
    exact ⟨next.started, next.lookup, next.inactive⟩

theorem Accepted.dormant_of_created (h : Accepted (log ++ [e]) r) {source : BranchId}
    {origin : RecordId} (creates : e.record = .branchCreated source b origin) :
    ∃ snapshot, TipAt log origin snapshot ∧ Dormant r b (snapshot.extend e.recordId) := by
  obtain ⟨r₀, q, before, step, rfl⟩ := Accepted.snoc_iff.mp h
  cases step with
  | created _ _ _ record | switched _ record => cases creates.symm.trans record
  | unbranched _ _ _ step | onBranch _ _ _ step =>
    have := step.isBranchRecord_eq_false
    simp [creates, isBranchRecord] at this
  | @forked s _ _ _ head snapshot follows record fresh lookup reached found safe =>
    cases creates.symm.trans record
    refine ⟨snapshot, before.tipAt_of_replayBranchSnapshot found, by simp [push, sealed],
      withHead_lookup .., ?_⟩
    rintro _ ⟨⟩ active
    obtain ⟨_, present, -⟩ := before.active_head follows.state active
    exact fresh (mem_of_getElem? present)

/-- Activating a branch installs the projection of its head. -/
theorem Accepted.projection_of_activated (h : Accepted (log ++ [e]) r)
    (activates : e.record = .activeBranchChanged b) {r₀ : SessionReducer}
    (before : Accepted log r₀) (lookup : r₀.branchHeads[b]? = some head) :
    ∃ s, r.state = some s ∧ s.activeBranchId = some b ∧
      BranchProjection.capture s = head.projection := by
  obtain ⟨r₁, q, before', step, rfl⟩ := Accepted.snoc_iff.mp h
  obtain rfl := before.eq before'
  cases step with
  | created _ _ _ record | forked _ record => cases activates.symm.trans record
  | unbranched _ _ _ step | onBranch _ _ _ step =>
    have := step.isBranchRecord_eq_false
    simp [activates, isBranchRecord] at this
  | switched _ record lookup' _ =>
    cases activates.symm.trans record
    cases lookup.symm.trans lookup'
    exact ⟨_, rfl, rfl, rfl⟩

end SessionReducer

end TeaRs
