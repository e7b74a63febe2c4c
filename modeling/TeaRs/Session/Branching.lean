import TeaRs.Session.Lineage

/-!
# Forking a branch and leaving the others alone

When a branch may be created, and what the records of one branch do to the others. A branch creation
looks up the projection of its fork point by replaying the log up to that record. The replay only
answers for the branch that owned the record then, so a branch cannot be forked at a record that it
inherited from its source, although that record is in its history.

## Main definitions

* `BranchProjection.Settled`: a projection that may be forked.
* `SessionReducer.ForkRequest`: a branch creation that is well formed apart from its fork point.
* `SessionReducer.LastActive log b s`: the state in which the branch `b` was last active.

## Main results

* `SessionReducer.Accepted.replayBranchSnapshot_eq`: the lookup finds the tip snapshot of a record
  for the branch that owns it, and nothing for every other branch.
* `SessionReducer.fork_exact_iff`: when a branch creation is accepted exactly as its fork point
  says.
* `SessionReducer.branch_isolated`: the records of other branches leave a branch alone.
-/

namespace TeaRs

open StateError

/-- No approval is pending, and every tool call the transcript declares has finished and has its
result message. -/
def BranchProjection.Settled (projection : BranchProjection) : Prop :=
  projection.pendingApprovals = ∅ ∧
    ∀ m ∈ projection.messages, ∀ call ∈ m.declaredToolCalls, ∃ tool,
      projection.toolCalls[call.1]? = some tool ∧ tool.execution.isFinished = true ∧
        tool.resultMessageId.isSome = true

namespace SessionReducer

variable {r r' : SessionReducer} {s : MaterializedSessionState} {e : RecordEnvelope}
variable {log : List RecordEnvelope} {head snapshot : BranchSnapshot} {b : BranchId}

/-! ### Safe fork points -/

theorem mem_transcriptToolCalls {messages : List CanonicalMessage} {t : ToolCallId} :
    t ∈ transcriptToolCalls messages ↔
      ∃ m ∈ messages, ∃ call ∈ m.declaredToolCalls, call.1 = t := by
  simp only [transcriptToolCalls, BTreeSet.mem_insertMany_iff, List.mem_map, List.mem_flatMap]
  constructor
  · rintro (h | ⟨call, ⟨m, hm, hcall⟩, rfl⟩)
    · simp at h
    · exact ⟨m, hm, call, hcall, rfl⟩
  · rintro ⟨m, hm, call, hcall, rfl⟩
    exact .inr ⟨call, ⟨m, hm, hcall⟩, rfl⟩

theorem safeToFork_iff (declared : head.declaredToolCalls =
    transcriptToolCalls head.projection.messages) :
    head.safeToFork = true ↔ head.projection.Settled := by
  rw [BranchSnapshot.safeToFork, Bool.and_eq_true, List.all_eq_true, declared]
  refine and_congr (by simp) ?_
  simp only [Std.ExtTreeSet.mem_toList, mem_transcriptToolCalls]
  constructor
  · intro h m hm call hcall
    have settled := h call.1 ⟨m, hm, call, hcall, rfl⟩
    cases lookup : head.projection.toolCalls[call.1]? with
    | none => simp [lookup] at settled
    | some tool =>
      rw [lookup, Bool.and_eq_true] at settled
      exact ⟨tool, rfl, settled⟩
  · rintro h _ ⟨m, hm, call, hcall, rfl⟩
    obtain ⟨tool, lookup, settled⟩ := h m hm call hcall
    rw [lookup, Bool.and_eq_true]
    exact settled

/-! ### The owner of a record -/

namespace Accepted

theorem exists_tipSnapshot (h : Accepted (log ++ [e]) r) :
    (∃ snapshot, tipSnapshot r e = some snapshot) ∨
      ∃ s, r.state = some s ∧ s.activeBranchId = none := by
  obtain ⟨r₀, q, before, step, rfl⟩ := snoc_iff.mp h
  cases step with
  | created empty fresh first record =>
    cases root : e.branchId with
    | none => exact .inr ⟨_, rfl, root⟩
    | some b =>
      refine .inl ⟨_, tipSnapshot_of_branch (b := b) ?_ (createdHeads_root root)⟩
      exact (tipBranch_created (r := r₀) record).trans root
  | unbranched follows scope active step =>
    exact .inr ⟨_, rfl, step.activeBranchId_eq.trans active⟩
  | onBranch follows scope active step lookup listed =>
    exact .inl ⟨_, tipSnapshot_onBranch step.isBranchRecord_eq_false
      (step.activeBranchId_eq.trans active)⟩
  | forked follows record => exact .inl ⟨_, tipSnapshot_withHead (.inl ⟨_, _, record⟩)⟩
  | switched follows record => exact .inl ⟨_, tipSnapshot_withHead (.inr record)⟩

theorem unbranched_run (h : Accepted log r) (hs : r.state = some s)
    (active : s.activeBranchId = none) {records : List RecordEnvelope}
    (run : Run (fun r e r' => apply e r = .ok () r') r records r') :
    ∃ s', r'.state = some s' ∧ s'.activeBranchId = none := by
  induction run with
  | nil => exact ⟨s, hs, active⟩
  | snoc run step ih =>
    obtain ⟨s', hs', active'⟩ := ih
    have accepted := append_iff.mpr ⟨_, h, run⟩
    obtain ⟨q, inner, rfl⟩ := apply_eq_ok.mp step
    cases inner with
    | created empty => cases hs'.symm.trans empty
    | unbranched follows scope inactive record =>
      exact ⟨_, rfl, record.activeBranchId_eq.trans inactive⟩
    | onBranch follows _ active'' =>
      cases hs'.symm.trans follows.state
      cases active'.symm.trans active''
    | forked follows _ _ lookup | switched follows _ lookup =>
      cases (accepted.head_eq_none hs' active' _).symm.trans lookup

theorem exists_ownedBy (h : Accepted log r) (lookup : r.branchHeads[b]? = some head)
    {origin : RecordId} (reached : origin ∈ head.history) :
    ∃ owner snapshot, OwnedBy log origin owner snapshot := by
  have known := (h.headInvariant.1 b head lookup).known origin reached
  obtain ⟨f, hf, rfl⟩ := List.mem_map.mp known
  obtain ⟨before, after, rfl⟩ := List.append_of_mem hf
  obtain ⟨r₁, accepted, run⟩ : ∃ r₁, Accepted (before ++ [f]) r₁ ∧
      Run (fun r e r' => apply e r = .ok () r') r₁ after r := by
    rw [← append_iff]
    simpa using h
  rcases accepted.exists_tipSnapshot with ⟨snapshot, tip⟩ | ⟨s, hs, active⟩
  · obtain ⟨owner, owned⟩ :=
      TipAt.exists_ownedBy ⟨before, f, after, r₁, rfl, rfl, accepted, tip⟩
    exact ⟨owner, snapshot, owned⟩
  · obtain ⟨s', hs', active'⟩ := accepted.unbranched_run hs active run
    cases (h.head_eq_none hs' active' b).symm.trans lookup

/-- The lookup of a record finds its tip snapshot for the branch that owns the record, and nothing
for every other branch. -/
theorem replayBranchSnapshot_eq (h : Accepted log r) {origin : RecordId} {owner : BranchId}
    (owned : OwnedBy log origin owner head) (source : BranchId) :
    replayBranchSnapshot r source origin = .ok (if owner = source then some head else none) := by
  obtain ⟨before, f, after, r₁, rfl, rfl, accepted, lookup, owns⟩ := owned
  have absent : ∀ x ∈ before, ¬(x.recordId == f.recordId) = true := by
    intro x hx heq
    exact accepted.fresh_of_snoc (beq_iff_eq.mp heq ▸ List.mem_map_of_mem hx)
  have position : (before ++ f :: after).findIdx? (·.recordId == f.recordId) =
      some before.length := by
    rw [List.findIdx?_append, List.findIdx?_eq_none_iff.mpr (by simpa using absent)]
    simp [List.findIdx?_cons]
  have replayed : (before ++ f :: after).take (before.length + 1) = before ++ [f] := by
    rw [List.append_cons]
    exact List.take_left' (by simp)
  rw [replayBranchSnapshot, h.records_eq, HistoricalSnapshots.forPrefix, position]
  simp only [Option.map_some, replayed]
  generalize hrequired : ((∅ : BTreeSet RecordId).insert f.recordId).insertMany
    ((before ++ [f]).filterMap (HistoricalSnapshots.forkPoint? ·.record)) = required
  have covers : ∀ id ∈ forkPoints (before ++ [f]), id ∈ required := by
    intro id hid
    rw [← hrequired, BTreeSet.mem_insertMany_iff]
    exact .inr hid
  have asked : f.recordId ∈ required := by
    rw [← hrequired, BTreeSet.mem_insertMany_iff, BTreeSet.mem_insert_iff]
    exact .inl (.inl rfl)
  obtain ⟨table, hreplay, htable, tips⟩ := reproduces _ r₁ required accepted covers
  have tip : tipSnapshot r₁ f = some head := by
    refine tipSnapshot_of_branch ?_ lookup
    exact (accepted.mem_history_iff lookup).mp ((owns owner head lookup).mpr rfl)
  have found : table.get f.recordId = some head :=
    (tips _ _).mpr ⟨htable ▸ asked, before, f, [], r₁, rfl, rfl, accepted, tip⟩
  have reached : head.history.contains f.recordId = true :=
    Std.ExtTreeSet.contains_iff_mem.mpr ((owns owner head lookup).mpr rfl)
  simp only [hreplay, found, Option.filter_some, reached, Bool.and_true]
  by_cases hsource : owner = source
  · subst hsource
    simp [lookup, reached]
  · cases hother : r₁.branchHeads[source]? with
    | none => simp [hsource]
    | some other =>
      have : f.recordId ∉ other.history := fun hmem =>
        hsource ((owns source other hother).mp hmem).symm
      simp [hsource, this]

end Accepted

/-! ### When a branch creation is accepted -/

/-- A branch creation with the next sequence number, the right session, a fresh record identity, an
unused branch identity, an existing source branch and a fork point in the history of that branch. -/
structure ForkRequest (r : SessionReducer) (e : RecordEnvelope) (source : BranchId)
    (origin : RecordId) : Prop where
  follows : ∃ s, Follows r s e
  record : ∃ b, e.record = .branchCreated source b origin ∧ b ∉ r.branchHeads
  reached : ∃ head, r.branchHeads[source]? = some head ∧ origin ∈ head.history

/-- A well-formed branch creation is accepted when its source owns the fork point and the projection
there is settled. -/
theorem ForkRequest.accepted_iff {source owner : BranchId} {origin : RecordId}
    (request : ForkRequest r e source origin) (accepted : Accepted log r)
    (owned : OwnedBy log origin owner snapshot) :
    (∃ r', apply e r = .ok () r') ↔ owner = source ∧ snapshot.projection.Settled := by
  obtain ⟨⟨s, follows⟩, ⟨b, record, unused⟩, head, lookup, reached⟩ := request
  have found := accepted.replayBranchSnapshot_eq owned source
  have safe : snapshot.safeToFork = true ↔ snapshot.projection.Settled := by
    obtain ⟨before, f, after, r₁, -, -, accepted₁, lookup₁, -⟩ := owned
    exact safeToFork_iff (accepted₁.headInvariant.1 owner snapshot lookup₁).declared
  constructor
  · rintro ⟨r', h⟩
    obtain ⟨q, step, rfl⟩ := apply_eq_ok.mp h
    cases step with
    | created empty => cases follows.state.symm.trans empty
    | unbranched _ _ _ step | onBranch _ _ _ step =>
      have := step.isBranchRecord_eq_false
      simp [record, isBranchRecord] at this
    | forked _ record' _ _ _ found' safe' =>
      cases record.symm.trans record'
      rw [found] at found'
      split_ifs at found' with hsource
      · cases found'
        exact ⟨hsource, safe.mp safe'⟩
      · cases found'
    | switched _ record' => cases record.symm.trans record'
  · rintro ⟨rfl, settled⟩
    rw [if_pos rfl] at found
    exact ⟨_, apply_eq_ok.mpr ⟨_, .forked follows record unused lookup reached found
      (safe.mpr settled), rfl⟩⟩

/-- A well-formed branch creation is accepted exactly when the projection of its fork point is
settled, if and only if its source owns the fork point or the fork point is not settled. -/
theorem fork_exact_iff {source : BranchId} {origin : RecordId} (accepted : Accepted log r)
    (request : ForkRequest r e source origin) :
    ∃ owner snapshot, OwnedBy log origin owner snapshot ∧
      (((∃ r', apply e r = .ok () r') ↔ snapshot.projection.Settled) ↔
        owner = source ∨ ¬snapshot.projection.Settled) := by
  obtain ⟨head, lookup, reached⟩ := request.reached
  obtain ⟨owner, snapshot, owned⟩ := accepted.exists_ownedBy lookup reached
  refine ⟨owner, snapshot, owned, ?_⟩
  rw [request.accepted_iff accepted owned]
  tauto

/-- A session with a second branch that was forked at the creation record. -/
def inheritedLog : List RecordEnvelope :=
  [numberedCreation, forkedAtCreation 1]

/-- The creation of a third branch at the creation record, from the branch given. -/
def forkAtCreation (source : BranchId) : RecordEnvelope :=
  numbered 2 (some ⟨2⟩) (.branchCreated source ⟨2⟩ ⟨0⟩) rfl

theorem accepted_inheritedLog : Accepted inheritedLog (reducerOf inheritedLog) :=
  accepted_reducerOf (by decide +kernel)

theorem forkRequest_forkAtCreation {source : BranchId} (hsource : source = ⟨0⟩ ∨ source = ⟨1⟩) :
    ForkRequest (reducerOf inheritedLog) (forkAtCreation source) source ⟨0⟩ := by
  have state : (reducerOf inheritedLog).state.any (fun s => decide (s.sessionId = ⟨0⟩ ∧
      checkedNext s.tailSequence = some 2)) = true := by decide +kernel
  have heads : ∀ b ∈ [⟨0⟩, (⟨1⟩ : BranchId)], (reducerOf inheritedLog).branchHeads[b]?.any
      (fun head => head.history.contains ⟨0⟩) = true := by decide +kernel
  obtain ⟨s, hs, tail⟩ := (Option.any_eq_true _ _).mp state
  obtain ⟨head, lookup, reached⟩ :=
    (Option.any_eq_true _ _).mp (heads source (by simpa using hsource))
  obtain ⟨session, next⟩ := of_decide_eq_true tail
  have fresh : (reducerOf inheritedLog).recordIds.contains ⟨2⟩ = false := by decide +kernel
  refine ⟨⟨s, hs, ?_, session.symm, next⟩, ⟨⟨2⟩, rfl, ?_⟩, head, lookup, ?_⟩
  · exact BTreeSet.contains_eq_false_iff.mp fresh
  · exact BTreeMap.contains_eq_false_iff.mp (by decide +kernel)
  · exact Std.ExtTreeSet.contains_iff_mem.mp reached

/-- The branch that owns the creation record can be forked there. -/
theorem fork_exact_iff_root : ∃ owner snapshot, OwnedBy inheritedLog ⟨0⟩ owner snapshot ∧
    (((∃ r', apply (forkAtCreation ⟨0⟩) (reducerOf inheritedLog) = .ok () r') ↔
      snapshot.projection.Settled) ↔ owner = ⟨0⟩ ∨ ¬snapshot.projection.Settled) :=
  fork_exact_iff accepted_inheritedLog (forkRequest_forkAtCreation (.inl rfl))

/-- The second branch has the settled creation record in its history, but cannot be forked there. -/
theorem fork_inherited_refused : ForkRequest (reducerOf inheritedLog) (forkAtCreation ⟨1⟩) ⟨1⟩ ⟨0⟩ ∧
      (∃ owner snapshot, OwnedBy inheritedLog ⟨0⟩ owner snapshot ∧ snapshot.projection.Settled) ∧
      ¬∃ r', apply (forkAtCreation ⟨1⟩) (reducerOf inheritedLog) = .ok () r' := by
  refine ⟨forkRequest_forkAtCreation (.inr rfl), ?_, ?_⟩
  · have root : tipSnapshot (reducerOf [numberedCreation]) numberedCreation = some (rootSnapshot
        (createdState numberedCreation ⟨"default"⟩ ∅) ⟨0⟩) := by decide +kernel
    have tip : TipAt inheritedLog ⟨0⟩ (rootSnapshot
        (createdState numberedCreation ⟨"default"⟩ ∅) ⟨0⟩) :=
      ⟨[], numberedCreation, _, _, rfl, rfl, accepted_reducerOf (by decide +kernel), root⟩
    obtain ⟨owner, owned⟩ := tip.exists_ownedBy
    refine ⟨owner, _, owned, rfl, ?_⟩
    intro m hm
    cases hm
  · rintro ⟨r', h⟩
    have refused : (resultError? (apply (forkAtCreation ⟨1⟩) (reducerOf inheritedLog))).isSome =
        true := by decide +kernel
    rw [h] at refused
    cases refused

/-! ### Branches do not touch each other -/

/-- The branch was last active in the state `s`: it was active after a part of the log that led to
`s`, and after no longer part. -/
def LastActive (log : List RecordEnvelope) (b : BranchId) (s : MaterializedSessionState) : Prop :=
  ∃ before after r, log = before ++ after ∧ Accepted before r ∧ r.state = some s ∧
    s.activeBranchId = some b ∧
    ∀ part, part ≠ [] → part <+: after → ∀ r' s', Accepted (before ++ part) r' →
      r'.state = some s' → s'.activeBranchId ≠ some b

theorem dormant_of_left (accepted : Accepted log r) (hs : r.state = some s)
    (active : s.activeBranchId = some b) (step : apply e r = .ok () r')
    (left : ∀ s', r'.state = some s' → s'.activeBranchId ≠ some b) :
    ∃ head, head.projection = BranchProjection.capture s ∧ Dormant r' b head := by
  obtain ⟨head, lookup, projection⟩ := accepted.active_head hs active
  refine ⟨head, projection, ?_⟩
  obtain ⟨q, inner, rfl⟩ := apply_eq_ok.mp step
  cases inner with
  | created empty => cases hs.symm.trans empty
  | unbranched follows _ inactive =>
    cases hs.symm.trans follows.state
    cases active.symm.trans inactive
  | onBranch follows _ active' record =>
    cases hs.symm.trans follows.state
    exact (left _ rfl (record.activeBranchId_eq.trans active)).elim
  | forked follows =>
    cases hs.symm.trans follows.state
    exact (left _ rfl active).elim
  | @switched _ b' _ _ follows =>
    have hne : b ≠ b' := fun heq => left _ rfl (by rw [heq])
    refine ⟨by simp [push, sealed], (BTreeMap.getElem?_insert_of_ne hne).trans lookup, ?_⟩
    rintro _ ⟨⟩ hactive
    exact hne (Option.some.inj hactive).symm

/-- A branch that is not active has the projection it was last active with. -/
theorem LastActive.dormant (last : LastActive log b s) (accepted : Accepted log r)
    (inactive : ∀ s', r.state = some s' → s'.activeBranchId ≠ some b) :
    ∃ head, head.projection = BranchProjection.capture s ∧ Dormant r b head := by
  obtain ⟨before, after, r₁, rfl, accepted₁, hs, active, never⟩ := last
  obtain ⟨r₁', accepted₁', run⟩ := Accepted.append_iff.mp accepted
  obtain rfl := accepted₁.eq accepted₁'
  cases after with
  | nil =>
    obtain rfl := Run.nil_iff.mp run
    exact absurd active (inactive s hs)
  | cons c rest =>
    obtain ⟨r₂, step, run⟩ := Run.cons_iff.mp run
    have accepted₂ : Accepted (before ++ [c]) r₂ := Run.snoc_iff.mpr ⟨r₁, accepted₁, step⟩
    have left := never [c] (by simp) ⟨rest, rfl⟩ r₂
    obtain ⟨head, projection, dormant⟩ :=
      dormant_of_left accepted₁ hs active step fun s' => left s' accepted₂
    refine ⟨head, projection, dormant.run run ?_⟩
    -- A record that activates the branch would end a longer part of the log with it active.
    intro x hx activates
    obtain ⟨front, back, rfl⟩ := List.append_of_mem hx
    obtain ⟨r₃, accepted₃, -⟩ : ∃ r₃, Accepted (before ++ c :: front ++ [x]) r₃ ∧
        Run (fun r e r' => apply e r = .ok () r') r₃ back r := by
      rw [← Accepted.append_iff]
      simpa using accepted
    obtain ⟨r₄, -, accepted₄, -, -⟩ := Accepted.snoc_iff.mp accepted₃
    obtain ⟨s₃, hs₃, active₃⟩ : ∃ s₃, r₃.state = some s₃ ∧ s₃.activeBranchId = some b := by
      obtain ⟨r₅, q, -, inner, rfl⟩ := Accepted.snoc_iff.mp accepted₃
      cases inner with
      | created _ _ _ record | forked _ record => cases activates.symm.trans record
      | unbranched _ _ _ record | onBranch _ _ _ record =>
        simpa [activates, isBranchRecord] using record.isBranchRecord_eq_false
      | switched _ record =>
        cases activates.symm.trans record
        exact ⟨_, rfl, rfl⟩
    exact never (c :: front ++ [x]) (by simp) ⟨back, by simp⟩ r₃ s₃ (by simpa using accepted₃)
      hs₃ active₃

/-- While another branch is active, accepted records leave the stored projection of a branch as it
is, and the next activation of the branch brings back the projection it was last active with. The
records may also activate further branches, only not the branch itself. -/
theorem branch_isolated {a b : BranchId} (accepted : Accepted log r) (distinct : a ≠ b)
    (hs : r.state = some s) (active : s.activeBranchId = some b)
    (lookup : r.branchHeads[a]? = some head) {records : List RecordEnvelope}
    (run : Run (fun r e r' => apply e r = .ok () r') r records r')
    (elsewhere : ∀ x ∈ records, x.record ≠ .activeBranchChanged a) :
    (∃ head', r'.branchHeads[a]? = some head' ∧ head'.projection = head.projection) ∧
      ∀ x r'', x.record = .activeBranchChanged a → apply x r' = .ok () r'' →
        ∀ s', LastActive (log ++ records) a s' → ∃ s'', r''.state = some s'' ∧
          s''.activeBranchId = some a ∧
            BranchProjection.capture s'' = BranchProjection.capture s' := by
  have inactive : ∀ s', r.state = some s' → s'.activeBranchId ≠ some a := by
    intro s' hs' hactive
    cases hs.symm.trans hs'
    exact distinct (Option.some.inj (hactive.symm.trans active))
  have dormant : Dormant r a head := ⟨by simp [hs], lookup, inactive⟩
  have after := dormant.run run elsewhere
  refine ⟨⟨head, after.lookup, rfl⟩, ?_⟩
  intro x r'' activates step s' last
  have accepted' := Accepted.append_iff.mpr ⟨r, accepted, run⟩
  obtain ⟨head', projection, dormant'⟩ := last.dormant accepted' after.inactive
  have accepted'' : Accepted (log ++ records ++ [x]) r'' := Run.snoc_iff.mpr ⟨r', accepted', step⟩
  obtain ⟨s'', hs'', active'', projection'⟩ :=
    accepted''.projection_of_activated activates accepted' dormant'.lookup
  exact ⟨s'', hs'', active'', projection'.trans projection⟩

/-- A message on the branch of `forkedLog`. -/
def forkedReply : RecordEnvelope :=
  numbered 5 (some ⟨1⟩) (.messageCommitted (.user ⟨2⟩ [.text "aside"] 5)) rfl

/-- The message on the second branch leaves the stored projection of the first as it is. -/
theorem branch_isolated_forkedLog : ∃ head head',
    (reducerOf forkedLog).branchHeads[(⟨0⟩ : BranchId)]? = some head ∧
      (reducerOf (forkedLog ++ [forkedReply])).branchHeads[(⟨0⟩ : BranchId)]? = some head' ∧
      head'.projection = head.projection := by
  have state : (reducerOf forkedLog).state.any (fun s => decide (s.activeBranchId = some ⟨1⟩)) =
      true := by decide +kernel
  have present : (reducerOf forkedLog).branchHeads[(⟨0⟩ : BranchId)]?.isSome = true := by
    decide +kernel
  obtain ⟨s, hs, active⟩ := (Option.any_eq_true _ _).mp state
  obtain ⟨head, lookup⟩ := Option.isSome_iff_exists.mp present
  have accepted : Accepted forkedLog (reducerOf forkedLog) := accepted_reducerOf (by decide +kernel)
  have longer : Accepted (forkedLog ++ [forkedReply]) (reducerOf (forkedLog ++ [forkedReply])) :=
    accepted_reducerOf (by decide +kernel)
  obtain ⟨_, accepted', run⟩ := Accepted.append_iff.mp longer
  obtain rfl := accepted.eq accepted'
  obtain ⟨⟨head', lookup', projection⟩, -⟩ := branch_isolated accepted (a := ⟨0⟩) (by decide) hs
    (of_decide_eq_true active) lookup run (by simp [forkedReply, numbered])
  exact ⟨head, head', lookup, lookup', projection⟩

end SessionReducer

end TeaRs
