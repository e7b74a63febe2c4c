import TeaRs.Lib.Lifecycle
import TeaRs.Session.Authorization

/-!
# A tool call runs at most once over all branches

Every branch carries its own state of a tool call, so a call is a task with one replica for each
branch. The records of a branch move its replica; creating a branch copies the replica that the
fork point had. The reducer refines the replicated lifecycle as long as a fork point has no call
that could still start or settle.

The check before a fork, `BranchSnapshot.safeToFork`, only looks at the calls that the visible
transcript declares. A compaction drops unfinished calls from the transcript, and a fork behind it
copies them to the new branch, where they run a second time.

## Main definitions

* `SessionReducer.view`: the projections of all branches, the one of a log without branches under
  the key `none`.
* `SessionReducer.replicas`: the replicas of a call in the branches of a reducer.
* `SessionReducer.ForksSettled`: no fork point of the log has the call in a live state.

## Main results

* `SessionReducer.Step.view_cases`: what an accepted record does to the projections.
* `SessionReducer.Accepted.replicas_reachable`: the reducer refines the replicated lifecycle.
* `SessionReducer.executed_at_most_once`: a call has at most one start and one terminal record.
* `SessionReducer.executed_twice`: an accepted log that starts a call on two branches.
-/

namespace TeaRs

open StateError BranchProjection Function

namespace SessionReducer

variable {r r' q : SessionReducer} {s t' : MaterializedSessionState} {e : RecordEnvelope}
variable {log : List RecordEnvelope} {t : ToolCallId}

/-! ### The projections of all branches -/

/-- The projection of every branch. A log without branches has one, under the key `none`. -/
def view (r : SessionReducer) : Option BranchId → Option BranchProjection
  | some b => r.branchHeads[b]?.map (·.projection)
  | none => (r.state.filter (·.activeBranchId.isNone)).map capture

variable {b : BranchId} {p : BranchProjection} {calls : BTreeMap ToolCallId ToolCallState}
  {u : ToolCallId} {tool tool' : ToolCallState} {k : Option BranchId} {origin : RecordId}
  {snapshot : BranchSnapshot} {x : Replicas (Option BranchId)}

theorem view_none_of_branch (hs : r.state = some s)
    (active : s.activeBranchId = some b) : r.view none = none := by
  simp [view, hs, active]

theorem view_none_of_unbranched (hs : r.state = some s) (active : s.activeBranchId = none) :
    r.view none = some (capture s) := by
  simp [view, hs, active]

/-- What an accepted record does to the projections of the branches. -/
inductive ViewStep (log : List RecordEnvelope) (r : SessionReducer) (e : RecordEnvelope)
    (q : SessionReducer) : Prop
  | created (record : isSessionCreated e.record = true) (first : log = [])
      (tables : SameTables r q) (empty : ∀ k p, q.view k = some p → p.toolCalls = ∅)
  | record {k : Option BranchId} {s t' : MaterializedSessionState} {q' : SessionReducer}
      (step : RecordStep r s e q' t') (tables : SameTables q' q)
      (source : r.view k = some (capture s))
      (views : q.view = update r.view k (some (capture t')))
  | forked {source b : BranchId} {origin : RecordId} {snapshot : BranchSnapshot}
      (record : e.record = .branchCreated source b origin) (tip : TipAt log origin snapshot)
      (tables : SameTables r q)
      (views : q.view = update r.view (some b) (some snapshot.projection))
  | switched {b : BranchId} (record : e.record = .activeBranchChanged b)
      (tables : SameTables r q) (views : q.view = r.view)

theorem view_withHead (head : BranchSnapshot)
    (heads : q.branchHeads = r.branchHeads.insert b head) (projection : head.projection = p)
    (single : q.view none = r.view none) : q.view = update r.view (some b) (some p) := by
  funext k
  cases k with
  | none => rw [single, update_of_ne (by simp)]
  | some l =>
    rw [view, heads, BTreeMap.getElem?_insert_eq]
    by_cases hl : l = b
    · subst hl
      simp [projection]
    · rw [if_neg hl, update_of_ne (by simpa using hl)]
      rfl

theorem sealed_view_none (q : SessionReducer) (s : MaterializedSessionState)
    (e : RecordEnvelope) : (q.sealed s e).view none =
      if s.activeBranchId = none then some (capture s) else none := by
  cases active : s.activeBranchId <;> simp [view, sealed, active, capture]

theorem Step.view_cases (before : Accepted log r)
    (h : Step (replayBranchSnapshot r) r e q) : ViewStep log r e q := by
  cases h with
  | @created profileId metadata empty _ _ record =>
    have first := before.eq_nil_of_state empty
    refine .created (by rw [record]; rfl) first ⟨rfl, rfl, rfl, rfl⟩ fun k p hp => ?_
    subst first
    obtain rfl := Run.nil_iff.mp before
    cases k with
    | none =>
      obtain ⟨s, hs, rfl⟩ := Option.map_eq_some_iff.mp hp
      obtain ⟨hs, -⟩ := Option.filter_eq_some_iff.mp hs
      cases hs
      rfl
    | some b =>
      obtain ⟨head, lookup, rfl⟩ := Option.map_eq_some_iff.mp hp
      simp only [afterCreation, createdHeads] at lookup
      split at lookup
      · simp [new] at lookup
      · rw [BTreeMap.getElem?_insert_eq] at lookup
        split_ifs at lookup
        · cases lookup
          rfl
        · simp [new] at lookup
  | @unbranched s q' t₁ follows scope active step =>
    have active' : t₁.activeBranchId = none := step.activeBranchId_eq.trans active
    refine .record step ⟨rfl, rfl, rfl, rfl⟩ (view_none_of_unbranched follows.state active) ?_
    funext k
    cases k with
    | none => rw [update_self, sealed_view_none, if_pos active']
    | some b =>
      rw [update_of_ne (by simp)]
      exact congrArg (fun heads => (heads[b]?).map BranchSnapshot.projection) step.branchHeads_eq
  | @onBranch s q' t₁ b head summary follows scope active step lookup listed =>
    have active' : t₁.activeBranchId = some b := step.activeBranchId_eq.trans active
    obtain ⟨_, lookup', projection⟩ := before.active_head follows.state active
    obtain rfl := Option.some.inj (lookup.symm.trans lookup')
    have source : r.view (some b) = some (capture s) := by
      rw [view, lookup, ← projection]
      rfl
    refine .record step ⟨rfl, rfl, rfl, rfl⟩ source ?_
    refine view_withHead (head.advance t₁ e.recordId) ?_ rfl ?_
    · rw [← step.branchHeads_eq]
      rfl
    · rw [view_none_of_branch follows.state active, sealed_view_none]
      simp [active']
  | @forked s source b origin head snapshot follows record fresh lookup reached found safe =>
    refine .forked record (before.tipAt_of_replayBranchSnapshot found) ⟨rfl, rfl, rfl, rfl⟩ ?_
    refine view_withHead (snapshot.extend e.recordId) rfl rfl ?_
    obtain ⟨b', active⟩ : ∃ b', s.activeBranchId = some b' := by
      rw [← Option.ne_none_iff_exists']
      intro active
      cases (before.head_eq_none follows.state active source).symm.trans lookup
    rw [view_none_of_branch follows.state active, sealed_view_none]
    simp [active]
  | @switched s b head summary follows record lookup listed =>
    refine .switched record ⟨rfl, rfl, rfl, rfl⟩ ?_
    obtain ⟨b', active⟩ : ∃ b', s.activeBranchId = some b' := by
      rw [← Option.ne_none_iff_exists']
      intro active
      cases (before.head_eq_none follows.state active b).symm.trans lookup
    have same : r.view (some b) = some head.projection := by
      rw [view, lookup]
      rfl
    rw [view_withHead (head.extend e.recordId) rfl (p := head.projection) rfl, ← same,
      update_eq_self]
    rw [view_none_of_branch follows.state active, sealed_view_none]
    simp

/-! ### The replicas of a call -/

/-- The phase of a tool call in one branch. -/
def phaseOf : Option ToolCallState → Phase
  | none => .absent
  | some tool =>
    match tool.execution with
    | .notStarted => .fresh
    | .started .. => .running
    | .finished .. | .interrupted .. => .settled

/-- The record starts the call. -/
def isStartOf (t : ToolCallId) : SessionRecord → Bool
  | .toolExecutionStarted u .. => u == t
  | _ => false

/-- The record is a terminal record of the call. -/
def isTerminalOf (t : ToolCallId) : SessionRecord → Bool
  | .toolExecutionFinished u .. | .toolExecutionInterrupted u _ => u == t
  | _ => false

/-- The number of start records of the call, over all branches. -/
def startCount (log : List RecordEnvelope) (t : ToolCallId) : Nat :=
  log.countP (isStartOf t ·.record)

/-- The number of terminal records of the call, over all branches. -/
def terminalCount (log : List RecordEnvelope) (t : ToolCallId) : Nat :=
  log.countP (isTerminalOf t ·.record)

/-- The replicas of a call in the branches of a reducer. -/
def replicas (log : List RecordEnvelope) (r : SessionReducer) (t : ToolCallId) :
    Replicas (Option BranchId) where
  phases k := phaseOf ((r.view k).bind (·.toolCalls[t]?))
  requested := r.requestedToolCallIds.contains t
  starts := startCount log t
  settles := terminalCount log t

theorem startCount_snoc (log : List RecordEnvelope) (e : RecordEnvelope) (t : ToolCallId) :
    startCount (log ++ [e]) t = startCount log t + if isStartOf t e.record then 1 else 0 := by
  simp [startCount, List.countP_append, List.countP_singleton]

theorem terminalCount_snoc (log : List RecordEnvelope) (e : RecordEnvelope) (t : ToolCallId) :
    terminalCount (log ++ [e]) t =
      terminalCount log t + if isTerminalOf t e.record then 1 else 0 := by
  simp [terminalCount, List.countP_append, List.countP_singleton]

/-- What a record of a branch does to one call of the branch. -/
inductive CallEffect (t : ToolCallId) (r : SessionReducer) (e : RecordEnvelope)
    (q : SessionReducer) : Phase → Phase → Prop
  | idle {p : Phase} (starts : isStartOf t e.record = false)
      (settles : isTerminalOf t e.record = false)
      (requested : q.requestedToolCallIds.contains t = r.requestedToolCallIds.contains t) :
      CallEffect t r e q p p
  | request {p : Phase} (starts : isStartOf t e.record = false)
      (settles : isTerminalOf t e.record = false)
      (new : r.requestedToolCallIds.contains t = false)
      (requested : q.requestedToolCallIds.contains t = true) : CallEffect t r e q p .fresh
  | start (starts : isStartOf t e.record = true) (settles : isTerminalOf t e.record = false)
      (requested : q.requestedToolCallIds.contains t = r.requestedToolCallIds.contains t) :
      CallEffect t r e q .fresh .running
  | settle {p : Phase} (live : p.isLive = true) (starts : isStartOf t e.record = false)
      (settles : isTerminalOf t e.record = true)
      (requested : q.requestedToolCallIds.contains t = r.requestedToolCallIds.contains t) :
      CallEffect t r e q p .settled

theorem phaseOf_insert : phaseOf (calls.insert u tool)[t]? =
      if t = u then phaseOf (some tool) else phaseOf calls[t]? := by
  rw [BTreeMap.getElem?_insert_eq]
  split <;> rfl

theorem CallEffect.idle_insert (lookup : calls[u]? = some tool)
    (same : tool'.execution = tool.execution) (starts : isStartOf t e.record = false)
    (settles : isTerminalOf t e.record = false)
    (requested : q.requestedToolCallIds.contains t = r.requestedToolCallIds.contains t) :
    CallEffect t r e q (phaseOf calls[t]?) (phaseOf (calls.insert u tool')[t]?) := by
  have phase : phaseOf (calls.insert u tool')[t]? = phaseOf calls[t]? := by
    rw [phaseOf_insert]
    split_ifs with h
    · rw [h, lookup, phaseOf, phaseOf, same]
    · rfl
  rw [phase]
  exact .idle starts settles requested

theorem CallEffect.of_ne {record : SessionRecord} (kind : e.record = record)
    (starts : u ≠ t → isStartOf t record = false) (settles : u ≠ t → isTerminalOf t record = false)
    (self : u = t → CallEffect t r e r (phaseOf calls[t]?) (phaseOf (some tool'))) :
    CallEffect t r e r (phaseOf calls[t]?) (phaseOf (calls.insert u tool')[t]?) := by
  rw [phaseOf_insert]
  split_ifs with h
  · exact self h.symm
  · exact .idle (kind ▸ starts (Ne.symm h)) (kind ▸ settles (Ne.symm h)) rfl

theorem RecordStep.callEffect (h : RecordStep r s e q t') (t : ToolCallId) :
    CallEffect t r e q (phaseOf s.toolCalls[t]?) (phaseOf t'.toolCalls[t]?) := by
  cases h with
  | message record | configuration record | runInterrupted record | runCancelled record
  | compacted record | checkpointed record =>
    exact .idle (by rw [record]; rfl) (by rw [record]; rfl) rfl
  | toolResult record fresh lookup | approvalRequested record fresh lookup
  | approvalResolved record found begun live lookup =>
    exact .idle_insert lookup rfl (by rw [record]; rfl) (by rw [record]; rfl) rfl
  | @requested u name arguments record visible declared fresh absent =>
    rw [MaterializedSessionState.withTool, phaseOf_insert]
    split_ifs with h
    · subst h
      refine .request (by rw [record]; rfl) (by rw [record]; rfl)
        (BTreeSet.contains_eq_false_iff.mpr fresh) ?_
      exact Std.ExtTreeSet.contains_iff_mem.mpr (BTreeSet.mem_insert_iff.mpr (.inl rfl))
    · refine .idle (by rw [record]; rfl) (by rw [record]; rfl) ?_
      rw [Bool.eq_iff_iff]
      simp only [Std.ExtTreeSet.contains_iff_mem, BTreeSet.mem_insert_iff, h, false_or]
  | tool kind step lookup =>
    cases step with
    | policy =>
      exact .idle_insert lookup rfl (by rw [kind]; rfl) (by rw [kind]; rfl) rfl
    | started authorized fresh =>
      refine .of_ne kind (by simp [isStartOf]) (fun _ => rfl) ?_
      rintro rfl
      rw [lookup, phaseOf, fresh]
      exact .start (by rw [kind]; simp [isStartOf]) (by rw [kind]; rfl) rfl
    | finished unsettled =>
      refine .of_ne kind (fun _ => rfl) (by simp [isTerminalOf]) ?_
      rintro rfl
      rw [lookup]
      refine .settle ?_ (by rw [kind]; rfl) (by rw [kind]; simp [isTerminalOf]) rfl
      rcases unsettled with started | denied
      · obtain ⟨_, _, hx⟩ := ToolExecutionState.isStarted_iff.mp started
        simp only [phaseOf, hx]
        rfl
      · simp only [ToolCallState.deniedWithoutExecution, Bool.and_eq_true] at denied
        simp only [phaseOf, ToolExecutionState.isNotStarted_iff.mp denied.1.1]
        rfl
    | interrupted started =>
      refine .of_ne kind (fun _ => rfl) (by simp [isTerminalOf]) ?_
      rintro rfl
      obtain ⟨target, idempotency, hx⟩ := ToolExecutionState.isStarted_iff.mp started
      rw [lookup]
      simp only [phaseOf, ToolCallState.interrupt, hx]
      exact .settle rfl (by rw [kind]; rfl) (by rw [kind]; simp [isTerminalOf]) rfl

/-! ### Requested calls -/

theorem RecordStep.requestedToolCallIds_iff (h : RecordStep r s e q t') :
    t ∈ q.requestedToolCallIds ↔ t ∈ r.requestedToolCallIds ∨
      ∃ name arguments, e.record = .toolCallRequested t name arguments := by
  cases h with
  | requested record =>
    rw [BTreeSet.mem_insert_iff, record]
    simp [or_comm, eq_comm]
  | tool kind step =>
    refine (or_iff_left ?_).symm
    rintro ⟨name, arguments, record⟩
    cases kind.symm.trans record
    cases step
  | _ => simp_all

theorem RecordStep.mem_toolCalls (h : RecordStep r s e q t') (hmem : t ∈ t'.toolCalls) :
    t ∈ s.toolCalls ∨ ∃ name arguments, e.record = .toolCallRequested t name arguments := by
  have old {u : ToolCallId} {tool tool' : ToolCallState} (lookup : s.toolCalls[u]? = some tool)
      (hmem : t ∈ s.toolCalls.insert u tool') : t ∈ s.toolCalls := by
    rcases BTreeMap.mem_insert_iff.mp hmem with rfl | hmem
    · exact BTreeMap.mem_of_getElem? lookup
    · exact hmem
  cases h with
  | toolResult record fresh lookup | tool kind step lookup
  | approvalRequested record fresh lookup | approvalResolved record found begun live lookup =>
    exact .inl (old lookup hmem)
  | requested record =>
    rcases BTreeMap.mem_insert_iff.mp hmem with rfl | hmem
    · exact .inr ⟨_, _, record⟩
    · exact .inl hmem
  | _ => exact .inl hmem

theorem Lineage.requests_of_mem {H : List RecordEnvelope}
    (h : Lineage H p) (hmem : t ∈ p.toolCalls) :
    ∃ name arguments, Requests H t name arguments := by
  induction h with
  | root => exact absurd hmem (by simp [capture, createdState, newState])
  | record accepted state lineage step ih =>
    rcases step.mem_toolCalls hmem with hmem | ⟨name, arguments, record⟩
    · obtain ⟨name, arguments, hr⟩ := ih hmem
      exact ⟨name, arguments, requests_snoc.mpr (.inl hr)⟩
    · exact ⟨name, arguments, requests_snoc.mpr (.inr record)⟩
  | branch lineage record ih =>
    obtain ⟨name, arguments, hr⟩ := ih hmem
    exact ⟨name, arguments, requests_snoc.mpr (.inl hr)⟩

theorem Accepted.mem_requestedToolCallIds_iff (h : Accepted log r) :
    t ∈ r.requestedToolCallIds ↔ ∃ name arguments, Requests log t name arguments := by
  induction h using induct with
  | nil => simp [new, Requests]
  | @snoc log r q e before step _ ih =>
    simp only [requests_snoc, exists_or, ← ih]
    rcases step.sameTables with ⟨s, p, t', -, step, tables⟩ | ⟨other, tables⟩
    · rw [push, tables.requestedToolCallIds]
      exact step.requestedToolCallIds_iff
    · rw [push, tables.requestedToolCallIds]
      refine (or_iff_left ?_).symm
      rintro ⟨name, arguments, record⟩
      rw [record] at other
      cases other

/-! ### The reducer refines the replicated lifecycle -/

/-- No fork point of the log has the call in a state in which it could still start or settle. -/
def ForksSettled (log : List RecordEnvelope) (t : ToolCallId) : Prop :=
  ∀ before c after, log = before ++ c :: after → ∀ source b origin,
    c.record = .branchCreated source b origin → ∀ snapshot, TipAt before origin snapshot →
      ∀ tool, snapshot.projection.toolCalls[t]? = some tool → tool.execution.isTerminal = true

theorem ForksSettled.of_snoc (h : ForksSettled (log ++ [e]) t) : ForksSettled log t := by
  rintro before c after rfl
  exact h before c (after ++ [e]) (by simp)

theorem phases_update (views : q.view = update r.view k (some p)) :
    (fun l => phaseOf ((q.view l).bind (·.toolCalls[t]?))) =
      update (fun l => phaseOf ((r.view l).bind (·.toolCalls[t]?))) k
        (phaseOf p.toolCalls[t]?) := by
  funext l
  rw [views]
  by_cases hl : l = k
  · subst hl
    simp
  · rw [update_of_ne hl, update_of_ne hl]

theorem Accepted.requested_of_tipAt (h : Accepted log r) (tip : TipAt log origin snapshot)
    (hmem : t ∈ snapshot.projection.toolCalls) : r.requestedToolCallIds.contains t = true := by
  obtain ⟨name, arguments, f, hf, record⟩ :=
    ((h.headInvariant.2 origin snapshot tip).lineage).requests_of_mem hmem
  exact Std.ExtTreeSet.contains_iff_mem.mpr (h.mem_requestedToolCallIds_iff.mpr
    ⟨name, arguments, f, List.mem_of_mem_filter hf, record⟩)

theorem replicas_snoc (phases : (fun l => phaseOf ((q.view l).bind (·.toolCalls[t]?))) = x.phases)
    (requested : q.requestedToolCallIds.contains t = x.requested)
    (starts : (startCount log t + if isStartOf t e.record then 1 else 0) = x.starts)
    (settles : (terminalCount log t + if isTerminalOf t e.record then 1 else 0) = x.settles) :
    replicas (log ++ [e]) (q.push e) t = x :=
  Replicas.ext phases requested ((startCount_snoc log e t).trans starts)
    ((terminalCount_snoc log e t).trans settles)

theorem replicas_of_step (step : Replicas.Step (replicas log r t) x)
    (same : replicas (log ++ [e]) (q.push e) t = x) : Relation.ReflTransGen Replicas.Step (replicas log r t)
      (replicas (log ++ [e]) (q.push e) t) := by
  rw [same]
  exact .single step

/-- A record that changes one branch is a step of its replica, or none. -/
theorem replicas_recordStep {q' : SessionReducer}
    (step : RecordStep r s e q' t') (tables : SameTables q' q)
    (source : r.view k = some (capture s))
    (views : q.view = update r.view k (some (capture t'))) :
    Relation.ReflTransGen Replicas.Step (replicas log r t)
      (replicas (log ++ [e]) (q.push e) t) := by
  have phases := phases_update (t := t) views
  have here : (replicas log r t).phases k = phaseOf s.toolCalls[t]? := by
    simp only [replicas, source]
    rfl
  have effect := step.callEffect t
  simp only [capture] at phases
  generalize phaseOf s.toolCalls[t]? = before at effect here
  generalize phaseOf t'.toolCalls[t]? = after at effect phases
  have table := congrArg (·.contains t) tables.requestedToolCallIds
  cases effect with
  | idle starts settles requested =>
    have same : replicas (log ++ [e]) (q.push e) t = replicas log r t := by
      refine replicas_snoc ?_ (table.trans requested) (by simp [starts, replicas])
        (by simp [settles, replicas])
      rw [phases, ← here]
      exact update_eq_self _ _
    rw [same]
  | request starts settles new requested =>
    exact replicas_of_step (.request (k := k) new) (replicas_snoc phases (table.trans requested)
      (by simp [starts, replicas]) (by simp [settles, replicas]))
  | start starts settles requested =>
    exact replicas_of_step (.start (k := k) here) (replicas_snoc phases (table.trans requested)
      (by simp [starts, replicas]) (by simp [settles, replicas]))
  | settle live starts settles requested =>
    exact replicas_of_step (.settle (k := k) (here ▸ live)) (replicas_snoc phases (table.trans requested)
      (by simp [starts, replicas]) (by simp [settles, replicas]))

/-- One accepted record is a step of the replicated lifecycle, or none. -/
theorem replicas_step (before : Accepted log r) (step : Step (replayBranchSnapshot r) r e q)
    (forks : ForksSettled (log ++ [e]) t) :
    Relation.ReflTransGen Replicas.Step (replicas log r t)
      (replicas (log ++ [e]) (q.push e) t) := by
  rcases step.view_cases before with
    ⟨record, rfl, tables, empty⟩ | ⟨step, tables, source, views⟩ | ⟨record, tip, tables, views⟩ |
    ⟨record, tables, views⟩
  · -- Before the creation and right after it no branch knows the call.
    obtain rfl := Run.nil_iff.mp before
    have same : replicas ([] ++ [e]) (q.push e) t = replicas [] new t := by
      refine replicas_snoc ?_ (congrArg (·.contains t) tables.requestedToolCallIds) ?_ ?_
      · funext k
        have absent : (q.view k).bind (·.toolCalls[t]?) = none := by
          cases hk : q.view k with
          | none => rfl
          | some p => simp [empty k p hk]
        rw [absent]
        cases k <;> simp [replicas, view, new]
      · cases hr : e.record <;> simp_all [isSessionCreated, isStartOf, replicas]
      · cases hr : e.record <;> simp_all [isSessionCreated, isTerminalOf, replicas]
    rw [same]
  · exact replicas_recordStep step tables source views
  · rename_i source b origin snapshot
    have settled := forks log e [] rfl source b origin record snapshot tip
    refine replicas_of_step (.copy (k := some b) (p := phaseOf snapshot.projection.toolCalls[t]?)
      ?_ ?_) (replicas_snoc (phases_update views)
        (congrArg (·.contains t) tables.requestedToolCallIds)
        (by simp [record, isStartOf, replicas]) (by simp [record, isTerminalOf, replicas]))
    · cases lookup : snapshot.projection.toolCalls[t]? with
      | none => rfl
      | some tool =>
        have terminal := settled tool lookup
        cases hx : tool.execution <;> simp_all [ToolExecutionState.isTerminal, phaseOf,
          Phase.isLive]
    · intro present
      refine before.requested_of_tipAt tip ?_
      by_contra absent
      rw [BTreeMap.getElem?_eq_none_iff_notMem.mpr absent] at present
      exact present rfl
  · have same : replicas (log ++ [e]) (q.push e) t = replicas log r t := by
      refine replicas_snoc ?_ (congrArg (·.contains t) tables.requestedToolCallIds)
        (by simp [record, isStartOf, replicas]) (by simp [record, isTerminalOf, replicas])
      rw [views]
      rfl
    rw [same]

/-- The reducer refines the replicated lifecycle of every call whose fork points are settled. -/
theorem Accepted.replicas_reachable (h : Accepted log r) (forks : ForksSettled log t) :
    Relation.ReflTransGen Replicas.Step Replicas.empty (replicas log r t) := by
  induction h using induct with
  | nil =>
    have same : replicas [] new t = Replicas.empty := by
      refine Replicas.ext ?_ (by simp [replicas, new, Replicas.empty]) rfl rfl
      funext k
      cases k <;> simp [replicas, view, new, Replicas.empty, phaseOf]
    rw [same]
  | snoc before step after ih => exact (ih forks.of_snoc).trans (replicas_step before step forks)

/-- Over all branches together, a call has at most one start and at most one terminal record, when
no fork point of the log has it in a state in which it could still start or settle. -/
theorem executed_at_most_once (accepted : Accepted log r) (forks : ForksSettled log t) :
    startCount log t ≤ 1 ∧ terminalCount log t ≤ 1 := by
  have once := Replicas.atMostOnce_of_reachable (accepted.replicas_reachable forks)
  exact ⟨once.starts_le, once.settles_le⟩

/-- Whether the call is settled or absent in the tip snapshot of the record `origin`. -/
def settledAt (log : List RecordEnvelope) (origin : RecordId) (t : ToolCallId) : Bool :=
  (List.range log.length).all fun i =>
    (log[i]?).all fun f => f.recordId != origin ||
      (tipSnapshot (reducerOf (log.take (i + 1))) f).all fun snapshot =>
        (snapshot.projection.toolCalls[t]?).all (·.execution.isTerminal)

/-- Whether the call is settled or absent at every fork point of the log. -/
def forksSettled (log : List RecordEnvelope) (t : ToolCallId) : Bool :=
  (List.range log.length).all fun i =>
    (log[i]?).all fun c => (HistoricalSnapshots.forkPoint? c.record).all fun origin =>
      settledAt (log.take i) origin t

theorem settledAt_sound (h : settledAt log origin t = true) (tip : TipAt log origin snapshot)
    (lookup : snapshot.projection.toolCalls[t]? = some tool) :
    tool.execution.isTerminal = true := by
  obtain ⟨before, f, after, r, rfl, rfl, accepted, htip⟩ := tip
  have hr : reducerOf (before ++ [f]) = r := by
    rw [reducerOf, accepted_iff.mp accepted]
    rfl
  have hi := List.all_eq_true.mp h before.length (by simp)
  have htake : (before ++ f :: after).take (before.length + 1) = before ++ [f] := by
    rw [List.append_cons]
    exact List.take_left' (by simp)
  rw [htake, hr] at hi
  simpa [htip, lookup] using hi

theorem forksSettled_sound (h : forksSettled log t = true) : ForksSettled log t := by
  rintro before c after rfl source b origin record snapshot tip tool lookup
  have hi := List.all_eq_true.mp h before.length (by simp)
  have hsettled : settledAt before origin t = true := by
    simpa [record, HistoricalSnapshots.forkPoint?] using hi
  exact settledAt_sound hsettled tip lookup

/-- A call runs, its result is committed, and a branch forks behind it. -/
def settledForkLog : List RecordEnvelope :=
  [numberedCreation,
    readDeclared 1 (some ⟨0⟩),
    readRequested 2 (some ⟨0⟩),
    readDecided 3 (some ⟨0⟩) .allow,
    readStarted 4 (some ⟨0⟩),
    numbered 5 (some ⟨0⟩) (.toolExecutionFinished ⟨0⟩ false [.text "done"] none none) rfl,
    numbered 6 (some ⟨0⟩)
      (.messageCommitted (.toolResult ⟨1⟩ ⟨0⟩ "read" [.text "done"] false none 6)) rfl,
    numbered 7 (some ⟨1⟩) (.branchCreated ⟨0⟩ ⟨1⟩ ⟨6⟩) rfl]

theorem executed_at_most_once_settledForkLog :
    startCount settledForkLog ⟨0⟩ ≤ 1 ∧ terminalCount settledForkLog ⟨0⟩ ≤ 1 := by
  have accepted : Accepted settledForkLog (reducerOf settledForkLog) :=
    accepted_reducerOf (by decide +kernel)
  exact executed_at_most_once accepted (forksSettled_sound (by decide +kernel))

/-- A compaction hides a call that is allowed but not started. A branch forks behind it, and both
branches start the call. -/
def compactedForkLog : List RecordEnvelope :=
  [numberedCreation,
    readDeclared 1 (some ⟨0⟩),
    readRequested 2 (some ⟨0⟩),
    readDecided 3 (some ⟨0⟩) .allow,
    numbered 4 (some ⟨0⟩)
      (.sessionCompacted (.assistant ⟨1⟩ [.text "summary"] .completed 0) ⟨3⟩) rfl,
    numbered 5 (some ⟨1⟩) (.branchCreated ⟨0⟩ ⟨1⟩ ⟨4⟩) rfl,
    readStarted 6 (some ⟨0⟩),
    branchSwitched 7,
    readStarted 8 (some ⟨1⟩)]

/-- The log is accepted, and the call has two start records. -/
theorem executed_twice : Accepted compactedForkLog (reducerOf compactedForkLog) ∧
    startCount compactedForkLog ⟨0⟩ = 2 :=
  ⟨accepted_reducerOf (by decide +kernel), by decide +kernel⟩

end SessionReducer

end TeaRs
