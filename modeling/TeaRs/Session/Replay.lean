import TeaRs.Lib.Run
import TeaRs.Session.Step

/-!
# Accepted logs

The logs that `SessionReducer.apply` accepts record by record, and the rebuild it runs after a
refused record. No handler touches the record list, so the rebuild replays exactly the accepted
records, and it ends in the reducer they had led to.

## Main definitions

* `SessionReducer.Accepted log r`: the log is accepted from the empty reducer and leads to `r`.

## Main results

* `SessionReducer.apply_eq_ok`: `apply` accepts exactly the steps.
* `SessionReducer.Accepted.records_eq`, `SessionReducer.Accepted.restoreDurableState_eq`: the
  reducer of an accepted log remembers the log and is rebuilt from it.
* `SessionReducer.apply_error_eq`: a refused record leaves the reducer as it was, without a panic.
-/

namespace TeaRs

open StateError

namespace SessionReducer

variable {r r' : SessionReducer} {s : MaterializedSessionState} {e : RecordEnvelope}
variable {log : List RecordEnvelope}

/-! ### The record list is only written by `push` -/

section Records

/-- The program does not touch the record list. -/
abbrev KeepsRecords {α : Type} (x : ReducerM α) : Prop := Frame SessionReducer.records x

theorem keepsRecords_requireState : KeepsRecords requireState :=
  .bind .get fun _ => .okOr _ _

theorem keepsRecords_putState (s : MaterializedSessionState) :
    KeepsRecords (putState s) := .modify fun _ => rfl

theorem keepsRecords_requireTool (t : ToolCallId) (reference : String) :
    KeepsRecords (requireTool t reference) :=
  .bind keepsRecords_requireState fun _ => .okOr _ _

theorem keepsRecords_putTool (t : ToolCallId) (tool : ToolCallState) :
    KeepsRecords (putTool t tool) :=
  .bind keepsRecords_requireState fun _ => keepsRecords_putState _

theorem keepsRecords_updateTool (t : ToolCallId) (reference transition : String)
    (accepts : ToolCallState → Bool) (update : ToolCallState → ToolCallState) :
    KeepsRecords (updateTool t reference accepts transition update) :=
  .bind (keepsRecords_requireTool _ _) fun _ => .bind (.ensure _ _) fun _ =>
    keepsRecords_putTool _ _

theorem keepsRecords_insertMessageId (id : MessageId) : KeepsRecords (insertMessageId id) :=
  .bind .get fun _ => .bind (.modify fun _ => rfl) fun _ => .ensure _ _

theorem keepsRecords_declareToolCalls (calls : List (ToolCallId × String × Value)) :
    KeepsRecords (declareToolCalls calls) := by
  induction calls with
  | nil => exact .pure _
  | cons c calls ih =>
    exact .bind .get fun _ => .bind (.modify fun _ => rfl) fun _ =>
      .bind keepsRecords_requireState fun _ => .bind (.ensure _ _) fun _ => ih

theorem keepsRecords_applyMessageCommitted (m : CanonicalMessage) :
    KeepsRecords (applyMessageCommitted m) := by
  refine .bind (keepsRecords_insertMessageId _) fun _ =>
    .bind (keepsRecords_declareToolCalls _) fun _ => ?_
  have tail : KeepsRecords (do
      let state ← requireState
      putState { state with messages := state.messages ++ [m] }) :=
    .bind keepsRecords_requireState fun _ => keepsRecords_putState _
  cases m with
  | user | assistant => exact tail
  | toolResult =>
    exact .bind (.bind (keepsRecords_requireTool _ _) fun _ => .bind (.ensure _ _) fun _ =>
      .bind (.ensure _ _) fun _ => keepsRecords_putTool _ _) fun _ => tail

theorem keepsRecords_dispatchRecord (e : RecordEnvelope) : KeepsRecords (dispatchRecord e) := by
  rw [dispatchRecord]
  have update (f : MaterializedSessionState → MaterializedSessionState) : KeepsRecords (do
      let state ← requireState
      putState (f state)) :=
    .bind keepsRecords_requireState fun _ => keepsRecords_putState _
  cases e.record with
  | sessionCreated | branchCreated | activeBranchChanged => exact .throw _
  | messageCommitted m => exact keepsRecords_applyMessageCommitted m
  | configurationChanged | turnCheckpointed => exact update _
  | toolCallRequested =>
    exact .bind .get fun _ => .bind keepsRecords_requireState fun _ => .bind (.okOr _ _) fun _ =>
      .bind (.ensure _ _) fun _ => .bind (.modify fun _ => rfl) fun _ =>
      .bind (.ensure _ _) fun _ => keepsRecords_putTool _ _
  | policyDecisionRecorded | toolExecutionStarted | toolExecutionFinished
  | toolExecutionInterrupted => exact keepsRecords_updateTool _ _ _ _ _
  | approvalRequested =>
    exact .bind .get fun _ => .bind (.modify fun _ => rfl) fun _ => .bind (.ensure _ _) fun _ =>
      .bind (keepsRecords_requireTool _ _) fun _ => .bind (.ensure _ _) fun _ =>
      .bind (keepsRecords_putTool _ _) fun _ => update _
  | approvalResolved =>
    exact .bind keepsRecords_requireState fun _ => .bind (.okOr _ _) fun _ =>
      .bind (keepsRecords_putState _) fun _ => .bind (.ensure _ _) fun _ =>
      .bind (keepsRecords_requireTool _ _) fun _ => keepsRecords_putTool _ _
  | runInterrupted =>
    exact .bind keepsRecords_requireState fun _ => .bind (.ensure _ _) fun _ =>
      keepsRecords_putState _
  | runCancelled =>
    exact .bind keepsRecords_requireState fun _ => .bind (keepsRecords_putState _) fun _ =>
      .ensure _ _
  | sessionCompacted =>
    exact .bind .get fun _ => .bind keepsRecords_requireState fun _ => .bind (.ensure _ _) fun _ =>
      .bind (.ensure _ _) fun _ => .bind (keepsRecords_insertMessageId _) fun _ =>
      keepsRecords_putState _

theorem keepsRecords_captureActiveBranch (id : RecordId) (h : Option HistoricalSnapshots) :
    KeepsRecords (captureActiveBranch id h) := by
  refine .bind keepsRecords_requireState fun s => ?_
  cases s.activeBranchId with
  | none => exact .pure _
  | some b =>
    exact .bind .get fun _ => .bind (.okOr _ _) fun _ => .bind (.modify fun _ => rfl) fun _ =>
      .bind (.okOr _ _) fun _ => .bind (keepsRecords_putState _) fun _ => .pure _

theorem keepsRecords_applyScoped (replay : ReplaySnapshot) (e : RecordEnvelope)
    (h : Option HistoricalSnapshots) : KeepsRecords (applyScoped replay e h) := by
  cases hb : isBranchRecord e.record with
  | false =>
    rw [applyScoped_of_record hb]
    exact .bind (.bind keepsRecords_requireState fun _ => keepsRecords_dispatchRecord e) fun _ =>
      keepsRecords_captureActiveBranch _ _
  | true =>
    rw [applyScoped]
    cases record : e.record with
    | branchCreated =>
      exact .bind .get fun _ => .bind (.ensure _ _) fun _ => .bind (.okOr _ _) fun _ =>
        .bind (.ensure _ _) fun _ => .bind (.propagate _) fun _ => .bind (.okOr _ _) fun _ =>
        .bind (.ensure _ _) fun _ => .bind (.modify fun _ => rfl) fun _ =>
        .bind keepsRecords_requireState fun _ => .bind (keepsRecords_putState _) fun _ => .pure _
    | activeBranchChanged =>
      exact .bind .get fun _ => .bind (.okOr _ _) fun _ => .bind keepsRecords_requireState fun _ =>
        .bind (.modify fun _ => rfl) fun _ => .bind (keepsRecords_putState _) fun _ =>
        .bind (.okOr _ _) fun _ => .bind (keepsRecords_putState _) fun _ => .pure _
    | _ => rw [record] at hb; cases hb

theorem keepsRecords_applyCreation (e : RecordEnvelope) (h : Option HistoricalSnapshots) :
    KeepsRecords (applyCreation e h) := by
  refine .bind (.ensure _ _) fun _ => ?_
  cases e.record with
  | sessionCreated =>
    refine .bind (keepsRecords_putState _) fun _ => ?_
    cases e.branchId with
    | none => exact .bind (.pure _) fun _ => .bind (.modify fun _ => rfl) fun _ => .pure _
    | some b =>
      exact .bind (.modify fun _ => rfl) fun _ => .bind (.pure _) fun _ =>
        .bind (.modify fun _ => rfl) fun _ => .pure _
  | _ => exact .throw _

/-- No application, accepted or refused, touches the record list. -/
theorem keepsRecords_applyInnerWithHistory (replay : ReplaySnapshot) (e : RecordEnvelope)
    (h : Option HistoricalSnapshots) : KeepsRecords (applyInnerWithHistory replay e h) := by
  refine .bind .get fun _ => .bind (.ensure _ _) fun _ =>
    .ite (keepsRecords_applyCreation e h) ?_
  refine .bind (.bind keepsRecords_requireState fun _ => .bind (.ensure _ _) fun _ =>
    .bind (.okOr _ _) fun _ => .ensure _ _) fun _ => ?_
  refine .bind (.ensure _ _) fun _ => .bind (.bind keepsRecords_requireState fun _ =>
    .ensure _ _) fun _ => ?_
  exact .bind (keepsRecords_applyScoped replay e h) fun _ =>
    .bind (.bind keepsRecords_requireState fun _ => .bind (keepsRecords_putState _) fun _ =>
      .modify fun _ => rfl) fun _ => .pure _

theorem applyInner_records_of_error {err : SessionReplayError}
    (h : applyInner e r = .error err r') : r'.records = r.records :=
  Frame.of_error (.bind (keepsRecords_applyInnerWithHistory _ e none) fun _ => .pure _) h

end Records

namespace Step

variable {fork : BranchId → RecordId → Except SessionReplayError (Option BranchSnapshot)}

variable (h : Step fork r e r')

include h

theorem records_eq : r'.records = r.records := by
  cases h with
  | created | forked | switched => rfl
  | unbranched _ _ _ step | onBranch _ _ _ step => exact step.records_eq

theorem recordIds_eq : r'.recordIds = r.recordIds.insert e.recordId := by
  cases h with
  | created | forked | switched => rfl
  | unbranched _ _ _ step | onBranch _ _ _ step =>
    exact congrArg (·.insert e.recordId) step.recordIds_eq

theorem recordId_fresh : e.recordId ∉ r.recordIds := by
  cases h with
  | created _ fresh => exact fresh
  | unbranched follows | onBranch follows | forked follows | switched follows => exact follows.fresh

/-- A step depends on the fork lookup only through the snapshot it finds. -/
theorem congr_fork {fork' : BranchId → RecordId → Except SessionReplayError (Option BranchSnapshot)}
    (same : ∀ source b origin snapshot, e.record = .branchCreated source b origin →
      fork source origin = .ok (some snapshot) → fork' source origin = .ok (some snapshot)) :
    Step fork' r e r' := by
  cases h with
  | created empty fresh first record => exact .created empty fresh first record
  | unbranched follows scope active step => exact .unbranched follows scope active step
  | onBranch follows scope active step lookup listed =>
    exact .onBranch follows scope active step lookup listed
  | forked follows record fresh lookup reached found safe =>
    exact .forked follows record fresh lookup reached (same _ _ _ _ record found) safe
  | switched follows record lookup listed => exact .switched follows record lookup listed

theorem tail_eq : ∃ s, r'.state = some s ∧ s.tailSequence = e.sequence := by
  cases h with
  | created | unbranched | onBranch | forked | switched => exact ⟨_, rfl, rfl⟩

theorem creates_or_follows : (r.state = none ∧ e.sequence = 0) ∨ ∃ s, Follows r s e := by
  cases h with
  | created empty _ first => exact .inl ⟨empty, first⟩
  | unbranched follows | onBranch follows | forked follows | switched follows =>
    exact .inr ⟨_, follows⟩

end Step

/-! ### Accepted logs -/

section Accepted

@[simp] theorem push_records (r : SessionReducer) (e : RecordEnvelope) :
    (r.push e).records = r.records ++ [e] := rfl

/-- `apply` accepts exactly the steps. -/
theorem apply_eq_ok {u : Unit} :
    apply e r = .ok u r' ↔ ∃ q, Step (replayBranchSnapshot r) r e q ∧ r' = q.push e := by
  simp only [← applyInner_ok_iff]
  rw [apply]
  cases happly : applyInner e r with
  | ok _ q => simp [eq_comm]
  | error error q => cases hrestore : q.restoreDurableState <;> simp [hrestore]

/-- The log is accepted record by record from the empty reducer and leads to `r`. -/
def Accepted (log : List RecordEnvelope) (r : SessionReducer) : Prop :=
  Run (fun r e r' => apply e r = .ok () r') new log r

theorem applyAll_eq_ok {q : SessionReducer} {u : Unit} :
    applyAll log q = .ok u r ↔ Run (fun r e r' => apply e r = .ok () r') q log r := by
  induction log generalizing q with
  | nil => simp [applyAll, Run.nil_iff, eq_comm]
  | cons e log ih =>
    simp only [applyAll, bind_eq_ok, Run.cons_iff, ih]
    constructor
    · rintro ⟨_, t, h, run⟩
      exact ⟨t, h, run⟩
    · rintro ⟨t, h, run⟩
      exact ⟨(), t, h, run⟩

theorem accepted_iff : Accepted log r ↔ applyAll log new = .ok () r := applyAll_eq_ok.symm

/-- The reducer a log leads to, or the one at which it is refused. -/
def reducerOf (log : List RecordEnvelope) : SessionReducer := resultState (applyAll log new)

theorem accepted_reducerOf (h : resultError? (applyAll log new) = none) :
    Accepted log (reducerOf log) :=
  accepted_iff.mpr (eq_ok_of_resultError? h)

theorem replayAccepted_eq_some {q : SessionReducer} :
    replayAccepted log q = some r ↔ Run (fun r e r' => apply e r = .ok () r') q log r := by
  induction log generalizing q with
  | nil => simp [replayAccepted, Run.nil_iff, eq_comm]
  | cons e log ih =>
    have happly {t : SessionReducer} :
        apply e q = .ok () t ↔ ∃ q', applyInner e q = .ok () q' ∧ t = q'.push e := by
      simp only [apply_eq_ok, applyInner_ok_iff]
    rw [Run.cons_iff, replayAccepted]
    simp only [happly]
    cases applyInner e q with
    | ok _ q' => simp [ih]
    | error => simp

namespace Accepted

theorem snoc_iff : Accepted (log ++ [e]) r' ↔
    ∃ r q, Accepted log r ∧ Step (replayBranchSnapshot r) r e q ∧ r' = q.push e := by
  simp only [Accepted, Run.snoc_iff, apply_eq_ok]
  exact ⟨fun ⟨r, run, q, step, h⟩ => ⟨r, q, run, step, h⟩,
    fun ⟨r, q, run, step, h⟩ => ⟨r, run, q, step, h⟩⟩

/-- Induction on an accepted log, at its last record. -/
@[elab_as_elim]
theorem induct {motive : ∀ log r, Accepted log r → Prop} (nil : motive [] new Run.nil)
    (snoc : ∀ {log r q e} (before : Accepted log r) (_ : Step (replayBranchSnapshot r) r e q)
      (after : Accepted (log ++ [e]) (q.push e)),
      motive log r before → motive (log ++ [e]) (q.push e) after)
    {log : List RecordEnvelope} {r : SessionReducer} (h : Accepted log r) : motive log r h := by
  refine Run.rec (motive := motive) nil (fun run last ih => ?_) h
  obtain ⟨q, step, rfl⟩ := apply_eq_ok.mp last
  exact snoc run step (run.snoc last) ih

variable (h : Accepted log r)

include h

/-- The reducer of an accepted log remembers the log. -/
theorem records_eq : r.records = log := by
  induction h using induct with
  | nil => rfl
  | snoc before step _ ih => rw [push_records, step.records_eq, ih]

theorem eq (h' : Accepted log r') : r = r' := by
  refine Run.eq_of_deterministic (fun s e t u ht hu => ?_) h h'
  cases ht.symm.trans hu
  rfl

/-- The reducer of an accepted log is rebuilt from its record list. -/
theorem restoreDurableState_eq {q : SessionReducer}
    (records : q.records = r.records) : q.restoreDurableState = some r := by
  rw [restoreDurableState, records, h.records_eq]
  exact replayAccepted_eq_some.mpr h

theorem apply_cases (e : RecordEnvelope) :
    (∃ r', apply e r = .ok () r') ∨ ∃ error, apply e r = .error (.error error) r := by
  rw [apply]
  cases happly : applyInner e r with
  | ok _ q => exact .inl ⟨q.push e, rfl⟩
  | error error q =>
    have hq : q.restoreDurableState = some r :=
      h.restoreDurableState_eq (applyInner_records_of_error happly)
    exact .inr ⟨error, by simp [hq]⟩

theorem eq_nil_of_state (empty : r.state = none) : log = [] := by
  induction h using induct with
  | nil => rfl
  | snoc before step => cases step <;> cases empty

theorem state_eq_none_iff : r.state = none ↔ log = [] := by
  refine ⟨h.eq_nil_of_state, ?_⟩
  rintro rfl
  exact congrArg SessionReducer.state (Run.nil_iff.mp h)

theorem tailSequence_eq (state : r.state = some s) : s.tailSequence + 1 = log.length := by
  induction h using induct generalizing s with
  | nil => cases state
  | snoc before step _ ih =>
    obtain ⟨t, ht, tail⟩ := step.tail_eq
    obtain rfl : t = s := Option.some.inj (ht.symm.trans state)
    rw [tail, List.length_append, List.length_singleton]
    rcases step.creates_or_follows with ⟨empty, first⟩ | ⟨u, follows⟩
    · rw [first, before.eq_nil_of_state empty, List.length_nil]
    · rw [checkedNext_eq_some follows.next, ih follows.state]

theorem getLast?_sequence (last : log.getLast? = some e) : e.sequence + 1 = log.length := by
  induction h using induct with
  | nil => cases last
  | snoc before step after =>
    rw [List.getLast?_concat, Option.some.injEq] at last
    subst last
    obtain ⟨t, ht, tail⟩ := step.tail_eq
    rw [← tail]
    exact after.tailSequence_eq ht

theorem sequence_eq : log.map (·.sequence) = List.range log.length := by
  induction h using induct with
  | nil => rfl
  | snoc before step after ih =>
    have last := after.getLast?_sequence List.getLast?_concat
    rw [List.length_append, List.length_singleton] at last
    rw [List.map_append, ih, List.length_append, List.length_singleton, List.range_succ,
      List.map_singleton, Nat.succ.inj last]

end Accepted

end Accepted

/-- A refused record leaves every field of the reducer as it was, and the rebuild that restores it
never panics. -/
theorem apply_error_eq (h : Accepted log r) (e : RecordEnvelope) :
    (∀ message r', apply e r ≠ .error (.panic message) r') ∧
      ∀ error r', apply e r = .error (.error error) r' → r' = r := by
  rcases h.apply_cases e with ⟨r', happly⟩ | ⟨error, happly⟩
  · simp [happly]
  · simp [happly, eq_comm]

/-- A record of session `0` whose identity, sequence number and time are all `n`. -/
def numbered (n : Nat) (branchId : Option BranchId) (record : SessionRecord)
    (valid : TeaRs.validateEnvelope branchId record = .ok ()) : RecordEnvelope where
  protocolVersion := currentProtocolVersion
  recordId := ⟨n⟩
  sessionId := ⟨0⟩
  sequence := n
  timestamp := n
  causationId := none
  correlationId := none
  branchId := branchId
  metadata := ∅
  record := record
  valid := valid

/-- The creation of a session with root branch `0`. -/
def numberedCreation : RecordEnvelope :=
  numbered 0 (some ⟨0⟩) (.sessionCreated ⟨"default"⟩ ∅) rfl

/-- The creation of a session without branches. -/
def unbranchedCreation : RecordEnvelope :=
  numbered 0 none (.sessionCreated ⟨"default"⟩ ∅) rfl

/-! The records of a call to read. -/

section Read

variable (n : Nat) (branchId : Option BranchId)

def readDeclared : RecordEnvelope :=
  numbered n branchId (.messageCommitted
    (.assistant ⟨0⟩ [.toolCall ⟨0⟩ none "read" (.object [])] .toolUse 0)) rfl

def readRequested : RecordEnvelope :=
  numbered n branchId (.toolCallRequested ⟨0⟩ "read" (.object [])) rfl

def readDecided (decision : PolicyDecision) : RecordEnvelope :=
  numbered n branchId (.policyDecisionRecorded ⟨0⟩ decision) rfl

def readAsked (expiresAt : ProtocolTimestamp) : RecordEnvelope :=
  numbered n branchId (.approvalRequested ⟨0⟩ ⟨0⟩ expiresAt) rfl

def readStarted : RecordEnvelope :=
  numbered n branchId (.toolExecutionStarted ⟨0⟩ .native .idempotent) rfl

end Read

def profileChanged (n : Nat) (profileId : ProfileId) : RecordEnvelope :=
  numbered n (some ⟨0⟩) (.configurationChanged none (some profileId) none) rfl

/-- The creation of branch `1` at the creation of the session. -/
def forkedAtCreation (n : Nat) : RecordEnvelope :=
  numbered n (some ⟨1⟩) (.branchCreated ⟨0⟩ ⟨1⟩ ⟨0⟩) rfl

def branchSwitched (n : Nat) : RecordEnvelope :=
  numbered n (some ⟨1⟩) (.activeBranchChanged ⟨1⟩) rfl

/-- A request for a tool call that nothing declares is refused, and nothing changes. -/
theorem apply_error_eq_undeclared :
    apply (numbered 1 (some ⟨0⟩) (.toolCallRequested ⟨0⟩ "read" (.object [])) rfl)
        (reducerOf [numberedCreation]) =
      .error (.error (.invalidReference "undeclared_tool_call"))
        (reducerOf [numberedCreation]) := by
  have accepted : Accepted [numberedCreation] (reducerOf [numberedCreation]) :=
    accepted_reducerOf (by decide +kernel)
  have refused := eq_error_of_resultError? (x := apply
    (numbered 1 (some ⟨0⟩) (.toolCallRequested ⟨0⟩ "read" (.object [])) rfl)
    (reducerOf [numberedCreation])) (e := .error (.invalidReference "undeclared_tool_call"))
    (by decide +kernel)
  rw [(apply_error_eq accepted _).2 _ _ refused] at refused
  exact refused

end SessionReducer

end TeaRs
