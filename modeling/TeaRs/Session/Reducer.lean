import TeaRs.Lib.StateError
import TeaRs.Session.State

/-!
# The session reducer

The deterministic reducer that turns an append-only log into materialized state, after
`tea-session/src/reducer.rs`. The reducer mutates its fields as it goes and only checks some
conditions afterwards, so a handler here is a program that keeps the state it had reached when it
fails; `SessionReducer.apply` then rebuilds the reducer from the accepted records, as the source
does.

Creating a branch needs the state its source branch had at an older record. At the top level the
reducer replays the prefix of the log that ends there; while it replays, the snapshots of all
records that some branch starts from are captured in a table, and nested branch creations read
that table instead. `applyInnerWithHistory` takes the replay as an argument: it is only consulted
when no table is given.

## Main definitions

* `BranchProjection`, `BranchSnapshot`, `HistoricalSnapshots`, `SessionReducer`.
* `SessionReducer.applyRecord` and one handler per record kind.
* `SessionReducer.applyInnerWithHistory`, `SessionReducer.replayBranchSnapshot`,
  `SessionReducer.applyInner`.
* `SessionReducer.restoreDurableState`, `SessionReducer.apply`, `SessionReducer.replayReducer`,
  `SessionReducer.replay`.
-/

namespace TeaRs

open StateError

/-- `SessionStoreErrorCode`. -/
inductive SessionStoreErrorCode where
  | sessionNotFound | sessionAlreadyExists | sequenceConflict | invalidRecord | invalidReference
  | unsupportedSchemaVersion | corruptionDetected | transactionFailed | storageUnavailable
  deriving DecidableEq, Repr

/-- `SessionReplayError`. -/
inductive SessionReplayError where
  | emptyLog
  | invalidCreation
  | sessionMismatch (expected actual : SessionId)
  | sequenceMismatch (expected actual : SessionSequence)
  | sequenceOverflow
  | duplicateRecord (recordId : RecordId)
  | duplicateEntity (entity : String)
  | invalidReference (reference : String)
  | invalidTransition (transition : String)
  deriving DecidableEq, Repr

/-- `SessionReplayError::store_code`. -/
def SessionReplayError.storeCode : SessionReplayError → SessionStoreErrorCode
  | .invalidReference _ => .invalidReference
  | .sequenceMismatch .. | .sequenceOverflow | .duplicateRecord _ | .duplicateEntity _
  | .sessionMismatch .. | .emptyLog | .invalidCreation => .corruptionDetected
  | .invalidTransition _ => .invalidRecord

/-- The `Display` form of a replay error. -/
def SessionReplayError.toText : SessionReplayError → String
  | .emptyLog => "session log is empty"
  | .invalidCreation => "session creation record is missing or duplicated"
  | .sessionMismatch expected actual =>
    "record belongs to session " ++ actual.toText ++ ", expected " ++ expected.toText
  | .sequenceMismatch expected actual =>
    "record sequence is " ++ toString actual ++ ", expected " ++ toString expected
  | .sequenceOverflow => "session sequence overflow"
  | .duplicateRecord recordId => "duplicate record ID: " ++ recordId.toText
  | .duplicateEntity entity => "duplicate session entity: " ++ entity
  | .invalidReference reference => "invalid session reference: " ++ reference
  | .invalidTransition transition => "invalid session transition: " ++ transition

/-- `SessionStoreError`: a classification and an English diagnostic. -/
structure SessionStoreError where
  code : SessionStoreErrorCode
  message : String
  deriving DecidableEq

/-- `SessionStoreError::new`, which bounds the diagnostic. -/
def SessionStoreError.new (code : SessionStoreErrorCode) (message : String) : SessionStoreError :=
  ⟨code, truncateUtf8 message 4096⟩

/-- `SessionStoreError::from`. -/
def SessionReplayError.toStoreError (error : SessionReplayError) : SessionStoreError :=
  .new error.storeCode error.toText

/-- `DeclaredToolCall`. -/
structure DeclaredToolCall where
  toolName : String
  arguments : Value
  deriving DecidableEq

/-- `BranchProjection`: the part of the materialized state that belongs to one branch. -/
structure BranchProjection where
  configuration : SessionConfiguration
  messages : List CanonicalMessage
  pendingApprovals : BTreeMap ApprovalId PendingApproval
  toolCalls : BTreeMap ToolCallId ToolCallState
  runRecovery : BTreeMap RunId RunRecoveryState
  latestCheckpoint : Option TurnCheckpoint
  latestCompaction : Option SessionCompaction
  deriving DecidableEq

namespace BranchProjection

/-- `BranchProjection::capture`. -/
def capture (state : MaterializedSessionState) : BranchProjection where
  configuration := state.configuration
  messages := state.messages
  pendingApprovals := state.pendingApprovals
  toolCalls := state.toolCalls
  runRecovery := state.runRecovery
  latestCheckpoint := state.latestCheckpoint
  latestCompaction := state.latestCompaction

/-- `BranchProjection::install`. -/
def install (projection : BranchProjection) (state : MaterializedSessionState) :
    MaterializedSessionState :=
  { state with
    configuration := projection.configuration
    messages := projection.messages
    pendingApprovals := projection.pendingApprovals
    toolCalls := projection.toolCalls
    runRecovery := projection.runRecovery
    latestCheckpoint := projection.latestCheckpoint
    latestCompaction := projection.latestCompaction }

end BranchProjection

/-- `BranchSnapshot`. -/
structure BranchSnapshot where
  projection : BranchProjection
  history : BTreeSet RecordId
  declaredToolCalls : BTreeSet ToolCallId
  deriving DecidableEq

/-- `BranchSnapshot::safe_to_fork`: no approval is pending, and every tool call the visible
transcript declares has finished and has its result message. -/
def BranchSnapshot.safeToFork (snapshot : BranchSnapshot) : Bool :=
  snapshot.projection.pendingApprovals.isEmpty &&
    snapshot.declaredToolCalls.toList.all fun toolCallId =>
      match snapshot.projection.toolCalls[toolCallId]? with
      | some tool => tool.execution.isFinished && tool.resultMessageId.isSome
      | none => false

/-- `HistoricalSnapshots`: the records whose snapshot a replay must keep, and those kept. -/
structure HistoricalSnapshots where
  required : BTreeSet RecordId
  captured : BTreeMap RecordId BranchSnapshot

namespace HistoricalSnapshots

/-- The record a `BranchCreated` record starts from. -/
def forkPoint? : SessionRecord → Option RecordId
  | .branchCreated _ _ fromRecordId => some fromRecordId
  | _ => none

/-- `HistoricalSnapshots::for_prefix`: the table for replaying up to `target`, and the position
of `target`. -/
def forPrefix (records : List RecordEnvelope) (target : RecordId) :
    Option (HistoricalSnapshots × Nat) :=
  (records.findIdx? (·.recordId == target)).map fun targetIndex =>
    let forkPoints := (records.take (targetIndex + 1)).filterMap (forkPoint? ·.record)
    ({ required := ((∅ : BTreeSet RecordId).insert target).insertMany forkPoints
       captured := ∅ }, targetIndex)

/-- `HistoricalSnapshots::capture`. -/
def capture (historical : HistoricalSnapshots) (recordId : RecordId)
    (snapshot : BranchSnapshot) : HistoricalSnapshots :=
  if historical.required.contains recordId then
    { historical with captured := historical.captured.insert recordId snapshot }
  else historical

/-- `HistoricalSnapshots::get`. -/
def get (historical : HistoricalSnapshots) (recordId : RecordId) : Option BranchSnapshot :=
  historical.captured[recordId]?

end HistoricalSnapshots

/-- `SessionReducer`. -/
structure SessionReducer where
  state : Option MaterializedSessionState
  records : List RecordEnvelope
  recordIds : BTreeSet RecordId
  messageIds : BTreeSet MessageId
  declaredToolCalls : BTreeMap ToolCallId DeclaredToolCall
  requestedToolCallIds : BTreeSet ToolCallId
  approvalIds : BTreeSet ApprovalId
  branchHeads : BTreeMap BranchId BranchSnapshot
  deriving DecidableEq

/-- A reducer program: it keeps the reducer it had reached when it fails. -/
abbrev ReducerM := EStateM SessionReplayError SessionReducer

namespace ToolCallState

/-- The terminal result of a tool call is the one a tool-result message repeats. -/
def matchesResult (tool : ToolCallState) (toolName : String)
    (content : List ContentBlock) (isError : Bool) (error : Option ToolFailure) : Bool :=
  match tool.execution with
  | .finished terminalError terminalContent terminalFailure _ =>
    terminalError == isError && terminalContent == content && terminalFailure == error &&
      tool.toolName == toolName
  | .notStarted | .started .. | .interrupted .. => false

/-- Whether the decisions recorded for a tool call allow it to start. -/
def authorized (tool : ToolCallState) : Bool :=
  match tool.policyDecision with
  | some .allow => true
  | some .requireApproval =>
    tool.approvalDecision == some .allowOnce || tool.approvalDecision == some .allowSession
  | some .deny | none => false

/-- A denied call may end with an error without ever having started. -/
def deniedWithoutExecution (tool : ToolCallState) (isError : Bool) : Bool :=
  tool.execution.isNotStarted && isError &&
    (tool.policyDecision == some .deny || tool.approvalDecision == some .deny)

end ToolCallState

namespace SessionReducer

/-- `SessionReducer::new`. -/
def new : SessionReducer where
  state := none
  records := []
  recordIds := ∅
  messageIds := ∅
  declaredToolCalls := ∅
  requestedToolCallIds := ∅
  approvalIds := ∅
  branchHeads := ∅

/-! ### Access to the materialized state -/

/-- `self.state.as_mut().ok_or(..)`. -/
def requireState : ReducerM MaterializedSessionState := do
  okOr (← get).state (.invalidTransition "missing_materialized_state")

/-- Write back a mutated state. -/
def putState (state : MaterializedSessionState) : ReducerM Unit :=
  modify fun r => { r with state := some state }

/-- `state.tool_calls.get_mut(id).ok_or(InvalidReference { reference })`. -/
def requireTool (toolCallId : ToolCallId) (reference : String) : ReducerM ToolCallState := do
  okOr ((← requireState).toolCalls[toolCallId]?) (.invalidReference reference)

/-- Write back a mutated tool call. -/
def putTool (toolCallId : ToolCallId) (tool : ToolCallState) : ReducerM Unit := do
  let state ← requireState
  putState { state with toolCalls := state.toolCalls.insert toolCallId tool }

/-- The handlers that change one tool call: look it up, check that the change is legal for it and
write it back. -/
def updateTool (toolCallId : ToolCallId) (reference : String) (accepts : ToolCallState → Bool)
    (transition : String) (update : ToolCallState → ToolCallState) : ReducerM Unit := do
  let tool ← requireTool toolCallId reference
  ensure (accepts tool) (.invalidTransition transition)
  putTool toolCallId (update tool)

/-! ### One handler per record kind -/

/-- `self.message_ids.insert(id)`, which fails for an identity already used. -/
def insertMessageId (id : MessageId) : ReducerM Unit := do
  let r ← get
  modify fun r => { r with messageIds := r.messageIds.insert id }
  ensure (!r.messageIds.contains id) (.duplicateEntity "message")

/-- The loop over `declared_tool_calls(message)`: each declaration is inserted before it is known
to be new. -/
def declareToolCalls : List (ToolCallId × String × Value) → ReducerM Unit
  | [] => pure ()
  | (toolCallId, toolName, arguments) :: calls => do
    let r ← get
    modify fun r => { r with
      declaredToolCalls := r.declaredToolCalls.insert toolCallId { toolName, arguments } }
    let state ← requireState
    ensure (!r.declaredToolCalls.contains toolCallId && !state.toolCalls.contains toolCallId)
      (.duplicateEntity "tool_call")
    declareToolCalls calls

/-- The part of `MessageCommitted` that only a tool-result message runs. -/
def commitToolResult (id : MessageId) (toolCallId : ToolCallId) (toolName : String)
    (content : List ContentBlock) (isError : Bool) (error : Option ToolFailure) :
    ReducerM Unit := do
  let tool ← requireTool toolCallId "tool_result_tool_call"
  ensure tool.resultMessageId.isNone (.invalidTransition "duplicate_tool_result_message")
  ensure (tool.matchesResult toolName content isError error)
    (.invalidTransition "tool_result_before_matching_terminal")
  putTool toolCallId (tool.commitResult id)

/-- `SessionRecord::MessageCommitted`. -/
def applyMessageCommitted (message : CanonicalMessage) : ReducerM Unit := do
  insertMessageId message.messageId
  declareToolCalls message.declaredToolCalls
  match message with
  | .toolResult id toolCallId toolName content isError error _ =>
    commitToolResult id toolCallId toolName content isError error
  | .user .. | .assistant .. => pure ()
  let state ← requireState
  putState { state with messages := state.messages ++ [message] }

/-- `SessionRecord::ConfigurationChanged`. -/
def applyConfigurationChanged (model : Option ModelRef) (profileId : Option ProfileId)
    (reasoningEffort : Option ReasoningEffort) : ReducerM Unit := do
  let state ← requireState
  putState { state with
    configuration := state.configuration.change model profileId reasoningEffort }

/-- Whether the transcript of the active branch declares a tool call. A log without branches has
one transcript, and every declared call is visible. -/
def visibleOnBranch (r : SessionReducer) (state : MaterializedSessionState)
    (toolCallId : ToolCallId) : Bool :=
  match state.activeBranchId with
  | none => true
  | some branchId =>
    match r.branchHeads[branchId]? with
    | some head => head.declaredToolCalls.contains toolCallId
    | none => false

/-- `SessionRecord::ToolCallRequested`. -/
def applyToolCallRequested (toolCallId : ToolCallId) (toolName : String) (arguments : Value) :
    ReducerM Unit := do
  let r ← get
  let state ← requireState
  let declared ← okOr
    (r.declaredToolCalls[toolCallId]?.filter fun _ => r.visibleOnBranch state toolCallId)
    (.invalidReference "undeclared_tool_call")
  ensure (declared.toolName == toolName && declared.arguments == arguments)
    (.invalidReference "tool_call_declaration_mismatch")
  modify fun r => { r with requestedToolCallIds := r.requestedToolCallIds.insert toolCallId }
  ensure (!r.requestedToolCallIds.contains toolCallId && !state.toolCalls.contains toolCallId)
    (.duplicateEntity "tool_call_request")
  putTool toolCallId (newToolCall toolCallId toolName arguments)

/-- `SessionRecord::PolicyDecisionRecorded`. -/
def applyPolicyDecisionRecorded (toolCallId : ToolCallId) (decision : PolicyDecision) :
    ReducerM Unit :=
  updateTool toolCallId "policy_tool_call" (·.policyDecision.isNone) "duplicate_policy_decision"
    (·.setPolicy decision)

/-- `SessionRecord::ApprovalRequested`. -/
def applyApprovalRequested (timestamp : ProtocolTimestamp) (approvalId : ApprovalId)
    (toolCallId : ToolCallId) (expiresAt : ProtocolTimestamp) : ReducerM Unit := do
  let r ← get
  modify fun r => { r with approvalIds := r.approvalIds.insert approvalId }
  ensure (!r.approvalIds.contains approvalId) (.duplicateEntity "approval")
  let tool ← requireTool toolCallId "approval_tool_call"
  ensure (tool.policyDecision == some .requireApproval && tool.approvalId.isNone &&
    decide (timestamp < expiresAt)) (.invalidTransition "approval_request")
  putTool toolCallId (tool.setApproval approvalId)
  let state ← requireState
  putState { state with
    pendingApprovals := state.pendingApprovals.insert approvalId
      { approvalId, toolCallId, expiresAt, requestedAt := timestamp } }

/-- `SessionRecord::ApprovalResolved`. -/
def applyApprovalResolved (timestamp : ProtocolTimestamp) (approvalId : ApprovalId)
    (decision : ApprovalDecision) : ReducerM Unit := do
  let state ← requireState
  let pending ← okOr state.pendingApprovals[approvalId]? (.invalidReference "pending_approval")
  putState { state with pendingApprovals := state.pendingApprovals.erase approvalId }
  ensure (decide (pending.requestedAt ≤ timestamp) && decide (timestamp < pending.expiresAt))
    (.invalidTransition "expired_approval_resolution")
  let tool ← requireTool pending.toolCallId "approval_resolution_tool_call"
  putTool pending.toolCallId (tool.resolveApproval decision)

/-- `SessionRecord::ToolExecutionStarted`. -/
def applyToolExecutionStarted (toolCallId : ToolCallId) (target : ExecutionTarget)
    (idempotency : ToolIdempotency) : ReducerM Unit :=
  updateTool toolCallId "execution_tool_call"
    (fun tool => tool.authorized && tool.execution.isNotStarted) "tool_execution_start"
    (·.start target idempotency)

/-- `SessionRecord::ToolExecutionFinished`. -/
def applyToolExecutionFinished (toolCallId : ToolCallId) (isError : Bool)
    (content : List ContentBlock) (error : Option ToolFailure)
    (presentation : Option ToolPresentation) : ReducerM Unit :=
  updateTool toolCallId "tool_terminal_tool_call"
    (fun tool => tool.execution.isStarted || tool.deniedWithoutExecution isError)
    "tool_execution_finish" (·.finish isError content error presentation)

/-- `SessionRecord::ToolExecutionInterrupted`. -/
def applyToolExecutionInterrupted (toolCallId : ToolCallId) (reason : String) :
    ReducerM Unit :=
  updateTool toolCallId "tool_interruption_tool_call" (·.execution.isStarted)
    "tool_execution_interruption" (·.interrupt reason)

/-- `SessionRecord::RunInterrupted`. -/
def applyRunInterrupted (runId : RunId) (turnId : TurnId) (reason : String) :
    ReducerM Unit := do
  let state ← requireState
  ensure (!state.runRecovery.contains runId) (.invalidTransition "duplicate_run_terminal")
  putState { state with
    runRecovery := state.runRecovery.insert runId (.interrupted turnId reason) }

/-- `SessionRecord::RunCancelled`: the map is changed before the duplicate is noticed. -/
def applyRunCancelled (runId : RunId) : ReducerM Unit := do
  let state ← requireState
  putState { state with runRecovery := state.runRecovery.insert runId .cancelled }
  ensure (!state.runRecovery.contains runId) (.invalidTransition "duplicate_run_terminal")

/-- Whether a compaction's source record is in the history of the active branch. -/
def sourceIsActive (r : SessionReducer) (state : MaterializedSessionState)
    (recordId : RecordId) : Bool :=
  match state.activeBranchId with
  | none => r.recordIds.contains recordId
  | some branchId =>
    match r.branchHeads[branchId]? with
    | some head => head.history.contains recordId
    | none => false

/-- `SessionRecord::SessionCompacted`. -/
def applySessionCompacted (summary : CanonicalMessage) (compactedThroughRecordId : RecordId) :
    ReducerM Unit := do
  let r ← get
  let state ← requireState
  ensure summary.isAssistant (.invalidTransition "compaction_summary_role")
  ensure (r.sourceIsActive state compactedThroughRecordId)
    (.invalidReference "compaction_source")
  insertMessageId summary.messageId
  putState (state.setCompaction summary compactedThroughRecordId)

/-- `SessionRecord::TurnCheckpointed`. -/
def applyTurnCheckpointed (recordId : RecordId) (sequence : SessionSequence) (runId : RunId)
    (turnId : TurnId) (nextAction : NextTurnAction) : ReducerM Unit := do
  let state ← requireState
  putState { state with
    latestCheckpoint := some { runId, turnId, recordId, sequence, nextAction } }

/-- The `match` of `apply_record` on the record kind. -/
def dispatchRecord (envelope : RecordEnvelope) : ReducerM Unit :=
  match envelope.record with
  | .sessionCreated .. => throw .invalidCreation
  | .messageCommitted message => applyMessageCommitted message
  | .configurationChanged model profileId reasoningEffort =>
    applyConfigurationChanged model profileId reasoningEffort
  | .toolCallRequested toolCallId toolName arguments =>
    applyToolCallRequested toolCallId toolName arguments
  | .policyDecisionRecorded toolCallId decision =>
    applyPolicyDecisionRecorded toolCallId decision
  | .approvalRequested approvalId toolCallId expiresAt =>
    applyApprovalRequested envelope.timestamp approvalId toolCallId expiresAt
  | .approvalResolved approvalId decision =>
    applyApprovalResolved envelope.timestamp approvalId decision
  | .toolExecutionStarted toolCallId target idempotency =>
    applyToolExecutionStarted toolCallId target idempotency
  | .toolExecutionFinished toolCallId isError content error presentation =>
    applyToolExecutionFinished toolCallId isError content error presentation
  | .toolExecutionInterrupted toolCallId reason =>
    applyToolExecutionInterrupted toolCallId reason
  | .runInterrupted runId turnId reason => applyRunInterrupted runId turnId reason
  | .runCancelled runId => applyRunCancelled runId
  | .branchCreated .. | .activeBranchChanged _ =>
    throw (.invalidTransition "branching_not_applied")
  | .sessionCompacted summary compactedThroughRecordId =>
    applySessionCompacted summary compactedThroughRecordId
  | .turnCheckpointed runId turnId nextAction =>
    applyTurnCheckpointed envelope.recordId envelope.sequence runId turnId nextAction

/-- `SessionReducer::apply_record`. -/
def applyRecord (envelope : RecordEnvelope) : ReducerM Unit := do
  let _ ← requireState
  dispatchRecord envelope

/-! ### Branches and the envelope -/

/-- `SessionReducer::validate_envelope`. -/
def validateEnvelope (envelope : RecordEnvelope) : ReducerM Unit := do
  let state ← requireState
  ensure (envelope.sessionId == state.sessionId)
    (.sessionMismatch state.sessionId envelope.sessionId)
  let expected ← okOr (checkedNext state.tailSequence) .sequenceOverflow
  ensure (envelope.sequence == expected) (.sequenceMismatch expected envelope.sequence)

/-- The record changes the set of branches or the active one, and is not scoped to the active
branch. -/
def isBranchRecord : SessionRecord → Bool
  | .branchCreated .. | .activeBranchChanged _ => true
  | _ => false

/-- `SessionReducer::validate_branch_scope`. -/
def validateBranchScope (envelope : RecordEnvelope) : ReducerM Unit := do
  let state ← requireState
  ensure (isBranchRecord envelope.record || envelope.branchId == state.activeBranchId)
    (.invalidReference "inactive_branch")

/-- The tool calls the visible transcript declares. -/
def transcriptToolCalls (messages : List CanonicalMessage) : BTreeSet ToolCallId :=
  (∅ : BTreeSet ToolCallId).insertMany
    ((messages.flatMap CanonicalMessage.declaredToolCalls).map (·.1))

/-- `SessionReducer::capture_active_branch`. -/
def captureActiveBranch (recordId : RecordId) (historical : Option HistoricalSnapshots) :
    ReducerM (Option HistoricalSnapshots) := do
  let state ← requireState
  match state.activeBranchId with
  | none => return historical
  | some branchId =>
    let r ← get
    let head ← okOr r.branchHeads[branchId]? (.invalidReference "active_branch")
    let head :=
      { projection := BranchProjection.capture state
        history := head.history.insert recordId
        declaredToolCalls := transcriptToolCalls state.messages : BranchSnapshot }
    modify fun r => { r with branchHeads := r.branchHeads.insert branchId head }
    let summary ← okOr state.branches[branchId]? (.invalidReference "active_branch_summary")
    putState { state with branches := state.branches.insert branchId (summary.setLeaf recordId) }
    return historical.map (·.capture recordId head)

/-- How a branch creation finds the snapshot of an older record when it has no table of captured
ones. -/
abbrev ReplaySnapshot :=
  SessionReducer → BranchId → RecordId → Except SessionReplayError (Option BranchSnapshot)

/-- The snapshot a branch starts from: from the table when there is one, by replay otherwise. -/
def forkSnapshot (replaySnapshot : ReplaySnapshot) (historical : Option HistoricalSnapshots)
    (r : SessionReducer) (source : BranchId) (fromRecordId : RecordId) :
    Except SessionReplayError (Option BranchSnapshot) :=
  match historical with
  | some historical => .ok (historical.get fromRecordId)
  | none => replaySnapshot r source fromRecordId

/-- `SessionReducer::apply_branch_created`. -/
def applyBranchCreated (replaySnapshot : ReplaySnapshot) (envelope : RecordEnvelope)
    (source branchId : BranchId) (fromRecordId : RecordId)
    (historical : Option HistoricalSnapshots) : ReducerM (Option HistoricalSnapshots) := do
  let r ← get
  ensure (!r.branchHeads.contains branchId) (.duplicateEntity "branch")
  let sourceHead ← okOr r.branchHeads[source]? (.invalidReference "source_branch")
  ensure (sourceHead.history.contains fromRecordId)
    (.invalidReference "fork_point_outside_source_branch")
  let found ← propagate (forkSnapshot replaySnapshot historical r source fromRecordId)
  let sourceSnapshot ← okOr found (.invalidReference "fork_record_snapshot")
  ensure sourceSnapshot.safeToFork (.invalidTransition "unsafe_fork_point")
  let newSnapshot :=
    { sourceSnapshot with history := sourceSnapshot.history.insert envelope.recordId }
  modify fun r => { r with branchHeads := r.branchHeads.insert branchId newSnapshot }
  let state ← requireState
  putState { state with
    branches := state.branches.insert branchId
      { branchId, sourceBranchId := some source, fromRecordId,
        leafRecordId := envelope.recordId } }
  return historical.map (·.capture envelope.recordId newSnapshot)

/-- `SessionReducer::apply_active_branch_changed`. -/
def applyActiveBranchChanged (envelope : RecordEnvelope) (branchId : BranchId)
    (historical : Option HistoricalSnapshots) : ReducerM (Option HistoricalSnapshots) := do
  let r ← get
  let head ← okOr r.branchHeads[branchId]? (.invalidReference "active_branch_change")
  let state ← requireState
  let head := { head with history := head.history.insert envelope.recordId }
  let state := { head.projection.install state with activeBranchId := some branchId }
  modify fun r => { r with branchHeads := r.branchHeads.insert branchId head }
  putState state
  let summary ← okOr state.branches[branchId]? (.invalidReference "active_branch_summary")
  putState { state with
    branches := state.branches.insert branchId (summary.setLeaf envelope.recordId) }
  return historical.map (·.capture envelope.recordId head)

/-- `SessionReducer::apply_creation`. -/
def applyCreation (envelope : RecordEnvelope) (historical : Option HistoricalSnapshots) :
    ReducerM (Option HistoricalSnapshots) := do
  ensure (envelope.sequence == 0) (.sequenceMismatch 0 envelope.sequence)
  match envelope.record with
  | .sessionCreated profileId metadata =>
    let state := newState envelope.recordId envelope.sessionId envelope.sequence profileId
      metadata envelope.branchId
    putState state
    let historical ← match envelope.branchId with
      | none => pure historical
      | some branchId => do
        let snapshot :=
          { projection := BranchProjection.capture state
            history := (∅ : BTreeSet RecordId).insert envelope.recordId
            declaredToolCalls := ∅ : BranchSnapshot }
        modify fun r => { r with branchHeads := r.branchHeads.insert branchId snapshot }
        pure (historical.map (·.capture envelope.recordId snapshot))
    modify fun r => { r with recordIds := r.recordIds.insert envelope.recordId }
    return historical
  | _ => throw .invalidCreation

/-- Whether the record is `SessionCreated`. -/
def isSessionCreated : SessionRecord → Bool
  | .sessionCreated .. => true
  | _ => false

/-- The dispatch of `apply_inner_with_history` on the record kind. -/
def applyScoped (replaySnapshot : ReplaySnapshot) (envelope : RecordEnvelope)
    (historical : Option HistoricalSnapshots) : ReducerM (Option HistoricalSnapshots) :=
  match envelope.record with
  | .branchCreated source branchId fromRecordId =>
    applyBranchCreated replaySnapshot envelope source branchId fromRecordId historical
  | .activeBranchChanged branchId => applyActiveBranchChanged envelope branchId historical
  | _ => do
    applyRecord envelope
    captureActiveBranch envelope.recordId historical

/-- The last step of `apply_inner_with_history`: the record becomes the tail of the log. -/
def advanceTail (envelope : RecordEnvelope) : ReducerM Unit := do
  let state ← requireState
  putState { state with
    tailSequence := envelope.sequence
    tailRecordId := envelope.recordId }
  modify fun r => { r with recordIds := r.recordIds.insert envelope.recordId }

/-- `SessionReducer::apply_inner_with_history`. -/
def applyInnerWithHistory (replaySnapshot : ReplaySnapshot) (envelope : RecordEnvelope)
    (historical : Option HistoricalSnapshots) : ReducerM (Option HistoricalSnapshots) := do
  let r ← get
  ensure (!r.recordIds.contains envelope.recordId) (.duplicateRecord envelope.recordId)
  if r.state.isNone then
    applyCreation envelope historical
  else
    validateEnvelope envelope
    ensure (!isSessionCreated envelope.record) .invalidCreation
    validateBranchScope envelope
    let historical ← applyScoped replaySnapshot envelope historical
    advanceTail envelope
    return historical

/-- `self.records.push(envelope)`. -/
def push (r : SessionReducer) (envelope : RecordEnvelope) : SessionReducer :=
  { r with records := r.records ++ [envelope] }

/-! ### Replay -/

/-- The loop of `replay_branch_snapshot`: replay a prefix with a table of captured snapshots. The
table is always present, so the replay a branch creation could ask for is never run. -/
def replayCapturing :
    List RecordEnvelope → SessionReducer → HistoricalSnapshots →
      Except SessionReplayError (SessionReducer × HistoricalSnapshots)
  | [], replay, historical => .ok (replay, historical)
  | record :: records, replay, historical =>
    match applyInnerWithHistory (fun _ _ _ => .ok none) record (some historical) replay with
    | .ok captured replay =>
      replayCapturing records (replay.push record) (captured.getD historical)
    | .error error _ => .error error

/-- `SessionReducer::replay_branch_snapshot`. -/
def replayBranchSnapshot : ReplaySnapshot := fun r source fromRecordId =>
  match HistoricalSnapshots.forPrefix r.records fromRecordId with
  | none => .ok none
  | some (historical, targetIndex) =>
    match replayCapturing (r.records.take (targetIndex + 1)) new historical with
    | .error error => .error error
    | .ok (replay, historical) => .ok <|
      (historical.get fromRecordId).filter fun snapshot =>
        (match replay.branchHeads[source]? with
          | some head => head.history.contains fromRecordId
          | none => false) && snapshot.history.contains fromRecordId

/-- `SessionReducer::apply_inner`. -/
def applyInner (envelope : RecordEnvelope) : ReducerM Unit := do
  let _ ← applyInnerWithHistory replayBranchSnapshot envelope none

/-- The loop of `restore_durable_state`; `none` is the panic of its `expect`. -/
def replayAccepted : List RecordEnvelope → SessionReducer → Option SessionReducer
  | [], restored => some restored
  | record :: records, restored =>
    match applyInner record restored with
    | .ok _ restored => replayAccepted records (restored.push record)
    | .error _ _ => none

/-- `SessionReducer::restore_durable_state`: rebuild the reducer from its record list. -/
def restoreDurableState (r : SessionReducer) : Option SessionReducer :=
  replayAccepted r.records new

/-- `SessionReducer::apply`. -/
def apply (envelope : RecordEnvelope) : EStateM (Abort SessionReplayError) SessionReducer Unit :=
  fun r =>
    match applyInner envelope r with
    | .ok _ r => .ok () (r.push envelope)
    | .error error r =>
      match restoreDurableState r with
      | some restored => .error (.error error) restored
      | none => .error (.panic "previously accepted records remain replayable") r

/-- Apply a list of records, stopping at the first that is refused. -/
def applyAll : List RecordEnvelope → EStateM (Abort SessionReplayError) SessionReducer Unit
  | [] => pure ()
  | record :: records => do
    apply record
    applyAll records

/-- `SessionReducer::replay_reducer`. -/
def replayReducer (records : List RecordEnvelope) :
    Except (Abort SessionReplayError) SessionReducer :=
  match applyAll records new with
  | .error error _ => .error error
  | .ok _ r => if r.state.isNone then .error (.error .emptyLog) else .ok r

/-- `SessionReducer::replay`. -/
def replay (records : List RecordEnvelope) :
    Except (Abort SessionReplayError) MaterializedSessionState :=
  match replayReducer records with
  | .error error => .error error
  | .ok r =>
    match r.state with
    | some state => .ok state
    | none => .error (.error .emptyLog)

end SessionReducer

end TeaRs
