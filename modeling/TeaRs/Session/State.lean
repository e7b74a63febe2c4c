import TeaRs.Protocol.Record

/-!
# Materialized session state

The state that replaying a session log produces (`tea-session/src/state.rs`), and the small
setters through which the reducer changes it.

## Main definitions

* `ToolExecutionState`, `ToolCallState`: the lifecycle of one tool call.
* `MaterializedSessionState`: the projection of the log that callers read.
* `CanonicalMessage.declaredToolCalls`: the tool calls an assistant message declares.
-/

namespace TeaRs

/-- `SessionConfiguration`. -/
structure SessionConfiguration where
  model : Option ModelRef
  profileId : ProfileId
  reasoningEffort : Option ReasoningEffort
  deriving DecidableEq

/-- `PendingApproval`. -/
structure PendingApproval where
  approvalId : ApprovalId
  toolCallId : ToolCallId
  expiresAt : ProtocolTimestamp
  requestedAt : ProtocolTimestamp
  deriving DecidableEq

/-- `ToolExecutionState`. -/
inductive ToolExecutionState where
  | notStarted
  | started (executionTarget : ExecutionTarget) (idempotency : ToolIdempotency)
  | finished (isError : Bool) (content : List ContentBlock) (error : Option ToolFailure)
      (presentation : Option ToolPresentation)
  | interrupted (reason : String) (executionTarget : ExecutionTarget)
      (idempotency : ToolIdempotency)
  deriving DecidableEq

namespace ToolExecutionState

/-- `matches!(execution, NotStarted)`. -/
def isNotStarted : ToolExecutionState → Bool
  | notStarted => true
  | _ => false

/-- `matches!(execution, Started { .. })`. -/
def isStarted : ToolExecutionState → Bool
  | started .. => true
  | _ => false

/-- `matches!(execution, Finished { .. })`. -/
def isFinished : ToolExecutionState → Bool
  | finished .. => true
  | _ => false

/-- The call has a durable terminal record: it finished or was interrupted. -/
def isTerminal : ToolExecutionState → Bool
  | finished .. | interrupted .. => true
  | _ => false

theorem isNotStarted_iff {x : ToolExecutionState} : x.isNotStarted = true ↔ x = notStarted := by
  cases x <;> simp [isNotStarted]

theorem isStarted_iff {x : ToolExecutionState} :
    x.isStarted = true ↔ ∃ target idempotency, x = started target idempotency := by
  cases x <;> simp [isStarted]

end ToolExecutionState

/-- `ToolCallState`. -/
structure ToolCallState where
  toolCallId : ToolCallId
  toolName : String
  arguments : Value
  policyDecision : Option PolicyDecision
  approvalId : Option ApprovalId
  approvalDecision : Option ApprovalDecision
  execution : ToolExecutionState
  resultMessageId : Option MessageId
  deriving DecidableEq

/-- `RunRecoveryState`. -/
inductive RunRecoveryState where
  | interrupted (turnId : TurnId) (reason : String)
  | cancelled
  deriving DecidableEq

/-- `TurnCheckpoint`. -/
structure TurnCheckpoint where
  runId : RunId
  turnId : TurnId
  recordId : RecordId
  sequence : SessionSequence
  nextAction : NextTurnAction
  deriving DecidableEq

/-- `SessionCompaction`. -/
structure SessionCompaction where
  summary : CanonicalMessage
  compactedThroughRecordId : RecordId
  deriving DecidableEq

/-- `BranchSummary`. -/
structure BranchSummary where
  branchId : BranchId
  sourceBranchId : Option BranchId
  fromRecordId : RecordId
  leafRecordId : RecordId
  deriving DecidableEq

/-- `BranchSummary::set_leaf`. -/
def BranchSummary.setLeaf (summary : BranchSummary) (recordId : RecordId) : BranchSummary :=
  { summary with leafRecordId := recordId }

/-- `MaterializedSessionState`. -/
structure MaterializedSessionState where
  sessionId : SessionId
  tailSequence : SessionSequence
  tailRecordId : RecordId
  metadata : ProtocolMetadata
  configuration : SessionConfiguration
  messages : List CanonicalMessage
  pendingApprovals : BTreeMap ApprovalId PendingApproval
  toolCalls : BTreeMap ToolCallId ToolCallState
  activeBranchId : Option BranchId
  branches : BTreeMap BranchId BranchSummary
  runRecovery : BTreeMap RunId RunRecoveryState
  latestCheckpoint : Option TurnCheckpoint
  latestCompaction : Option SessionCompaction
  deriving DecidableEq

namespace CanonicalMessage

/-- `message_id`. -/
def messageId : CanonicalMessage → MessageId
  | .user id .. | .assistant id .. | .toolResult id .. => id

/-- A declared tool call of a content block. -/
def declaredToolCall? : ContentBlock → Option (ToolCallId × String × Value)
  | .toolCall toolCallId _ toolName arguments => some (toolCallId, toolName, arguments)
  | _ => none

/-- `declared_tool_calls`: the tool-call blocks of an assistant message, in order. -/
def declaredToolCalls : CanonicalMessage → List (ToolCallId × String × Value)
  | .assistant _ content _ _ => content.filterMap declaredToolCall?
  | .user .. | .toolResult .. => []

/-- `matches!(message, Assistant { .. })`. -/
def isAssistant : CanonicalMessage → Bool
  | .assistant .. => true
  | _ => false

/-- `matches!(message, ToolResult { .. })`. -/
def isToolResult : CanonicalMessage → Bool
  | .toolResult .. => true
  | _ => false

end CanonicalMessage

/-- `new_state`. -/
def newState (recordId : RecordId) (sessionId : SessionId) (sequence : SessionSequence)
    (profileId : ProfileId) (metadata : ProtocolMetadata) (rootBranchId : Option BranchId) :
    MaterializedSessionState where
  sessionId := sessionId
  tailSequence := sequence
  tailRecordId := recordId
  metadata := metadata
  configuration := { model := none, profileId, reasoningEffort := none }
  messages := []
  pendingApprovals := ∅
  toolCalls := ∅
  activeBranchId := rootBranchId
  branches :=
    match rootBranchId with
    | none => ∅
    | some branchId =>
      (∅ : BTreeMap BranchId BranchSummary).insert branchId
        { branchId, sourceBranchId := none, fromRecordId := recordId, leafRecordId := recordId }
  runRecovery := ∅
  latestCheckpoint := none
  latestCompaction := none

/-- `new_tool_call`. -/
def newToolCall (toolCallId : ToolCallId) (toolName : String) (arguments : Value) :
    ToolCallState where
  toolCallId := toolCallId
  toolName := toolName
  arguments := arguments
  policyDecision := none
  approvalId := none
  approvalDecision := none
  execution := .notStarted
  resultMessageId := none

namespace ToolCallState

/-- `set_policy`. -/
def setPolicy (tool : ToolCallState) (decision : PolicyDecision) : ToolCallState :=
  { tool with policyDecision := some decision }

/-- `set_approval`. -/
def setApproval (tool : ToolCallState) (approvalId : ApprovalId) : ToolCallState :=
  { tool with approvalId := some approvalId }

/-- `resolve_approval`. -/
def resolveApproval (tool : ToolCallState) (decision : ApprovalDecision) : ToolCallState :=
  { tool with approvalDecision := some decision }

/-- `start_tool`. -/
def start (tool : ToolCallState) (target : ExecutionTarget) (idempotency : ToolIdempotency) :
    ToolCallState :=
  { tool with execution := .started target idempotency }

/-- `finish_tool`. -/
def finish (tool : ToolCallState) (isError : Bool) (content : List ContentBlock)
    (error : Option ToolFailure) (presentation : Option ToolPresentation) : ToolCallState :=
  { tool with execution := .finished isError content error presentation }

/-- `commit_tool_result`. -/
def commitResult (tool : ToolCallState) (messageId : MessageId) : ToolCallState :=
  { tool with resultMessageId := some messageId }

/-- `interrupt_tool`: only a started call is interrupted. -/
def interrupt (tool : ToolCallState) (reason : String) : ToolCallState :=
  match tool.execution with
  | .started target idempotency =>
    { tool with execution := .interrupted reason target idempotency }
  | _ => tool

end ToolCallState

/-- `set_model`, `set_profile` and `set_reasoning_effort`, each applied when the change names a
value. -/
def SessionConfiguration.change (configuration : SessionConfiguration) (model : Option ModelRef)
    (profileId : Option ProfileId) (reasoningEffort : Option ReasoningEffort) :
    SessionConfiguration where
  model := model <|> configuration.model
  profileId := profileId.getD configuration.profileId
  reasoningEffort := reasoningEffort <|> configuration.reasoningEffort

/-- `set_compaction`: the summary replaces the visible transcript. -/
def MaterializedSessionState.setCompaction (state : MaterializedSessionState)
    (summary : CanonicalMessage) (compactedThroughRecordId : RecordId) :
    MaterializedSessionState :=
  { state with
    messages := [summary]
    latestCompaction := some { summary, compactedThroughRecordId } }

/-- `validate_new_run_state`, with the message of the error: no approval and no tool outcome is
pending. -/
def MaterializedSessionState.validateNewRunState (state : MaterializedSessionState) :
    Except String Unit :=
  if !state.pendingApprovals.isEmpty then
    .error "session has a pending approval; resume it explicitly"
  else if (BTreeMap.valueList state.toolCalls).any (·.resultMessageId.isNone) then
    .error "session has an incomplete or uncertain tool outcome"
  else .ok ()

end TeaRs
