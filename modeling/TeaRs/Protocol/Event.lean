import TeaRs.Protocol.Record

/-!
# Observable events

The events a run emits beside its durable records, after `tea-protocol/src/event.rs`. An
`EventEnvelope` has private fields and is built by `EventEnvelope::new` only, so the check is a
field of the structure. The usage and cost of a finished run are left out: the kernel never reads
them.

## Main definitions

* `AgentEvent`, `AgentEvent.validate`.
* `EventEnvelope`, `EventEnvelope.new`.
-/

namespace TeaRs

/-- `RunStatus`. -/
inductive RunStatus where
  | completed | cancelled | failed | interrupted
  deriving DecidableEq, Repr

/-- `EventDelta`. -/
inductive EventDelta where
  | textDelta (text : String)
  | thinkingDelta (text : String)
  deriving DecidableEq

/-- `AgentEvent`. -/
inductive AgentEvent where
  | runStarted
  | messageDelta (messageId : MessageId) (contentIndex : Nat) (delta : EventDelta)
  | toolCallRequested (toolCallId : ToolCallId) (toolName : String) (arguments : Value)
  | approvalRequested (approvalId : ApprovalId) (toolCallId : ToolCallId)
      (capabilities resources : List String) (expiresAt : ProtocolTimestamp)
  | toolExecutionProgress (toolCallId : ToolCallId) (message : String) (completedUnits : Nat)
      (totalUnits : Option Nat)
  | toolExecutionPreview (toolCallId : ToolCallId) (presentation : ToolPresentation)
  | hostedToolStarted (toolCallId : ToolCallId) (toolName : String)
  | hostedToolCompleted (toolCallId : ToolCallId) (toolName : String) (arguments : Value)
      (outcome : HostedToolOutcome) (sourceCount : Nat)
  | modelRetryScheduled (messageId : MessageId) (attempt maxRetries delayMs : Nat)
  | modelRetryStarted (messageId : MessageId) (attempt maxRetries : Nat)
  | turnCheckpointed
  | sessionCompacted (summaryMessageId compactedThroughMessageId : MessageId)
  | sessionForked (sourceBranchId branchId : BranchId) (fromMessageId : MessageId)
  | runFinished (status : RunStatus)
  deriving DecidableEq

/-- `EventValidationError`. -/
inductive EventValidationError where
  | invalidDelta
  | invalidToolCall (error : ContentValidationError)
  | invalidApprovalItems
  | invalidProgress
  | invalidHostedToolObservation
  | invalidModelRetry
  | invalidReferences
  deriving DecidableEq, Repr

/-- The `Display` form of an event error. -/
def EventValidationError.text : EventValidationError → String
  | invalidDelta => "streaming delta is invalid"
  | invalidToolCall error => "tool-call event payload is invalid: " ++ error.text
  | invalidApprovalItems => "approval event items are invalid"
  | invalidProgress => "tool progress event is invalid"
  | invalidHostedToolObservation => "hosted tool observation is invalid"
  | invalidModelRetry => "model retry observation is invalid"
  | invalidReferences => "event runId/turnId references do not match the event kind"

def maxEventDeltaBytes : Nat := 64 * 1024
def maxProgressMessageBytes : Nat := 4096
def maxApprovalItems : Nat := 64
def maxApprovalItemBytes : Nat := 1024
def maxHostedToolSources : Nat := 64

/-- `MAX_SAFE_INTEGER`. -/
def maxSafeInteger : Nat := 2 ^ 53 - 1

/-- `validate_items`, as a condition. -/
def isApprovalItems (items : List String) : Bool :=
  !items.isEmpty && decide (items.length ≤ maxApprovalItems) && items.all fun item =>
    !item.isEmpty && decide (item.utf8ByteSize ≤ maxApprovalItemBytes) && !item.toList.any isControl

/-- The progress bounds of `AgentEvent::validate`. -/
def isProgressEvent (message : String) (completedUnits : Nat) (totalUnits : Option Nat) : Bool :=
  isBoundedText maxProgressMessageBytes message && decide (completedUnits ≤ maxSafeInteger) &&
    totalUnits.all fun total => decide (total ≤ maxSafeInteger) && decide (completedUnits ≤ total)

/-- `validate_model_retry`, as a condition. -/
def isModelRetry (attempt maxRetries : Nat) (delayMs : Option Nat) : Bool :=
  decide (0 < attempt) && decide (0 < maxRetries) && decide (attempt ≤ maxRetries) &&
    delayMs.all fun delay => decide (delay ≤ maxSafeInteger)

/-- The check of `ContentBlock::tool_call` that events repeat. -/
def validateToolCallEvent (toolCallId : ToolCallId) (toolName : String) (arguments : Value) :
    Except EventValidationError Unit :=
  match (ContentBlock.toolCall toolCallId none toolName arguments).validate with
  | .ok _ => .ok ()
  | .error error => .error (.invalidToolCall error)

namespace AgentEvent

/-- `AgentEvent::validate`. -/
def validate : AgentEvent → Except EventValidationError Unit
  | messageDelta _ _ (.textDelta text) | messageDelta _ _ (.thinkingDelta text) =>
    if isBoundedText maxEventDeltaBytes text then .ok () else .error .invalidDelta
  | toolCallRequested toolCallId toolName arguments =>
    validateToolCallEvent toolCallId toolName arguments
  | approvalRequested _ _ capabilities resources _ =>
    if isApprovalItems capabilities && isApprovalItems resources then .ok ()
    else .error .invalidApprovalItems
  | toolExecutionProgress _ message completedUnits totalUnits =>
    if isProgressEvent message completedUnits totalUnits then .ok () else .error .invalidProgress
  | hostedToolStarted toolCallId toolName => validateToolCallEvent toolCallId toolName (.object [])
  | hostedToolCompleted toolCallId toolName arguments _ sourceCount => do
    validateToolCallEvent toolCallId toolName arguments
    if maxHostedToolSources < sourceCount then throw .invalidHostedToolObservation
  | modelRetryScheduled _ attempt maxRetries delayMs =>
    if isModelRetry attempt maxRetries (some delayMs) then .ok () else .error .invalidModelRetry
  | modelRetryStarted _ attempt maxRetries =>
    if isModelRetry attempt maxRetries none then .ok () else .error .invalidModelRetry
  | toolExecutionPreview .. | runStarted | turnCheckpointed | sessionCompacted .. | sessionForked ..
  | runFinished _ => .ok ()

/-- Whether an event of this kind names a run, and whether it names a turn. -/
def references : AgentEvent → Bool × Bool
  | runStarted | runFinished _ => (true, false)
  | sessionCompacted .. | sessionForked .. => (false, false)
  | _ => (true, true)

end AgentEvent

/-- `EventEnvelope::validate`. -/
def validateEventEnvelope (runId : Option RunId) (turnId : Option TurnId) (event : AgentEvent) :
    Except EventValidationError Unit := do
  event.validate
  if (runId.isSome, turnId.isSome) ≠ event.references then throw .invalidReferences

/-- `EventEnvelope`: a validated event with its identity and position. The metadata the kernel gives
an event is always empty and is left out. -/
structure EventEnvelope where
  eventId : EventId
  sessionId : SessionId
  runId : Option RunId
  turnId : Option TurnId
  sequence : SessionSequence
  timestamp : ProtocolTimestamp
  event : AgentEvent
  valid : validateEventEnvelope runId turnId event = .ok ()
  deriving DecidableEq

/-- `EventEnvelope::new`. -/
def EventEnvelope.new (eventId : EventId) (sessionId : SessionId) (runId : Option RunId)
    (turnId : Option TurnId) (sequence : SessionSequence) (timestamp : ProtocolTimestamp)
    (event : AgentEvent) : Except EventValidationError EventEnvelope :=
  match h : validateEventEnvelope runId turnId event with
  | .error error => .error error
  | .ok () => .ok { eventId, sessionId, runId, turnId, sequence, timestamp, event, valid := h }

end TeaRs
