import TeaRs.Protocol.Content

/-!
# Durable session records

The records of the append-only session log and their envelopes, after
`tea-protocol/src/record.rs`. A `RecordEnvelope` has private fields and can only be built through
`RecordEnvelope::new` or a decoder that runs the same check, so the check is a field of the
structure here. The content of committed messages is not part of that check: the constructors of
`CanonicalMessage` are public, and only encoding validates a message again.

## Main definitions

* `SessionRecord`: the sixteen record kinds.
* `SessionRecord.validate`, `validateEnvelope`: the checks of the source.
* `RecordEnvelope`, `RecordEnvelope.new`.
-/

namespace TeaRs

/-! ### Tool presentations -/

/-- `CodeChangeKind`. -/
inductive CodeChangeKind where
  | create | update | delete
  deriving DecidableEq, Repr

/-- `CodeChangeTruncation`. -/
inductive CodeChangeTruncation where
  | hunks | lines | lineBytes | patchBytes
  deriving DecidableEq, Repr

/-- `CodeChangeLineKind`. -/
inductive CodeChangeLineKind where
  | context | addition | deletion
  deriving DecidableEq, Repr

/-- `CodeChangeLine`. -/
structure CodeChangeLine where
  kind : CodeChangeLineKind
  oldLine : Option Nat
  newLine : Option Nat
  text : String
  deriving DecidableEq

/-- `CodeChangeHunk`. -/
structure CodeChangeHunk where
  oldStart : Nat
  oldLines : Nat
  newStart : Nat
  newLines : Nat
  lines : List CodeChangeLine
  deriving DecidableEq

/-- `CodeChange`. -/
structure CodeChange where
  path : String
  kind : CodeChangeKind
  hunks : List CodeChangeHunk
  truncated : Bool
  truncation : Option CodeChangeTruncation
  patch : Option String
  firstChangedLine : Option Nat
  deriving DecidableEq

/-- `WebFetchTruncation`. -/
inductive WebFetchTruncation where
  | compressedBytes | decodedBytes | bodyCharacters | parserComplexity
  deriving DecidableEq, Repr

/-- `WebFetchRedirect`; `origin` and `target` are the source's `from` and `to`. -/
structure WebFetchRedirect where
  origin : String
  target : String
  status : Nat
  deriving DecidableEq

/-- `WebFetchPresentation`. -/
structure WebFetchPresentation where
  requestedUrl : String
  finalUrl : String
  title : Option String
  mimeType : String
  body : String
  truncation : Option WebFetchTruncation
  redirects : List WebFetchRedirect
  deriving DecidableEq

/-- `ToolPresentation`. -/
inductive ToolPresentation where
  | codeChange (change : CodeChange)
  | webFetch (fetch : WebFetchPresentation)
  deriving DecidableEq

/-! ### Records -/

/-- `ProfileId`. -/
structure ProfileId where
  value : String
  deriving DecidableEq

/-- `ModelRef`: a provider and a provider-local model. -/
structure ModelRef where
  providerId : String
  modelId : String
  deriving DecidableEq

/-- `ReasoningEffort`. -/
inductive ReasoningEffort where
  | off | minimal | low | medium | high | extraHigh | maximum
  deriving DecidableEq, Repr

/-- `PolicyDecision`, the recorded outcome of a policy evaluation. -/
inductive PolicyDecision where
  | allow | deny | requireApproval
  deriving DecidableEq, Repr

/-- `ApprovalDecision`. -/
inductive ApprovalDecision where
  | allowOnce | allowSession | deny
  deriving DecidableEq, Repr

/-- `ExecutionTarget`. -/
inductive ExecutionTarget where
  | native | mcp | remote
  deriving DecidableEq, Repr

/-- `ToolIdempotency`. -/
inductive ToolIdempotency where
  | idempotent | nonIdempotent | externallyReconciled
  deriving DecidableEq, Repr

/-- `NextTurnAction`. -/
inductive NextTurnAction where
  | modelRequest | waitForApproval | finishRun
  deriving DecidableEq, Repr

/-- `SessionRecord`: one durable fact. -/
inductive SessionRecord where
  | sessionCreated (profileId : ProfileId) (metadata : ProtocolMetadata)
  | messageCommitted (message : CanonicalMessage)
  | configurationChanged (model : Option ModelRef) (profileId : Option ProfileId)
      (reasoningEffort : Option ReasoningEffort)
  | toolCallRequested (toolCallId : ToolCallId) (toolName : String) (arguments : Value)
  | policyDecisionRecorded (toolCallId : ToolCallId) (decision : PolicyDecision)
  | approvalRequested (approvalId : ApprovalId) (toolCallId : ToolCallId)
      (expiresAt : ProtocolTimestamp)
  | approvalResolved (approvalId : ApprovalId) (decision : ApprovalDecision)
  | toolExecutionStarted (toolCallId : ToolCallId) (executionTarget : ExecutionTarget)
      (idempotency : ToolIdempotency)
  | toolExecutionFinished (toolCallId : ToolCallId) (isError : Bool)
      (content : List ContentBlock) (error : Option ToolFailure)
      (presentation : Option ToolPresentation)
  | toolExecutionInterrupted (toolCallId : ToolCallId) (reason : String)
  | runInterrupted (runId : RunId) (turnId : TurnId) (reason : String)
  | runCancelled (runId : RunId)
  | branchCreated (sourceBranchId branchId : BranchId) (fromRecordId : RecordId)
  | activeBranchChanged (branchId : BranchId)
  | sessionCompacted (summary : CanonicalMessage) (compactedThroughRecordId : RecordId)
  | turnCheckpointed (runId : RunId) (turnId : TurnId) (nextAction : NextTurnAction)
  deriving DecidableEq

/-- `RecordValidationError`. -/
inductive RecordValidationError where
  | emptyConfigurationChange
  | invalidToolCall (error : ContentValidationError)
  | toolArgumentsMustBeObject
  | toolArgumentsOutOfBounds (error : ProtocolMetadataError)
  | invalidToolResultContent
  | branchReferenceMismatch
  | inconsistentToolFailure
  | presentationOnFailure
  | invalidInterruptionReason
  deriving DecidableEq, Repr

/-- The `Display` form of a record error. -/
def RecordValidationError.text : RecordValidationError → String
  | emptyConfigurationChange => "configuration_changed must include modelId or profileId"
  | invalidToolCall error => "tool call is invalid: " ++ error.text
  | toolArgumentsMustBeObject => "tool arguments must be a JSON object"
  | toolArgumentsOutOfBounds error => "tool arguments exceed protocol bounds: " ++ error.text
  | invalidToolResultContent => "tool terminal content is invalid"
  | branchReferenceMismatch => "record envelope branchId must match the branch payload"
  | inconsistentToolFailure => "tool terminal isError must match error presence"
  | presentationOnFailure => "failed tool execution cannot include a presentation"
  | invalidInterruptionReason => "interruption reason is invalid"

def maxRecordContentBlocks : Nat := 256

/-- `validate_result_content`. -/
def validateResultContent (content : List ContentBlock) : Except RecordValidationError Unit :=
  if content.isEmpty || decide (maxRecordContentBlocks < content.length) ||
      !content.all ContentBlock.validForToolResult then .error .invalidToolResultContent
  else
    match content.forM ContentBlock.validate with
    | .ok _ => .ok ()
    | .error error => .error (.invalidToolCall error)

/-- `validate_reason`. -/
def validateReason (reason : String) : Except RecordValidationError Unit :=
  if isBoundedText 4096 reason then .ok () else .error .invalidInterruptionReason

/-- `SessionRecord::validate`. -/
def SessionRecord.validate : SessionRecord → Except RecordValidationError Unit
  | .configurationChanged none none none => .error .emptyConfigurationChange
  | .toolCallRequested _ toolName arguments => do
    match validateToolName toolName with
    | .ok _ => pure ()
    | .error error => throw (.invalidToolCall error)
    unless arguments.isObject do throw .toolArgumentsMustBeObject
    match validateJsonBounds arguments maxToolArgumentBytes maxToolArgumentDepth with
    | .ok _ => pure ()
    | .error error => throw (.toolArgumentsOutOfBounds error)
  | .toolExecutionFinished _ isError content error presentation => do
    validateResultContent content
    if isError != error.isSome then throw .inconsistentToolFailure
    if isError && presentation.isSome then throw .presentationOnFailure
  | .toolExecutionInterrupted _ reason | .runInterrupted _ _ reason => validateReason reason
  | _ => .ok ()

/-- `RecordEnvelope::validate`: the record itself, and that a branch record is scoped to the
branch it names. -/
def validateEnvelope (branchId : Option BranchId) (record : SessionRecord) :
    Except RecordValidationError Unit := do
  record.validate
  match record with
  | .branchCreated _ branch _ | .activeBranchChanged branch =>
    if branchId ≠ some branch then throw .branchReferenceMismatch
  | _ => pure ()

/-- `ProtocolVersion`. -/
structure ProtocolVersion where
  major : Nat
  minor : Nat
  deriving DecidableEq, Repr

/-- `CURRENT_PROTOCOL_VERSION`. -/
def currentProtocolVersion : ProtocolVersion := ⟨1, 0⟩

/-- `RecordEnvelope`: a validated record with its identity, position and scope. -/
structure RecordEnvelope where
  protocolVersion : ProtocolVersion
  recordId : RecordId
  sessionId : SessionId
  sequence : SessionSequence
  timestamp : ProtocolTimestamp
  causationId : Option CausationId
  correlationId : Option CorrelationId
  branchId : Option BranchId
  metadata : ProtocolMetadata
  record : SessionRecord
  valid : validateEnvelope branchId record = .ok ()
  deriving DecidableEq

/-- `RecordEnvelope::new`. -/
def RecordEnvelope.new (recordId : RecordId) (sessionId : SessionId) (sequence : SessionSequence)
    (timestamp : ProtocolTimestamp) (causationId : Option CausationId)
    (correlationId : Option CorrelationId) (branchId : Option BranchId)
    (metadata : ProtocolMetadata) (record : SessionRecord) :
    Except RecordValidationError RecordEnvelope :=
  match h : validateEnvelope branchId record with
  | .error error => .error error
  | .ok () => .ok
    { protocolVersion := currentProtocolVersion
      recordId, sessionId, sequence, timestamp, causationId, correlationId, branchId, metadata
      record, valid := h }

end TeaRs
