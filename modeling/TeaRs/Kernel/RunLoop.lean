import TeaRs.Kernel.ToolTurn

/-!
# Runs

An invocation of the kernel: a new run, or the resumption of a run that waits for an approval. The
loop of a run requests model turns and processes their tool calls until the model finishes, a call
asks for an approval, or something fails. Every iteration of the loop either advances the count of
tool iterations or compacts the session, which it does once, so the loop is run with as much fuel as
its limits allow; running out of fuel would be a panic.

## Main definitions

* `AgentKernel.streamTurn`: one model turn.
* `AgentKernel.runLoop`: model turns until the run ends or pauses.
* `AgentKernel.run`: a new run.
* `remainingToolCalls`, `AgentKernel.resumeApproval`: the resumption of a paused run.
-/

namespace TeaRs

open StateError

/-! ### Model turns -/

/-- `ModelTurnOutput`, with the stop reason of its completion. -/
structure ModelTurnOutput where
  message : CanonicalMessage
  toolCalls : List CompletedToolCall
  stopReason : StopReason
  outputBytes : Nat
  deriving DecidableEq

/-- `model_contract`. -/
def modelContract (message : String) : KernelError := .new .modelFailure message

/-- The completed tool call of a content block. -/
def completedToolCall? : ContentBlock → Option CompletedToolCall
  | .toolCall toolCallId _ toolName arguments => some ⟨toolCallId, toolName, arguments⟩
  | _ => none

/-- `finish_turn`, from the content the stream left. -/
def finishTurn (messageId : MessageId) (timestamp : ProtocolTimestamp) (content : List ContentBlock)
    (stopReason : StopReason) (outputBytes : Nat) : Except KernelError ModelTurnOutput := do
  if content.isEmpty then throw (modelContract "model completion contains no content")
  let toolCalls := content.filterMap completedToolCall?
  if (!toolCalls.isEmpty) != (stopReason == .toolUse) then
    throw (modelContract "model stop reason does not match completed tool calls")
  match CanonicalMessage.newAssistant messageId content stopReason timestamp with
  | .error error => throw (.ofMessage error)
  | .ok message => return { message, toolCalls, stopReason, outputBytes }

/-- `RunProgress`, without the turn that is ended when the loop fails at once. -/
structure RunProgress where
  toolIterations : Nat
  assistantOutputBytes : Nat
  deadline : ProtocolTimestamp
  preparedTurnId : Option TurnId
  deriving DecidableEq

namespace RunProgress

/-- `RunProgress::output_budget`. -/
def outputBudget (progress : RunProgress) (config : KernelRunConfig) : Except KernelError Nat :=
  if progress.assistantOutputBytes ≤ config.limits.maxAssistantOutputBytes then
    .ok (config.limits.maxAssistantOutputBytes - progress.assistantOutputBytes)
  else .error (.new .limitExceeded "assistant output byte limit was reached")

/-- `RunProgress::observe_output`. -/
def observeOutput (progress : RunProgress) (bytes : Nat) : Except KernelError RunProgress :=
  match checkedAdd progress.assistantOutputBytes bytes with
  | some assistantOutputBytes => .ok { progress with assistantOutputBytes }
  | none => .error (.new .limitExceeded "assistant output byte count cannot advance")

/-- `RunProgress::advance_tools`. -/
def advanceTools (progress : RunProgress) (config : KernelRunConfig) :
    Except KernelError RunProgress :=
  if 2 ^ 32 ≤ progress.toolIterations + 1 then
    .error (.new .limitExceeded "tool iteration count cannot advance")
  else if config.limits.maxToolIterations < progress.toolIterations + 1 then
    .error (.new .limitExceeded "tool iteration limit was reached")
  else .ok { progress with toolIterations := progress.toolIterations + 1 }

end RunProgress

/-! ### The final output -/

/-- `KernelError::malformed_response`. -/
def malformedResponse (message : String) : KernelError := .new .modelFailure message

/-- The text that a structured final output is read from. -/
def finalOutputText : List ContentBlock → Except KernelError String
  | [] => .ok ""
  | .text text :: rest => return text ++ (← finalOutputText rest)
  | .thinking _ :: rest | .hostedTool _ :: rest | .citation _ :: rest => finalOutputText rest
  | .contextualText _ :: _ | .image .. :: _ | .toolCall .. :: _ =>
    .error (malformedResponse "structured output contains unsupported content")

namespace AgentKernel

variable (kernel : AgentKernel)

/-- `validate_final_output`. -/
def validateFinalOutput (format : CompiledFinalOutputFormat) (output : ModelTurnOutput) :
    Except KernelError Unit := do
  if output.stopReason ≠ .completed then
    throw (malformedResponse "structured output did not complete normally")
  match output.message with
  | .assistant _ content _ _ =>
    let text ← finalOutputText content
    if text.isEmpty then throw (malformedResponse "structured output contains no JSON text")
    match kernel.parseJson text with
    | none => throw (malformedResponse "structured output is not valid JSON")
    | some value =>
      match format with
      | .jsonObject =>
        unless value.isObject do
          throw (malformedResponse "structured output is not a JSON object")
      | .jsonSchema _ accepts =>
        unless accepts value do
          throw (malformedResponse "structured output violates its JSON Schema")
  | .user .. | .toolResult .. =>
    throw (malformedResponse "structured output is not an assistant message")

/-- `stream_turn`, with the stream of the provider as one answer. -/
def streamTurn (runId : RunId) (turnId : TurnId) (deadline : ProtocolTimestamp)
    (outputBudget : Nat) : PortM ModelTurnOutput := do
  let messageId ← callPort kernel.ids.nextMessageId
  let call ← countCall
  let turn := kernel.models.streamTurn call messageId deadline outputBudget
  kernel.emitAll runId turnId turn.events
  let (content, stopReason, outputBytes) ← check turn.result
  let timestamp ← callPort kernel.clock.now
  check (finishTurn messageId timestamp content stopReason outputBytes)

/-! ### Parts of the loop -/

/-- The model that a session selects, if the router has it. -/
def selectModel (state : MaterializedSessionState) : Except KernelError Unit := do
  match state.configuration.model with
  | none => throw (.new .invalidModel "session has no active model")
  | some model =>
    unless kernel.models.provider model.providerId do
      throw (.new .invalidModel "active model provider is not registered")
    unless kernel.models.model model do
      throw (.new .invalidModel "active model is not advertised by its provider")

/-- `preflight_model_request`. -/
def preflightModelRequest (snapshot : SessionSnapshot) (config : KernelRunConfig) :
    Except KernelError Unit := do
  kernel.selectModel snapshot.state
  kernel.models.buildRequest snapshot.state [] config

/-- `checkpoint_model_request`. The loop of a run has the same steps inline. -/
def checkpointModelRequest (snapshot : SessionSnapshot) (runId : RunId) (turnId : TurnId) :
    KernelM SessionSnapshot := do
  let snapshot ← kernel.appendRecords snapshot [.turnCheckpointed runId turnId .modelRequest]
  onPort (kernel.emit (some runId) (some turnId) .turnCheckpointed)
  return snapshot

/-- The message that queued steering is joined to. -/
def steeringMessage (steering : List String) : PortM CanonicalMessage := do
  let messageId ← callPort kernel.ids.nextMessageId
  let text := "\n".intercalate steering
  match validateText text with
  | .error error => fail (.ofContent error)
  | .ok _ =>
    let timestamp ← callPort kernel.clock.now
    match CanonicalMessage.newUser messageId [.text text] timestamp with
    | .error error => fail (.ofMessage error)
    | .ok message => return message

/-- `apply_queued_input`. -/
def applyQueuedInput (snapshot : SessionSnapshot) (config : KernelRunConfig) :
    KernelM SessionSnapshot :=
  match kernel.inputQueue with
  | none => pure snapshot
  | some queue => do
    let queued ← onPort (callPort queue.snapshot)
    if queued.followUps.isEmpty && queued.steering.isEmpty then pure snapshot
    else do
      let steering ←
        if queued.steering.isEmpty then pure []
        else do pure [← onPort (kernel.steeringMessage queued.steering)]
      let messages := steering ++ queued.followUps
      check (kernel.models.buildRequest snapshot.state messages config)
      let snapshot ← kernel.appendRecords snapshot (messages.map .messageCommitted)
      onPort (callPort fun call => queue.acknowledge call queued)
      return snapshot

/-- `AgentKernel::compact`. -/
def compact (sessionId : SessionId) (summary : CanonicalMessage) (through : RecordId) :
    KernelM SessionSnapshot := do
  let snapshot ← onStore (InMemorySessionStore.load sessionId)
  match snapshot.state.validateNewRunState with
  | .error message => fail (.new .invalidState message)
  | .ok _ =>
    let timestamp ← onPort (callPort kernel.clock.now)
    let envelopes ← onPort (kernel.envelopesAfter snapshot timestamp
      (withoutMetadata [.sessionCompacted summary through]))
    commit snapshot
      { sessionId
        expectedSequence := some snapshot.state.tailSequence
        records := envelopes
        expectedJournalRevision := some snapshot.journalRevision
        approvalArtifacts := []
        grantEntries := [] }

/-- The records of `commit_declarations`: the message of a turn and the calls it declares, each with
its audit metadata. -/
def declarationRecords (sessionId : SessionId) (output : ModelTurnOutput) :
    Except KernelError (List (ProtocolMetadata × SessionRecord)) := do
  let requests ← output.toolCalls.mapM fun call => do
    let metadata ←
      match prepare kernel.tools call (toolExecutionMetadata sessionId) with
      | .valid invocation => kernel.auditMetadata invocation
      | .rejected .. => pure ∅
    return (metadata, SessionRecord.toolCallRequested call.toolCallId call.toolName call.arguments)
  return (∅, .messageCommitted output.message) :: requests

/-- `commit_declarations`. -/
def commitDeclarations (snapshot : SessionSnapshot) (output : ModelTurnOutput) (runId : RunId)
    (turnId : TurnId) : KernelM SessionSnapshot := do
  let records ← check (kernel.declarationRecords snapshot.state.sessionId output)
  let snapshot ← kernel.appendRecordsWithMetadata snapshot records
  onPort (kernel.emitAll runId turnId (output.toolCalls.map fun call =>
    .toolCallRequested call.toolCallId call.toolName call.arguments))
  return snapshot

/-- `finish`. -/
def finish (snapshot : SessionSnapshot) (output : ModelTurnOutput) (runId : RunId)
    (turnId : TurnId) : KernelM KernelRunOutcome := do
  let snapshot ← kernel.appendRecords snapshot
    [.messageCommitted output.message, .turnCheckpointed runId turnId .finishRun]
  onPort (kernel.emit (some runId) (some turnId) .turnCheckpointed)
  onPort (kernel.emit (some runId) none (.runFinished .completed))
  return ⟨runId, .completed, snapshot.state, none⟩

/-- The `Err` branches of the loop that end the run before they return. -/
def endRun {α : Type} (snapshot : SessionSnapshot) (runId : RunId) (turnId : Option TurnId)
    (error : KernelError) : KernelM α := do
  kernel.recordRunTerminal snapshot runId turnId error
  fail error

/-- What an iteration of the loop does with the output of its model turn. `none` continues the
loop. -/
def processOutput (config : KernelRunConfig) (runId : RunId) (turnId : TurnId)
    (snapshot : SessionSnapshot) (progress : RunProgress) (output : ModelTurnOutput) :
    KernelM (Except KernelRunOutcome (SessionSnapshot × RunProgress)) := do
  if output.toolCalls.isEmpty && output.stopReason != .pauseTurn then
    match config.finalOutputFormat.map fun format => kernel.validateFinalOutput format output with
    | some (.error error) => kernel.endRun snapshot runId (some turnId) error
    | some (.ok _) | none => return .error (← kernel.finish snapshot output runId turnId)
  else
    match progress.advanceTools config with
    | .error error => kernel.endRun snapshot runId (some turnId) error
    | .ok progress => do
      let snapshot ← kernel.commitDeclarations snapshot output runId turnId
      let outcome ←
        if output.toolCalls.isEmpty then pure (.continues snapshot)
        else kernel.processToolTurn snapshot output.toolCalls config runId turnId progress.deadline
      match outcome with
      | .waiting outcome => return .error outcome
      | .continues snapshot =>
        return .ok (← kernel.checkpointModelRequest snapshot runId turnId, progress)

/-- `run_loop_inner`. -/
def runLoopInner (config : KernelRunConfig) (runId : RunId) :
    (fuel : Nat) → SessionSnapshot → RunProgress → (autoCompacted : Bool) → KernelM KernelRunOutcome
  | 0, _, _, _ => throw (.panic "the loop of a run ends within its limits")
  | fuel + 1, snapshot, progress, autoCompacted => do
    if kernel.cancellation.isCancelled (← onPort countCall) then
      kernel.endRun snapshot runId none (.new .cancelled "agent run was cancelled")
    else
    let turnId ←
      match progress.preparedTurnId with
      | some turnId => pure turnId
      | none => onPort (callPort kernel.ids.nextTurnId)
    let progress := { progress with preparedTurnId := none }
    modify fun s => { s with currentTurnId := turnId }
    check (kernel.selectModel snapshot.state)
    let snapshot ← kernel.applyQueuedInput snapshot config
    check (kernel.models.buildRequest snapshot.state [] config)
    match kernel.models.checkOverflow snapshot.state config with
    | .error error =>
      match kernel.summarizer.filter fun summarizer =>
        !autoCompacted && summarizer.shouldCompact snapshot.state config with
      | none => kernel.endRun snapshot runId (some turnId) error
      | some summarizer => do
        let summary ← onPort (callPort fun call =>
          summarizer.summarize call snapshot.state.messages)
        let snapshot ←
          kernel.compact snapshot.state.sessionId summary snapshot.state.tailRecordId
        runLoopInner config runId fuel snapshot progress true
    | .ok _ => do
      let outputBudget ← check (progress.outputBudget config)
      match ← attempt (onPort (kernel.streamTurn runId turnId progress.deadline outputBudget)) with
      | .error error => kernel.endRun snapshot runId (some turnId) error
      | .ok output => do
        let progress ← check (progress.observeOutput output.outputBytes)
        match ← kernel.processOutput config runId turnId snapshot progress output with
        | .error outcome => return outcome
        | .ok (snapshot, progress) => runLoopInner config runId fuel snapshot progress autoCompacted

/-- The fuel that the limits of a configuration call for. -/
def loopFuel (config : KernelRunConfig) : Nat := config.limits.maxToolIterations + 2

/-- Run a program and see to it that the run is ended when it fails. -/
def orEnd {α : Type} (sessionId : SessionId) (runId : RunId) (turnId : KernelState → TurnId)
    (x : KernelM α) : KernelM α := do
  match ← attempt x with
  | .ok a => return a
  | .error error => do
    kernel.ensureRunTerminal sessionId runId (turnId (← get)) error
    fail error

/-- `run_loop`. -/
def runLoop (snapshot : SessionSnapshot) (config : KernelRunConfig) (runId : RunId)
    (terminalTurnId : TurnId) (progress : RunProgress) : KernelM KernelRunOutcome := do
  modify fun s => { s with currentTurnId := terminalTurnId }
  kernel.orEnd snapshot.state.sessionId runId (·.currentTurnId)
    (kernel.runLoopInner config runId (loopFuel config) snapshot progress false)

/-- `AgentKernel::run`. -/
def run (sessionId : SessionId) (config : KernelRunConfig) : KernelM KernelRunOutcome := do
  let snapshot ← onStore (InMemorySessionStore.load sessionId)
  match snapshot.state.validateNewRunState with
  | .error message => fail (.new .invalidState message)
  | .ok _ =>
    check (kernel.preflightModelRequest snapshot config)
    let runId ← onPort (callPort kernel.ids.nextRunId)
    let now ← onPort (callPort kernel.clock.now)
    let deadline ← check (addDuration now config.limits.maxElapsed)
    let firstTurnId ← onPort (callPort kernel.ids.nextTurnId)
    onPort (kernel.newEmitter sessionId snapshot.state.tailSequence config.limits)
    onPort (kernel.emit (some runId) none .runStarted)
    kernel.runLoop snapshot config runId firstTurnId
      { toolIterations := 0
        assistantOutputBytes := 0
        deadline
        preparedTurnId := some firstTurnId }

end AgentKernel

/-! ### Resumption -/

/-- A declared call that nothing was decided about. -/
def ToolCallState.untouched (tool : ToolCallState) : Bool :=
  tool.policyDecision.isNone && tool.execution.isNotStarted

/-- The call that a record requests, if the state has nothing about it yet. -/
def remainingToolCall? (state : MaterializedSessionState) : SessionRecord → Option CompletedToolCall
  | .toolCallRequested toolCallId toolName arguments =>
    if state.toolCalls[toolCallId]?.any (·.untouched) then some ⟨toolCallId, toolName, arguments⟩
    else none
  | _ => none

/-- Whether a record requests the given call. -/
def SessionRecord.requests (toolCallId : ToolCallId) : SessionRecord → Bool
  | .toolCallRequested requested _ _ => requested == toolCallId
  | _ => false

/-- `remaining_tool_calls`: the untouched calls requested after the first request of the completed
one, other requests of it apart. -/
def remainingToolCalls (snapshot : SessionSnapshot) (completed : ToolCallId) :
    List CompletedToolCall :=
  let after := snapshot.records.dropWhile fun record => !record.record.requests completed
  (after.filter fun record => !record.record.requests completed).filterMap fun record =>
    remainingToolCall? snapshot.state record.record

/-- The turns that a run has checkpointed. -/
def checkpointedTurn? (runId : RunId) : SessionRecord → Option TurnId
  | .turnCheckpointed checkpointed turnId _ => if checkpointed = runId then some turnId else none
  | _ => none

/-- `completed_tool_iterations`. -/
def completedToolIterations (snapshot : SessionSnapshot) (runId : RunId) : Nat :=
  min (snapshot.records.filterMap fun record =>
    checkpointedTurn? runId record.record).dedup.length (2 ^ 32 - 1)

/-- `byte_count_error`. -/
def byteCountError : KernelError :=
  .new .limitExceeded "assistant output byte count cannot be reconstructed"

namespace AgentKernel

variable (kernel : AgentKernel)

/-- `checked_content_bytes`. -/
def checkedContentBytes (initial : Nat) (content : List ContentBlock) : Except KernelError Nat :=
  content.foldlM (fun total block =>
    let bytes :=
      match block with
      | .text text | .contextualText text | .thinking text => text.utf8ByteSize
      | .image .. | .toolCall .. => 0
      | .hostedTool _ | .citation _ => kernel.encodedBlockLength block
    match checkedAdd total bytes with
    | some total => .ok total
    | none => .error byteCountError) initial

/-- `committed_assistant_output_bytes`, with the bytes of the open segment and of the run. -/
def committedAssistantOutputBytes (snapshot : SessionSnapshot) (runId : RunId) :
    Except KernelError Nat := do
  let (_, runBytes) ← snapshot.records.foldlM (fun (segmentBytes, runBytes) record =>
    match record.record with
    | .messageCommitted (.assistant _ content _ _) =>
      return (← kernel.checkedContentBytes segmentBytes content, runBytes)
    | .turnCheckpointed checkpointed _ _ =>
      if checkpointed = runId then
        match checkedAdd runBytes segmentBytes with
        | some runBytes => .ok (0, runBytes)
        | none => .error byteCountError
      else .ok (0, runBytes)
    | _ => .ok (segmentBytes, runBytes)) (0, 0)
  return runBytes

/-- The request of an approval artifact, if it is that of the given approval. -/
def requestOf? (approvalId : ApprovalId) :
    ApprovalArtifactEntry → Option (ApprovalRequest × Option FinalOutputFormat)
  | .requested _ request format =>
    if request.approvalId = approvalId then some (request, format) else none
  | .resolved .. => none

/-- `persisted_request`, with the final output format that is stored beside it. -/
def persistedRequest (snapshot : SessionSnapshot) (approvalId : ApprovalId) :
    Except KernelError (ApprovalRequest × Option FinalOutputFormat) :=
  match snapshot.approvalArtifacts.findSome? (requestOf? approvalId) with
  | some persisted => .ok persisted
  | none => .error (.new .policyFailure "persisted approval request is missing")

/-- The loop over the calls of a resumed turn. -/
def processRemaining (config : KernelRunConfig) (runId : RunId) (turnId : TurnId)
    (deadline : ProtocolTimestamp) (snapshot : SessionSnapshot) :
    List CompletedToolCall → KernelM ToolProcessOutcome
  | [] => return .continues snapshot
  | call :: rest => do
    match ← kernel.processTool snapshot call config runId turnId deadline with
    | .continues snapshot => processRemaining config runId turnId deadline snapshot rest
    | .waiting outcome => return .waiting outcome

/-- `continue_resumed_run_inner`. -/
def continueResumedRunInner (snapshot : SessionSnapshot) (call : CompletedToolCall)
    (config : KernelRunConfig) (runId : RunId) (turnId : TurnId) (deadline : ProtocolTimestamp) :
    KernelM KernelRunOutcome := do
  match ← kernel.processRemaining config runId turnId deadline snapshot
      (remainingToolCalls snapshot call.toolCallId) with
  | .waiting outcome => return outcome
  | .continues snapshot => do
    let snapshot ← kernel.checkpointModelRequest snapshot runId turnId
    let assistantOutputBytes ← check (kernel.committedAssistantOutputBytes snapshot runId)
    kernel.runLoop snapshot config runId turnId
      { toolIterations := completedToolIterations snapshot runId
        assistantOutputBytes
        deadline
        preparedTurnId := none }

/-- `continue_resumed_run`. -/
def continueResumedRun (snapshot : SessionSnapshot) (call : CompletedToolCall)
    (config : KernelRunConfig) (runId : RunId) (turnId : TurnId) (deadline : ProtocolTimestamp) :
    KernelM KernelRunOutcome :=
  kernel.orEnd snapshot.state.sessionId runId (fun _ => turnId)
    (kernel.continueResumedRunInner snapshot call config runId turnId deadline)

/-- The transaction that resolves the approval of a snapshot. -/
def resolutionTransaction (snapshot : SessionSnapshot) (resolution : ApprovalResolution)
    (envelopes : List RecordEnvelope) (recordId : RecordId)
    (grantEntries : List GrantJournalEntry) : AppendTransaction where
  sessionId := snapshot.state.sessionId
  expectedSequence := some snapshot.state.tailSequence
  records := envelopes
  expectedJournalRevision := some snapshot.journalRevision
  approvalArtifacts := [.resolved recordId resolution]
  grantEntries := grantEntries

/-- `commit_denied_resolution`. -/
def commitDeniedResolution (snapshot : SessionSnapshot) (resolution : ApprovalResolution)
    (call : CompletedToolCall) : KernelM SessionSnapshot := do
  let terminal ←
    check (failedTerminal "approval_denied" "tool invocation was denied by approval")
  let messageId ← onPort (callPort kernel.ids.nextMessageId)
  match CanonicalMessage.newToolResult messageId call.toolCallId call.toolName terminal.content
      terminal.failure resolution.decidedAt with
  | .error error => fail (.ofMessage error)
  | .ok message =>
    let envelopes ← onPort (kernel.envelopesAfter snapshot resolution.decidedAt (withoutMetadata
      [.approvalResolved resolution.request.approvalId resolution.decision,
        .toolExecutionFinished call.toolCallId true terminal.content terminal.failure none,
        .messageCommitted message]))
    let first ← okOr envelopes.head? (.panic "index out of bounds")
    commit snapshot (resolutionTransaction snapshot resolution envelopes first.recordId [])

/-- `commit_resolution`. -/
def commitResolution (snapshot : SessionSnapshot) (resolution : ApprovalResolution)
    (invocation : ValidatedToolInvocation) (target : PolicyExecutionTarget) :
    KernelM SessionSnapshot := do
  let envelopes ← onPort (kernel.envelopesAfter snapshot resolution.decidedAt
    (withoutMetadata (resolutionFacts resolution invocation target)))
  let first ← okOr envelopes.head?
    (.error (.new .invalidState "approval resolution transaction is empty"))
  commit snapshot (resolutionTransaction snapshot resolution envelopes first.recordId
    (resolution.issuedGrant.toList.map fun grant => .issued first.recordId grant))

/-- The turn that a run waits in: the checkpoint that `resume_approval` looks for. -/
def waitingTurn (state : MaterializedSessionState) (runId : RunId) : Option TurnId :=
  (state.latestCheckpoint.filter fun checkpoint =>
    checkpoint.runId == runId && checkpoint.nextAction == .waitForApproval).map (·.turnId)

/-- What `resume_approval` finds in the log about the approval it resolves. -/
structure PausedCall where
  request : ApprovalRequest
  finalOutputFormat : Option FinalOutputFormat
  runId : RunId
  turnId : TurnId
  call : CompletedToolCall

/-- The checks of `resume_approval` on the stored request. -/
def pausedCall (snapshot : SessionSnapshot) (resolution : ApprovalResolution)
    (config : KernelRunConfig) : Except KernelError PausedCall := do
  let (request, finalOutputFormat) ← persistedRequest snapshot resolution.request.approvalId
  if request ≠ resolution.request then
    throw (.new .policyFailure "approval resolution does not match persisted request")
  if resolution.decision ≠ .deny ∧ (request.actorId ≠ config.actorId ∨
      request.workspaceId ≠ config.workspaceId ∨ request.environment ≠ config.environment) then
    throw (.new .policyFailure "approval resolution does not match persisted request context")
  match request.runId with
  | none => throw (.new .invalidState "persisted approval has no active run")
  | some runId =>
    match waitingTurn snapshot.state runId with
    | none => throw (.new .invalidState "persisted approval has no matching wait checkpoint")
    | some turnId =>
      match snapshot.state.toolCalls[request.toolCallId]? with
      | none => throw (.new .invalidState "persisted approval tool call is missing")
      | some tool =>
        return { request, finalOutputFormat, runId, turnId
                 call := ⟨tool.toolCallId, tool.toolName, tool.arguments⟩ }

/-- The checks of `resume_approval` between a denial and the rest of the turn. -/
def resumeConfig (snapshot : SessionSnapshot) (config : KernelRunConfig)
    (format : Option FinalOutputFormat) : PortM (KernelRunConfig × ProtocolTimestamp) := do
  let config ← check (config.withFinalOutputFormat kernel.compileSchema format)
  check (kernel.preflightModelRequest snapshot config)
  let now ← callPort kernel.clock.now
  return (config, ← check (addDuration now config.limits.maxElapsed))

/-- `resume_approval` when the approval is denied. -/
def resumeDenied (snapshot : SessionSnapshot) (resolution : ApprovalResolution)
    (config : KernelRunConfig) (paused : PausedCall) : KernelM KernelRunOutcome := do
  let snapshot ← kernel.commitDeniedResolution snapshot resolution paused.call
  let (config, deadline) ← kernel.orEnd snapshot.state.sessionId paused.runId
    (fun _ => paused.turnId)
    (onPort (kernel.resumeConfig snapshot config paused.finalOutputFormat))
  kernel.continueResumedRun snapshot paused.call config paused.runId paused.turnId deadline

/-- The invocation that an approved call is executed with, if the registry still has the tool that
was approved. -/
def approvedInvocation (snapshot : SessionSnapshot) (paused : PausedCall) :
    Except KernelError ValidatedToolInvocation :=
  match prepare kernel.tools paused.call (toolExecutionMetadata snapshot.state.sessionId) with
  | .rejected .. => .error (.new .toolFailure "persisted approval tool no longer validates")
  | .valid invocation =>
    if invocation.name ≠ paused.request.toolName ∨
        invocation.spec.version ≠ paused.request.toolVersion ∨
        invocation.source ≠ paused.request.toolSource ∨
        invocation.spec.effects ≠ paused.request.effects ∨
        invocation.resources ≠ paused.request.resources then
      .error (.new .policyFailure "persisted approval no longer matches registered tool context")
    else .ok invocation

/-- `resume_approval` when the approval is granted. -/
def resumeAllowed (snapshot : SessionSnapshot) (resolution : ApprovalResolution)
    (config : KernelRunConfig) (paused : PausedCall) : KernelM KernelRunOutcome := do
  let config ← check (config.withFinalOutputFormat kernel.compileSchema paused.finalOutputFormat)
  let invocation ← check (kernel.approvedInvocation snapshot paused)
  check (kernel.preflightModelRequest snapshot config)
  let now ← onPort (callPort kernel.clock.now)
  let deadline ← check (addDuration now config.limits.maxElapsed)
  let snapshot ← kernel.commitResolution snapshot resolution invocation config.environment.target
  let snapshot ← kernel.executeStarted snapshot paused.call invocation paused.runId paused.turnId
    deadline
  kernel.continueResumedRun snapshot paused.call config paused.runId paused.turnId deadline

/-- `AgentKernel::resume_approval`. -/
def resumeApproval (sessionId : SessionId) (resolution : ApprovalResolution)
    (config : KernelRunConfig) : KernelM KernelRunOutcome := do
  let snapshot ← onStore (InMemorySessionStore.load sessionId)
  let paused ← check (pausedCall snapshot resolution config)
  onPort (kernel.newEmitter sessionId snapshot.state.tailSequence config.limits)
  if resolution.decision = .deny then kernel.resumeDenied snapshot resolution config paused
  else kernel.resumeAllowed snapshot resolution config paused

end AgentKernel

end TeaRs
