import TeaRs.Kernel.Ports

/-!
# Tool turns

How the kernel processes the tool calls of a model turn: it classifies every call, starts and
executes the allowed ones in batches, commits the rejected and denied ones at once, and pauses the
run when a call needs an approval. Everything durable goes through transactions on the session
store, each followed by a load of the session.

## Main definitions

* `KernelState`, `KernelM`: programs of the kernel.
* `AgentKernel.appendRecords`: a transaction without journal entries.
* `AgentKernel.recordRunTerminal`, `AgentKernel.ensureRunTerminal`: the record that ends a run.
* `AgentKernel.flushToolBatch`, `AgentKernel.processToolTurn`: the calls of a turn.
* `AgentKernel.waitForApproval`: the pause.
* `AgentKernel.processTool`: one call of a turn that is resumed.
-/

namespace TeaRs

open StateError

/-! ### Programs of the kernel -/

/-- A point of an invocation that its final state does not show. -/
inductive KernelNote where
  /-- A started batch is about to be executed. -/
  | executing (before : PortState) (runId : RunId) (turnId : TurnId) (deadline : ProtocolTimestamp)
      (batch : List (ValidatedToolInvocation × ExecutionTarget)) (plan : SchedulePlan)
  /-- A stored pause is about to be announced. -/
  | announcing (before : PortState) (runId : RunId) (turnId : TurnId) (events : List AgentEvent)
  /-- The store refused a transaction. -/
  | refused (transaction : AppendTransaction)

/-- The state of a kernel: the session store, what the ports changed, the turn an invocation works
on, and the notes taken on the way. -/
structure KernelState where
  store : InMemorySessionStore
  port : PortState
  currentTurnId : TurnId
  notes : List KernelNote

/-- Programs of the kernel. -/
abbrev KernelM := EStateM (Abort KernelError) KernelState

/-- Run a program that calls ports. -/
def onPort {α : Type} (x : PortM α) : KernelM α := fun s =>
  match x s.port with
  | .ok a port => .ok a { s with port }
  | .error e port => .error e { s with port }

/-- Run an operation of the session store. -/
def onStore {α : Type} (x : InMemorySessionStore.MemoryM α) : KernelM α := fun s =>
  match x s.store with
  | .ok a store => .ok a { s with store }
  | .error e store => .error (e.map KernelError.ofStore) { s with store }

/-- Take a note. -/
def takeNote (note : KernelNote) : KernelM Unit :=
  modify fun s => { s with notes := s.notes ++ [note] }

/-- Append to the session store, with a note if it refuses. -/
def appendTransaction (transaction : AppendTransaction) : KernelM Unit := do
  match ← attempt (onStore (InMemorySessionStore.append transaction)) with
  | .ok _ => pure ()
  | .error error => do
    takeNote (.refused transaction)
    fail error

/-- `RunState`, as far as an invocation returns it. -/
inductive RunState where
  | waitingApproval
  | completed
  deriving DecidableEq, Repr

/-- `KernelRunOutcome`. -/
structure KernelRunOutcome where
  runId : RunId
  state : RunState
  session : MaterializedSessionState
  pendingApprovalId : Option ApprovalId
  deriving DecidableEq

/-- `ToolProcessOutcome`. -/
inductive ToolProcessOutcome where
  | continues (snapshot : SessionSnapshot)
  | waiting (outcome : KernelRunOutcome)
  deriving DecidableEq

namespace AgentKernel

variable (kernel : AgentKernel)

/-! ### Appending records -/

/-- `envelopes_at_with_metadata`. -/
def envelopesAt (sessionId : SessionId) (branchId : Option BranchId)
    (timestamp : ProtocolTimestamp) (previous : SessionSequence) :
    List (ProtocolMetadata × SessionRecord) → PortM (List RecordEnvelope)
  | [] => return []
  | (metadata, record) :: rest => do
    let sequence ← okOr (checkedNext previous)
      (.error (.new .sessionFailure "durable session sequence cannot advance"))
    let recordId ← callPort kernel.ids.nextRecordId
    match RecordEnvelope.new recordId sessionId sequence timestamp none none branchId metadata
        record with
    | .error error => fail (.new .sessionFailure error.text)
    | .ok envelope => return envelope :: (← envelopesAt sessionId branchId timestamp sequence rest)

/-- Records without metadata. -/
def withoutMetadata (records : List SessionRecord) : List (ProtocolMetadata × SessionRecord) :=
  records.map fun record => (∅, record)

/-- The envelopes of records that continue a snapshot. -/
def envelopesAfter (snapshot : SessionSnapshot) (timestamp : ProtocolTimestamp)
    (records : List (ProtocolMetadata × SessionRecord)) : PortM (List RecordEnvelope) :=
  kernel.envelopesAt snapshot.state.sessionId snapshot.state.activeBranchId timestamp
    snapshot.state.tailSequence records

/-- Append a transaction to the session of a snapshot and load the session again. -/
def commit (snapshot : SessionSnapshot) (transaction : AppendTransaction) :
    KernelM SessionSnapshot := do
  appendTransaction transaction
  onStore (InMemorySessionStore.load snapshot.state.sessionId)

/-- `append_records_with_metadata`. -/
def appendRecordsWithMetadata (snapshot : SessionSnapshot)
    (records : List (ProtocolMetadata × SessionRecord)) : KernelM SessionSnapshot := do
  let timestamp ← onPort (callPort kernel.clock.now)
  let envelopes ← onPort (kernel.envelopesAfter snapshot timestamp records)
  commit snapshot (.new snapshot.state.sessionId (some snapshot.state.tailSequence) envelopes)

/-- `append_records`. -/
def appendRecords (snapshot : SessionSnapshot) (records : List SessionRecord) :
    KernelM SessionSnapshot :=
  kernel.appendRecordsWithMetadata snapshot (withoutMetadata records)

/-! ### The end of a run -/

/-- `record_run_terminal`. -/
def recordRunTerminal (snapshot : SessionSnapshot) (runId : RunId) (turnId : Option TurnId)
    (error : KernelError) : KernelM Unit := do
  let (record, status) ←
    if error.code = .cancelled then pure (SessionRecord.runCancelled runId, RunStatus.cancelled)
    else do
      let turnId ← okOr turnId (.error (.new .invalidState "interrupted run has no active turn"))
      pure (.runInterrupted runId turnId error.message, .interrupted)
  let _ ← kernel.appendRecords snapshot [record]
  onPort (kernel.emit (some runId) none (.runFinished status))

/-- Whether a state shows that a run has ended: the check of `ensure_run_terminal`. -/
def runEnded (state : MaterializedSessionState) (runId : RunId) : Bool :=
  state.runRecovery.contains runId || state.latestCheckpoint.any fun checkpoint =>
    checkpoint.runId == runId && checkpoint.nextAction == .finishRun

/-- `ensure_run_terminal`. -/
def ensureRunTerminal (sessionId : SessionId) (runId : RunId) (turnId : TurnId)
    (error : KernelError) : KernelM Unit := do
  let snapshot ← onStore (InMemorySessionStore.load sessionId)
  if runEnded snapshot.state runId then pure ()
  else kernel.recordRunTerminal snapshot runId (some turnId) error

/-! ### Results of tool calls -/

/-- The facts that settle a call: its end and its result message. -/
def resultRecords (toolCallId : ToolCallId) (toolName : String) (terminal : ToolTerminal) :
    PortM (List SessionRecord) := do
  let messageId ← callPort kernel.ids.nextMessageId
  let timestamp ← callPort kernel.clock.now
  match CanonicalMessage.newToolResult messageId toolCallId toolName terminal.content
      terminal.failure timestamp with
  | .error error => fail (.ofMessage error)
  | .ok message =>
    return [.toolExecutionFinished toolCallId terminal.failure.isSome terminal.content
      terminal.failure terminal.presentation, .messageCommitted message]

/-- `commit_terminal_with_prefix`. -/
def commitTerminalWithPrefix (snapshot : SessionSnapshot) (call : CompletedToolCall)
    (terminal : ToolTerminal) (first : Option SessionRecord) : KernelM SessionSnapshot := do
  let records ← onPort (kernel.resultRecords call.toolCallId call.toolName terminal)
  kernel.appendRecords snapshot (first.toList ++ records)

/-- `commit_denied`. -/
def commitDenied (snapshot : SessionSnapshot) (call : CompletedToolCall)
    (terminal : ToolTerminal) : KernelM SessionSnapshot :=
  kernel.commitTerminalWithPrefix snapshot call terminal
    (some (.policyDecisionRecorded call.toolCallId .deny))

/-- `commit_terminal`. -/
def commitTerminal (snapshot : SessionSnapshot) (call : CompletedToolCall)
    (terminal : ToolTerminal) : KernelM SessionSnapshot :=
  kernel.commitTerminalWithPrefix snapshot call terminal none

/-- `record_tool_interruption`. -/
def recordToolInterruption (snapshot : SessionSnapshot) (call : CompletedToolCall) (runId : RunId)
    (turnId : TurnId) (error : KernelError) : KernelM Unit := do
  let snapshot ←
    kernel.appendRecords snapshot [.toolExecutionInterrupted call.toolCallId error.message]
  kernel.recordRunTerminal snapshot runId (some turnId) error

/-! ### Batches -/

/-- A batch of allowed calls with their execution targets, in source order. -/
abbrev Batch := List (ValidatedToolInvocation × ExecutionTarget)

/-- The facts that interrupt the calls of a batch without a collected result. -/
def interruptedRecords (batch : Batch) (results : Results) (reason : String) :
    List SessionRecord :=
  (batch.filter fun entry => !results.contains entry.1.toolCallId).map fun entry =>
    .toolExecutionInterrupted entry.1.toolCallId reason

/-- The progress collected for a batch, in source order. -/
def batchProgress (batch : Batch) (results : Results) : List AgentEvent :=
  batch.flatMap fun entry =>
    match results[entry.1.toolCallId]? with
    | none => []
    | some collected => collected.progress.map (·.event)

/-- Emit events of a turn in order. -/
def emitAll (runId : RunId) (turnId : TurnId) (events : List AgentEvent) : PortM Unit :=
  events.forM fun event => kernel.emit (some runId) (some turnId) event

/-- The facts that settle the calls of a batch, in source order. -/
def batchRecords (results : Results) : Batch → PortM (List SessionRecord)
  | [] => return []
  | (invocation, _) :: rest => do
    let collected ← okOr results[invocation.toolCallId]?
      (.error (.new .invalidState "parallel tool batch is missing a collected terminal"))
    let records ←
      kernel.resultRecords invocation.toolCallId invocation.name.asStr collected.terminal
    return records ++ (← batchRecords results rest)

/-- The end of a batch whose lanes failed: the calls without a result are interrupted and the run
is ended. -/
def interruptBatch (snapshot : SessionSnapshot) (batch : Batch) (runId : RunId) (turnId : TurnId)
    (results : Results) (error : KernelError) : KernelM SessionSnapshot := do
  let interrupted := interruptedRecords batch results error.message
  let snapshot ←
    if interrupted.isEmpty then pure snapshot else kernel.appendRecords snapshot interrupted
  kernel.recordRunTerminal snapshot runId (some turnId) error
  fail error

/-- The end of a batch whose lanes ran: progress is reported, then the results are committed. -/
def settleBatch (snapshot : SessionSnapshot) (batch : Batch) (runId : RunId) (turnId : TurnId)
    (results : Results) : KernelM SessionSnapshot := do
  onPort (kernel.emitAll runId turnId (batchProgress batch results))
  let records ← onPort (kernel.batchRecords results batch)
  kernel.appendRecords snapshot records

/-- `flush_tool_batch`. -/
def flushToolBatch (snapshot : SessionSnapshot) (batch : Batch) (runId : RunId) (turnId : TurnId)
    (deadline : ProtocolTimestamp) : KernelM SessionSnapshot :=
  if batch.isEmpty then pure snapshot
  else do
    let plan ← check (Scheduler.plan (batch.map (·.1)))
    let snapshot ← kernel.appendRecords snapshot (startRecords batch)
    takeNote (.executing (← get).port runId turnId deadline batch plan)
    match ← onPort (kernel.executeScheduleLanes deadline ∅ plan.lanes) with
    | (results, some error) => kernel.interruptBatch snapshot batch runId turnId results error
    | (results, none) => kernel.settleBatch snapshot batch runId turnId results

/-! ### Pausing for an approval -/

/-- `ToolEffect::as_str` of the effects of a request. -/
def approvalCapabilities (request : ApprovalRequest) : List String :=
  request.effects.map (·.asStr)

/-- The resources that the announcement of a request names. -/
def approvalResources (request : ApprovalRequest) : List String :=
  if request.presentation.resources.isEmpty then ["tool:" ++ request.toolName.asStr]
  else request.presentation.resources

/-- The events that announce a stored pause. -/
def approvalEvents (invocation : ValidatedToolInvocation) (request : ApprovalRequest) :
    List AgentEvent :=
  (match kernel.tools.previewValidated invocation with
    | none => []
    | some presentation => [.toolExecutionPreview invocation.toolCallId presentation]) ++
  [.approvalRequested request.approvalId request.toolCallId (approvalCapabilities request)
      (approvalResources request) request.expiresAt,
    .turnCheckpointed]

/-- The facts of a pause. -/
def pauseRecords (request : ApprovalRequest) (runId : RunId) (turnId : TurnId) :
    List SessionRecord :=
  [.policyDecisionRecorded request.toolCallId .requireApproval,
    .approvalRequested request.approvalId request.toolCallId request.expiresAt,
    .turnCheckpointed runId turnId .waitForApproval]

/-- `wait_for_approval`. -/
def waitForApproval (snapshot : SessionSnapshot) (invocation : ValidatedToolInvocation)
    (input : PolicyInput) (reason : String) (config : KernelRunConfig) (runId : RunId)
    (turnId : TurnId) : KernelM KernelRunOutcome := do
  let approvalId ← onPort (callPort kernel.ids.nextApprovalId)
  let createdAt ← onPort (callPort kernel.clock.now)
  let request ← check (approvalRequest approvalId input reason createdAt config.approvalTtl)
  let envelopes ← onPort (kernel.envelopesAfter snapshot createdAt
    (withoutMetadata (pauseRecords request runId turnId)))
  let approvalRecord ← okOr envelopes[1]?
    (.error (.new .invalidState "approval transaction is missing its request record"))
  let snapshot ← commit snapshot
    { sessionId := snapshot.state.sessionId
      expectedSequence := some snapshot.state.tailSequence
      records := envelopes
      expectedJournalRevision := some snapshot.journalRevision
      approvalArtifacts := [.requested approvalRecord.recordId request
        (config.finalOutputFormat.map (·.asProtocol))]
      grantEntries := [] }
  let events := kernel.approvalEvents invocation request
  takeNote (.announcing (← get).port runId turnId events)
  onPort (kernel.emitAll runId turnId events)
  return ⟨runId, .waitingApproval, snapshot.state, some approvalId⟩

/-! ### The calls of a turn -/

/-- The policy input of an invocation at a snapshot, and the decision on it. -/
def evaluateCall (snapshot : SessionSnapshot) (config : KernelRunConfig) (runId : RunId)
    (invocation : ValidatedToolInvocation) : KernelM (PolicyInput × Policy.PolicyDecision) := do
  let grants ← onStore (InMemorySessionStore.activeGrantsForActor config.actorId)
  let now ← onPort (callPort kernel.clock.now)
  check (evaluateInvocation kernel.policy config snapshot.state runId invocation grants now)

/-- The first loop of `process_tool_turn`. It stops at the first call that asks. -/
def classifyCalls (snapshot : SessionSnapshot) (config : KernelRunConfig) (runId : RunId) :
    List CompletedToolCall → KernelM (List Classified)
  | [] => return []
  | call :: rest => do
    match prepare kernel.tools call (toolExecutionMetadata snapshot.state.sessionId) with
    | .rejected code message =>
      return .rejected call code message :: (← classifyCalls snapshot config runId rest)
    | .valid invocation =>
      let (input, decision) ← kernel.evaluateCall snapshot config runId invocation
      match decision with
      | .ask _ => return [.ofDecision config call invocation input decision]
      | .allow | .redirect _ | .deny _ | .hardDeny _ =>
        return .ofDecision config call invocation input decision ::
          (← classifyCalls snapshot config runId rest)

/-- The second loop of `process_tool_turn`. A rejected call empties the batch that was flushed
before it, a denied call does not. -/
def processEntries (config : KernelRunConfig) (runId : RunId) (turnId : TurnId)
    (deadline : ProtocolTimestamp) (snapshot : SessionSnapshot) (batch : Batch) :
    List Classified → KernelM ToolProcessOutcome
  | [] => do
    return .continues (← kernel.flushToolBatch snapshot batch runId turnId deadline)
  | .rejected call code message :: rest => do
    let snapshot ← kernel.flushToolBatch snapshot batch runId turnId deadline
    let terminal ← check (failedTerminal code message)
    let snapshot ← kernel.commitDenied snapshot call terminal
    processEntries config runId turnId deadline snapshot [] rest
  | .denied call reason :: rest => do
    let snapshot ← kernel.flushToolBatch snapshot batch runId turnId deadline
    let terminal ← check (failedTerminal "policy_denied" reason)
    let snapshot ← kernel.commitDenied snapshot call terminal
    processEntries config runId turnId deadline snapshot batch rest
  | .allow invocation target :: rest =>
    processEntries config runId turnId deadline snapshot (batch ++ [(invocation, target)]) rest
  | .ask invocation input reason :: _ => do
    let snapshot ← kernel.flushToolBatch snapshot batch runId turnId deadline
    return .waiting
      (← kernel.waitForApproval snapshot invocation input reason config runId turnId)

/-- `process_tool_turn`. -/
def processToolTurn (snapshot : SessionSnapshot) (calls : List CompletedToolCall)
    (config : KernelRunConfig) (runId : RunId) (turnId : TurnId) (deadline : ProtocolTimestamp) :
    KernelM ToolProcessOutcome := do
  let entries ← kernel.classifyCalls snapshot config runId calls
  kernel.processEntries config runId turnId deadline snapshot [] entries

/-! ### One call of a resumed turn -/

/-- The execution of a started call outside a batch. -/
def executeStarted (snapshot : SessionSnapshot) (call : CompletedToolCall)
    (invocation : ValidatedToolInvocation) (runId : RunId) (turnId : TurnId)
    (deadline : ProtocolTimestamp) : KernelM SessionSnapshot := do
  match ← attempt (onPort (kernel.execute runId turnId deadline invocation)) with
  | .ok terminal => kernel.commitTerminal snapshot call terminal
  | .error error => do
    kernel.recordToolInterruption snapshot call runId turnId error
    fail error

/-- `process_validated`. -/
def processValidated (snapshot : SessionSnapshot) (call : CompletedToolCall)
    (invocation : ValidatedToolInvocation) (config : KernelRunConfig) (runId : RunId)
    (turnId : TurnId) (deadline : ProtocolTimestamp) : KernelM ToolProcessOutcome := do
  let (input, decision) ← kernel.evaluateCall snapshot config runId invocation
  match decision with
  | .allow | .redirect _ => do
    let target := selectedTarget decision config.environment.target invocation.source.kind
    let snapshot ← kernel.appendRecords snapshot
      [.policyDecisionRecorded call.toolCallId (durableDecision decision),
        .toolExecutionStarted call.toolCallId target invocation.spec.execution.idempotency]
    return .continues
      (← kernel.executeStarted snapshot call invocation runId turnId deadline)
  | .deny reason | .hardDeny reason => do
    let terminal ← check (failedTerminal "policy_denied" reason.text)
    return .continues (← kernel.commitDenied snapshot call terminal)
  | .ask reason =>
    return .waiting
      (← kernel.waitForApproval snapshot invocation input reason.text config runId turnId)

/-- `process_tool`. -/
def processTool (snapshot : SessionSnapshot) (call : CompletedToolCall) (config : KernelRunConfig)
    (runId : RunId) (turnId : TurnId) (deadline : ProtocolTimestamp) :
    KernelM ToolProcessOutcome := do
  match prepare kernel.tools call (toolExecutionMetadata snapshot.state.sessionId) with
  | .rejected code message => do
    let terminal ← check (failedTerminal code message)
    return .continues (← kernel.commitDenied snapshot call terminal)
  | .valid invocation =>
    kernel.processValidated snapshot call invocation config runId turnId deadline

end AgentKernel

end TeaRs
