import TeaRs.Kernel.Classification
import TeaRs.Kernel.Scheduler
import TeaRs.Lib.StateError
import TeaRs.Protocol.Event
import TeaRs.Session.Memory

/-!
# The ports of the kernel

The kernel reaches everything outside itself through replaceable ports. They are foreign code and
may answer differently every time, so every call to a port is numbered and the answer of a port is a
function of the number of the call. On top of the ports stand the two services the kernel builds for
itself: the emitter of events and the reader of a tool stream.

## Main definitions

* `KernelClock`, `KernelIdSource`, `KernelEventSink`, `CancellationScope`, `ModelRouter`,
  `KernelInputQueue`, `CompactionSummarizer`: the ports.
* `AgentKernel`: the ports of one kernel.
* `PortState`, `PortM`: programs that call ports, and what they change outside the session store.
* `EventEmitter.new`, `AgentKernel.emit`: the emitter.
* `AgentKernel.collectExecution`, `AgentKernel.execute`: reading a tool stream to its end.
* `AgentKernel.executeScheduleLanes`: running the lanes of a plan.
-/

namespace TeaRs

open StateError

/-! ### The ports -/

/-- `KernelClock`; when a deadline is reached is decided by `CancellationScope.interruption`. -/
structure KernelClock where
  now : Nat → Except KernelError ProtocolTimestamp

/-- `KernelIdSource`, as far as the kernel itself draws identities. -/
structure KernelIdSource where
  nextRunId : Nat → Except KernelError RunId
  nextTurnId : Nat → Except KernelError TurnId
  nextMessageId : Nat → Except KernelError MessageId
  nextApprovalId : Nat → Except KernelError ApprovalId
  nextEventId : Nat → Except KernelError EventId
  nextRecordId : Nat → Except KernelError RecordId

/-- `KernelEventSink`. -/
structure KernelEventSink where
  lastSequence : Nat → SessionId → Option SessionSequence
  emit : Nat → EventEnvelope → Except KernelError Unit

/-- What ends a tool execution from outside. -/
inductive Interruption where
  | cancelled
  | deadline
  deriving DecidableEq, Repr

/-- `CancellationScope` together with the deadline of a run: whether the scope is cancelled, and
whether an execution is interrupted, with the number of stream events read before that. -/
structure CancellationScope where
  isCancelled : Nat → Bool
  interruption : Nat → (deadline : ProtocolTimestamp) → Option (Nat × Interruption)

/-- What one model turn streams and returns. The identities of its tool calls come with it. -/
structure ModelTurn where
  events : List AgentEvent
  result : Except KernelError (List ContentBlock × StopReason × Nat)

/-- `ModelRouter` with the providers behind it. `buildRequest` is `TurnRequestSnapshot::build` for
the committed messages and some pending ones, followed by the validation of the provider. -/
structure ModelRouter where
  provider : String → Bool
  model : ModelRef → Bool
  buildRequest : MaterializedSessionState → List CanonicalMessage → KernelRunConfig →
    Except KernelError Unit
  checkOverflow : MaterializedSessionState → KernelRunConfig → Except KernelError Unit
  streamTurn : Nat → MessageId → (deadline : ProtocolTimestamp) → (outputBudget : Nat) → ModelTurn

/-- `QueueSnapshot`. -/
structure QueueSnapshot where
  followUps : List CanonicalMessage
  steering : List String

/-- `KernelInputQueue`, which other tasks fill. -/
structure KernelInputQueue where
  snapshot : Nat → Except KernelError QueueSnapshot
  acknowledge : Nat → QueueSnapshot → Except KernelError Unit

/-- `CompactionSummarizer` with the policy that decides when it is asked. -/
structure CompactionSummarizer where
  shouldCompact : MaterializedSessionState → KernelRunConfig → Bool
  summarize : Nat → List CanonicalMessage → Except KernelError CanonicalMessage

/-- `AgentKernel`: its ports, without the session store, which is part of the state, and with the
foreign functions that its configuration and its libraries bring along. -/
structure AgentKernel where
  models : ModelRouter
  tools : ToolRegistry
  policy : PolicyEngine
  clock : KernelClock
  ids : KernelIdSource
  events : KernelEventSink
  cancellation : CancellationScope
  inputQueue : Option KernelInputQueue
  summarizer : Option CompactionSummarizer
  /-- `tool_audit_metadata`. -/
  auditMetadata : ValidatedToolInvocation → Except KernelError ProtocolMetadata
  /-- The compiler of JSON schemas. -/
  compileSchema : Value → Option CompiledToolSchema
  /-- `serde_json::from_str`. -/
  parseJson : String → Option Value
  /-- The length of the JSON form of a content block. -/
  encodedBlockLength : ContentBlock → Nat

/-! ### Programs that call ports -/

/-- `EventEmitter`, without its ports. -/
structure EventEmitter where
  sessionId : SessionId
  sequence : SessionSequence
  emitted : Nat
  limits : RunLimits
  deriving DecidableEq

/-- What the calls of ports change: their number, the emitter, the events the sink accepted, and the
tool calls handed to an executor. -/
structure PortState where
  calls : Nat
  emitter : EventEmitter
  delivered : List EventEnvelope
  executed : List ToolCallId
  deriving DecidableEq

/-- Programs that call ports and leave the session store alone. -/
abbrev PortM := EStateM (Abort KernelError) PortState

/-- Count a call to a port and return its number. -/
def countCall : PortM Nat := do
  let s ← get
  set { s with calls := s.calls + 1 }
  return s.calls

/-- Call a port. -/
def callPort {α : Type} (port : Nat → Except KernelError α) : PortM α := do
  check (port (← countCall))

namespace AgentKernel

/-- `EventEmitter::new`. -/
def newEmitter (kernel : AgentKernel) (sessionId : SessionId) (durableTail : SessionSequence)
    (limits : RunLimits) : PortM Unit := do
  let call ← countCall
  let sequence :=
    match kernel.events.lastSequence call sessionId with
    | some cursor => if durableTail < cursor then cursor else durableTail
    | none => durableTail
  modify fun s => { s with emitter := { sessionId, sequence, emitted := 0, limits } }

/-- `EventEmitter::emit`. -/
def emit (kernel : AgentKernel) (runId : Option RunId) (turnId : Option TurnId)
    (event : AgentEvent) : PortM Unit := do
  let emitter := (← get).emitter
  ensure (decide (emitter.emitted < emitter.limits.maxEvents))
    (.error (.new .limitExceeded "run event limit was reached"))
  let sequence ← okOr (checkedNext emitter.sequence)
    (.error (.new .limitExceeded "event sequence cannot advance"))
  modify fun s => { s with emitter := { s.emitter with sequence } }
  let eventId ← callPort kernel.ids.nextEventId
  let timestamp ← callPort kernel.clock.now
  match EventEnvelope.new eventId emitter.sessionId runId turnId sequence timestamp event with
  | .error error => fail (.new .invalidState error.text)
  | .ok envelope =>
    let call ← countCall
    match kernel.events.emit call envelope with
    | .error error => fail (.new .eventSinkFailure error.text)
    | .ok () =>
      modify fun s => { s with
        emitter := { s.emitter with emitted := s.emitter.emitted + 1 }
        delivered := s.delivered ++ [envelope] }

/-! ### Tool streams -/

end AgentKernel

/-- `ToolTerminal`. -/
structure ToolTerminal where
  content : List ContentBlock
  failure : Option ToolFailure
  presentation : Option ToolPresentation
  deriving DecidableEq

/-- `ToolFailure::new`. -/
def ToolFailure.new (code message : String) : Except MessageValidationError ToolFailure :=
  if h : validErrorCode code = true ∧ isBoundedText 4096 message = true then .ok ⟨code, message, h⟩
  else .error .invalidToolFailure

/-- `failed_terminal`. -/
def failedTerminal (code message : String) : Except KernelError ToolTerminal :=
  match validateText message with
  | .error error => .error (.ofContent error)
  | .ok _ =>
    match ToolFailure.new code message with
    | .error error => .error (.ofMessage error)
    | .ok failure =>
      .ok { content := [.text message], failure := some failure, presentation := none }

/-- The code that `tool_failure` gives a failed execution. -/
def ToolExecutionFailureCode.failureCode : ToolExecutionFailureCode → String
  | executionFailed => "tool_execution_failed"
  | cancelled => "tool_cancelled"
  | invalidOutput => "invalid_tool_output"
  | internal => "tool_internal_failure"

/-- The terminal of a failed execution, after `tool_failure`. -/
def ToolExecutionFailure.terminal (failure : ToolExecutionFailure) :
    Except KernelError ToolTerminal :=
  match validateText failure.message with
  | .error error => .error (.ofContent error)
  | .ok _ =>
    match ToolFailure.new failure.code.failureCode failure.message with
    | .error error => .error (.new .toolFailure error.text)
    | .ok failure' =>
      .ok { content := [.text failure.message], failure := some failure', presentation := none }

/-- The terminal of a finished execution. -/
def ToolResult.terminal (result : ToolResult) : ToolTerminal where
  content := result.content
  failure := none
  presentation := result.presentation

/-- The error of an interrupted execution. -/
def Interruption.error : Interruption → KernelError
  | cancelled => .new .cancelled "tool execution was cancelled after durable start"
  | deadline => .new .limitExceeded "run deadline was reached during tool execution"

/-- `CollectedProgress`. -/
structure CollectedProgress where
  toolCallId : ToolCallId
  message : String
  completedUnits : Nat
  totalUnits : Option Nat
  deriving DecidableEq

/-- The event that reports progress. -/
def CollectedProgress.event (progress : CollectedProgress) : AgentEvent :=
  .toolExecutionProgress progress.toolCallId progress.message progress.completedUnits
    progress.totalUnits

/-- Progress of a tool call, as it is collected. -/
def ToolProgress.collected (progress : ToolProgress) (toolCallId : ToolCallId) :
    CollectedProgress :=
  ⟨toolCallId, progress.message, progress.completedUnits, progress.totalUnits⟩

/-- `CollectedExecution`. -/
structure CollectedExecution where
  progress : List CollectedProgress
  terminal : ToolTerminal
  deriving DecidableEq

/-- The error for a stream that breaks its contract. -/
def ToolStreamViolation.kernelError (violation : ToolStreamViolation) : KernelError :=
  .new .toolFailure violation.text

/-- The error for a tool that the registry does not execute. Execution raises the first two errors
only. -/
def ToolRegistryError.kernelError (error : ToolRegistryError) : KernelError :=
  .new .toolFailure
    (match error with
    | .unknownTool => "tool is not registered"
    | .hostedToolNotClientExecutable => "hosted tool has no client execution route"
    | .invalidArguments => "tool arguments are invalid"
    | .resources _ => "tool resource resolution failed")

/-- What a stream event does to the validator and to the terminal found so far. -/
def observeEvent (validator : ToolStreamValidator) (terminal : Option ToolTerminal)
    (event : ToolExecutionEvent) :
    Except KernelError (ToolStreamValidator × Option ToolTerminal) :=
  match validator.observe event with
  | .error violation => .error violation.kernelError
  | .ok validator =>
    match event with
    | .progress _ => .ok (validator, terminal)
    | .finished result => .ok (validator, some result.terminal)
    | .failed failure =>
      match failure.terminal with
      | .error error => .error error
      | .ok terminal => .ok (validator, some terminal)

/-- The terminal of a stream that has ended. -/
def finishStream (validator : ToolStreamValidator) (terminal : Option ToolTerminal) :
    Except KernelError ToolTerminal :=
  match validator.finish with
  | .error violation => .error violation.kernelError
  | .ok _ =>
    match terminal with
    | none => .error (.new .toolFailure "tool stream has no terminal result")
    | some terminal => .ok terminal

/-- The interruption as it stands before the next poll of the stream. -/
def nextPoll : Option (Nat × Interruption) → Option (Nat × Interruption)
  | none => none
  | some (polls, cause) => some (polls - 1, cause)

/-- The loop of `collect_execution`. The interruption wins over an event that is ready. -/
def collectEvents (toolCallId : ToolCallId) (interruption : Option (Nat × Interruption))
    (validator : ToolStreamValidator) (progress : List CollectedProgress)
    (terminal : Option ToolTerminal) :
    List ToolExecutionEvent → Except KernelError CollectedExecution
  | [] =>
    match interruption with
    | some (0, cause) => .error cause.error
    | _ => do return { progress, terminal := ← finishStream validator terminal }
  | event :: events =>
    match interruption with
    | some (0, cause) => .error cause.error
    | _ => do
      let (validator, terminal) ← observeEvent validator terminal event
      let progress :=
        match event with
        | .progress item => progress ++ [item.collected toolCallId]
        | .finished _ | .failed _ => progress
      collectEvents toolCallId (nextPoll interruption) validator progress terminal events

namespace AgentKernel

/-- What `collect_execution` returns for the execution with the given number. -/
def collectAt (kernel : AgentKernel) (deadline : ProtocolTimestamp) (call : Nat)
    (invocation : ValidatedToolInvocation) : Except KernelError CollectedExecution :=
  match kernel.tools.executeValidated call invocation with
  | .error error => .error error.kernelError
  | .ok events =>
    collectEvents invocation.toolCallId (kernel.cancellation.interruption call deadline) .new []
      none events

/-- Note that an invocation was handed to its executor. -/
def noteExecution (kernel : AgentKernel) (call : Nat) (invocation : ValidatedToolInvocation) :
    PortM Unit :=
  modify fun s =>
    match kernel.tools.executeValidated call invocation with
    | .error _ => s
    | .ok _ => { s with executed := s.executed ++ [invocation.toolCallId] }

/-- `collect_execution`. -/
def collectExecution (kernel : AgentKernel) (deadline : ProtocolTimestamp)
    (invocation : ValidatedToolInvocation) : PortM (Except KernelError CollectedExecution) := do
  let call ← countCall
  kernel.noteExecution call invocation
  return kernel.collectAt deadline call invocation

/-- The loop of `execute`, which reports progress while it reads. -/
def executeEvents (kernel : AgentKernel) (runId : RunId) (turnId : TurnId)
    (toolCallId : ToolCallId) (interruption : Option (Nat × Interruption))
    (validator : ToolStreamValidator) (terminal : Option ToolTerminal) :
    List ToolExecutionEvent → PortM ToolTerminal
  | [] =>
    match interruption with
    | some (0, cause) => fail cause.error
    | _ => check (finishStream validator terminal)
  | event :: events =>
    match interruption with
    | some (0, cause) => fail cause.error
    | _ => do
      let (validator, terminal) ← check (observeEvent validator terminal event)
      match event with
      | .progress item => kernel.emit (some runId) (some turnId) (item.collected toolCallId).event
      | .finished _ | .failed _ => pure ()
      executeEvents kernel runId turnId toolCallId (nextPoll interruption) validator terminal events

/-- `execute`. -/
def execute (kernel : AgentKernel) (runId : RunId) (turnId : TurnId) (deadline : ProtocolTimestamp)
    (invocation : ValidatedToolInvocation) : PortM ToolTerminal := do
  let call ← countCall
  kernel.noteExecution call invocation
  match kernel.tools.executeValidated call invocation with
  | .error error => fail error.kernelError
  | .ok events =>
    kernel.executeEvents runId turnId invocation.toolCallId
      (kernel.cancellation.interruption call deadline) .new none events

/-! ### Lanes -/

/-- The results of executions, by tool call. -/
abbrev Results := BTreeMap ToolCallId CollectedExecution

/-- Store results in order, up to the first error. -/
def gatherResults (results : Results) :
    List (ValidatedToolInvocation × Except KernelError CollectedExecution) →
      Results × Option KernelError
  | [] => (results, none)
  | (_, .error error) :: _ => (results, some error)
  | (invocation, .ok collected) :: rest =>
    gatherResults (results.insert invocation.toolCallId collected) rest

/-- The invocations of a serial lane, one after another up to the first error. -/
def executeSerially (kernel : AgentKernel) (deadline : ProtocolTimestamp) (results : Results) :
    List ValidatedToolInvocation → PortM (Results × Option KernelError)
  | [] => return (results, none)
  | invocation :: rest => do
    match ← kernel.collectExecution deadline invocation with
    | .error error => return (results, some error)
    | .ok collected =>
      executeSerially kernel deadline (results.insert invocation.toolCallId collected) rest

/-- One lane. The executions of a parallel lane are all run to their end before their results are
looked at. -/
def executeLane (kernel : AgentKernel) (deadline : ProtocolTimestamp) (results : Results)
    (lane : Lane) : PortM (Results × Option KernelError) :=
  if lane.allowsParallel then do
    let outcomes ← lane.invocations.mapM fun invocation =>
      return (invocation, ← kernel.collectExecution deadline invocation)
    return gatherResults results outcomes
  else kernel.executeSerially deadline results lane.invocations

/-- `execute_schedule_lanes`: the results collected, and the error that ended the lanes. -/
def executeScheduleLanes (kernel : AgentKernel) (deadline : ProtocolTimestamp) (results : Results) :
    List Lane → PortM (Results × Option KernelError)
  | [] => return (results, none)
  | lane :: lanes => do
    match ← kernel.executeLane deadline results lane with
    | (results, some error) => return (results, some error)
    | (results, none) => executeScheduleLanes kernel deadline results lanes

end AgentKernel

end TeaRs
