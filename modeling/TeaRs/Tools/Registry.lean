import TeaRs.Lib.Run
import TeaRs.Protocol.Record
import TeaRs.Tools.Identity

/-!
# Tool specifications, invocations and the registry

The part of the `tea-tools` crate that the kernel calls: what a tool declares about itself, how an
untrusted invocation becomes a validated one, and what the registry makes of the stream of an
executor. A compiled JSON schema is the predicate it decides. An executor and a resolver are foreign
code and appear as functions; what an executor answers may differ from one execution to the next, so
its stream depends on the running number of the execution.

## Main definitions

* `ToolSpec`, `ToolSpec.schedulerClass`.
* `ToolInvocation`, `ValidatedToolInvocation`.
* `ToolResult`, `ToolExecutionFailure`, `ToolExecutionEvent`.
* `ToolRegistry.validate`, `ToolRegistry.executeValidated`.

## Main results

* `ToolRegistry.executeValidated_of_validate`: what the registry validated it also executes.
* `ToolRegistry.executeValidated_normalised`: a stream the registry hands out is progress followed by
  one terminal event, and a result among them satisfies the output schema.
-/

namespace TeaRs

/-! ### Specifications -/

/-- `ToolRetrySafety`. -/
inductive ToolRetrySafety where
  | never | explicitOnly | automatic
  deriving DecidableEq, Repr

/-- `ToolConcurrency`. -/
inductive ToolConcurrency where
  | parallel | serial | exclusive
  deriving DecidableEq, Repr

/-- `ToolExecutionSemantics`: an invocation that is not idempotent is never retried by itself. -/
structure ToolExecutionSemantics where
  idempotency : ToolIdempotency
  retrySafety : ToolRetrySafety
  concurrency : ToolConcurrency
  valid : ¬(idempotency = .nonIdempotent ∧ retrySafety = .automatic)
  deriving DecidableEq

/-- `SchedulerClass`. -/
inductive SchedulerClass where
  | parallelReadOnly | parallelRetrySafe | serial | exclusive | policyRequired
  deriving DecidableEq, Repr

namespace SchedulerClass

/-- `SchedulerClass::requires_policy`. -/
def requiresPolicy : SchedulerClass → Bool
  | policyRequired => true
  | _ => false

/-- `SchedulerClass::allows_parallel_execution`. -/
def allowsParallelExecution : SchedulerClass → Bool
  | parallelReadOnly | parallelRetrySafe => true
  | _ => false

end SchedulerClass

namespace ToolEffect

/-- `ToolEffect::is_unknown`. -/
def isUnknown : ToolEffect → Bool
  | unknown _ => true
  | _ => false

/-- `ToolEffect::is_read_only`. -/
def isReadOnly : ToolEffect → Bool
  | fsRead | credentialRead | clipboardRead | externalRead => true
  | _ => false

end ToolEffect

/-- `ToolSpec`, as far as validation, scheduling and execution read it. -/
structure ToolSpec where
  name : ToolName
  version : ToolVersion
  inputSchema : Value
  outputSchema : Value
  effects : List ToolEffect
  source : ToolSource
  execution : ToolExecutionSemantics
  effects_valid : effects.Pairwise (fun a b => compare a b = .lt) ∧ effects ≠ [] ∧
    effects.length ≤ 64
  deriving DecidableEq

/-- The semantics of a tool that only reads. -/
def ToolExecutionSemantics.automaticRead : ToolExecutionSemantics :=
  ⟨.idempotent, .automatic, .parallel, by decide⟩

theorem fsRead_valid : [ToolEffect.fsRead].Pairwise (fun a b => compare a b = .lt) ∧
    [ToolEffect.fsRead] ≠ [] ∧ [ToolEffect.fsRead].length ≤ 64 :=
  ⟨by simp, by simp, by decide⟩

/-- `ToolSpec::scheduler_class`. -/
def ToolSpec.schedulerClass (spec : ToolSpec) : SchedulerClass :=
  if spec.effects.any ToolEffect.isUnknown then .policyRequired
  else if spec.execution.concurrency = .exclusive then .exclusive
  else if spec.execution.concurrency = .serial ∨ spec.execution.idempotency = .nonIdempotent then
    .serial
  else if spec.effects.all ToolEffect.isReadOnly then .parallelReadOnly
  else if spec.execution.retrySafety = .automatic then .parallelRetrySafe
  else .serial

/-! ### Invocations -/

/-- `ToolInvocationError`. -/
inductive ToolInvocationError where
  | argumentsMustBeObject | argumentsOutOfBounds
  deriving DecidableEq, Repr

/-- The bounds of `ToolInvocation::new`; a scalar has depth one here. -/
def isInvocationArguments (arguments : Value) : Bool :=
  arguments.isObject && decide (arguments.encodedLength ≤ 256 * 1024) &&
    decide (arguments.presentedDepth ≤ 32)

theorem emptyObject_valid : isInvocationArguments (.object []) = true := by
  decide +kernel

/-- `ToolInvocation`: an untrusted complete invocation. -/
structure ToolInvocation where
  toolCallId : ToolCallId
  name : ToolName
  arguments : Value
  metadata : ProtocolMetadata
  valid : isInvocationArguments arguments = true
  deriving DecidableEq

/-- `ToolInvocation::new`. -/
def ToolInvocation.new (toolCallId : ToolCallId) (name : ToolName) (arguments : Value)
    (metadata : ProtocolMetadata) : Except ToolInvocationError ToolInvocation :=
  if h : isInvocationArguments arguments = true then
    .ok ⟨toolCallId, name, arguments, metadata, h⟩
  else if !arguments.isObject then .error .argumentsMustBeObject
  else .error .argumentsOutOfBounds

/-- `ValidatedToolInvocation`: an invocation with the specification and the resources the registry
found for it. The source is that of the specification. -/
structure ValidatedToolInvocation where
  invocation : ToolInvocation
  spec : ToolSpec
  resources : List ToolResource
  deriving DecidableEq

namespace ValidatedToolInvocation

/-- `ValidatedToolInvocation::tool_call_id`. -/
def toolCallId (validated : ValidatedToolInvocation) : ToolCallId := validated.invocation.toolCallId

/-- `ValidatedToolInvocation::name`. -/
def name (validated : ValidatedToolInvocation) : ToolName := validated.invocation.name

/-- `ValidatedToolInvocation::arguments`. -/
def arguments (validated : ValidatedToolInvocation) : Value := validated.invocation.arguments

/-- `ValidatedToolInvocation::source`. -/
def source (validated : ValidatedToolInvocation) : ToolSource := validated.spec.source

/-- `ValidatedToolInvocation::scheduler_class`. -/
def schedulerClass (validated : ValidatedToolInvocation) : SchedulerClass :=
  validated.spec.schedulerClass

end ValidatedToolInvocation

/-! ### Execution streams -/

/-- `ToolProgress`. -/
structure ToolProgress where
  message : String
  completedUnits : Nat
  totalUnits : Option Nat
  valid : isBoundedText 4096 message = true ∧ totalUnits.all (completedUnits ≤ ·) = true
  deriving DecidableEq

/-- The checks of `ToolResult::new` on model-visible content. -/
def isResultContent (content : List ContentBlock) : Bool :=
  !content.isEmpty && decide (content.length ≤ 256) &&
    content.all ContentBlock.validForToolResult && content.all fun block => block.validate.isOk

/-- `ToolResult`. -/
structure ToolResult where
  content : List ContentBlock
  output : Value
  presentation : Option ToolPresentation
  valid : isResultContent content = true ∧ isInvocationArguments output = true
  deriving DecidableEq

/-- `ToolExecutionFailureCode`. -/
inductive ToolExecutionFailureCode where
  | executionFailed | cancelled | invalidOutput | internal
  deriving DecidableEq, Repr

/-- `ToolExecutionFailure`. -/
@[ext] structure ToolExecutionFailure where
  code : ToolExecutionFailureCode
  message : String
  valid : isBoundedText 4096 message = true

instance : DecidableEq ToolExecutionFailure := fun a b =>
  decidable_of_iff (a.code = b.code ∧ a.message = b.message) ToolExecutionFailure.ext_iff.symm

namespace ToolExecutionFailure

/-- `ToolExecutionFailure::invalid_output`. -/
def outputInvalid : ToolExecutionFailure :=
  ⟨.invalidOutput, "tool executor returned invalid output", by decide +kernel⟩

/-- `ToolExecutionFailure::internal_contract`. -/
def internalContract : ToolExecutionFailure :=
  ⟨.internal, "tool executor stream ended without a terminal result", by decide +kernel⟩

end ToolExecutionFailure

/-- `ToolExecutionEvent`. -/
inductive ToolExecutionEvent where
  | progress (progress : ToolProgress)
  | finished (result : ToolResult)
  | failed (failure : ToolExecutionFailure)
  deriving DecidableEq

/-- Whether an event ends its stream. -/
def ToolExecutionEvent.isTerminal : ToolExecutionEvent → Bool
  | progress _ => false
  | finished _ | failed _ => true

/-- `ToolStreamViolation`. -/
inductive ToolStreamViolation where
  | invalidProgress | eventAfterTerminal | missingTerminal
  deriving DecidableEq, Repr

/-- The `Display` form of a violation. -/
def ToolStreamViolation.text : ToolStreamViolation → String
  | invalidProgress => "tool progress is invalid"
  | eventAfterTerminal => "tool event appeared after terminal"
  | missingTerminal => "tool stream ended without terminal result"

/-- `ToolStreamValidator`: whether a terminal event was observed. -/
structure ToolStreamValidator where
  terminal : Bool
  deriving DecidableEq

namespace ToolStreamValidator

/-- `ToolStreamValidator::new`. -/
def new : ToolStreamValidator := ⟨false⟩

/-- `ToolStreamValidator::observe`. -/
def observe (validator : ToolStreamValidator) (event : ToolExecutionEvent) :
    Except ToolStreamViolation ToolStreamValidator :=
  if validator.terminal then .error .eventAfterTerminal
  else
    match event with
    | .progress _ => .ok validator
    | .finished _ | .failed _ => .ok ⟨true⟩

/-- `ToolStreamValidator::finish`. -/
def finish (validator : ToolStreamValidator) : Except ToolStreamViolation Unit :=
  if validator.terminal then .ok () else .error .missingTerminal

end ToolStreamValidator

/-! ### The registry -/

/-- `ToolResourceError`. -/
inductive ToolResourceError where
  | invalidScheme | invalidLocator | tooManyResources | unresolved
  deriving DecidableEq, Repr

/-- `ToolResource::new`. -/
def ToolResource.new (scheme locator : String) (access : ToolResourceAccess) :
    Except ToolResourceError ToolResource :=
  if hs : isScheme scheme = true then
    if hl : isLocator locator = true then .ok ⟨scheme, locator, access, hs, hl⟩
    else .error .invalidLocator
  else .error .invalidScheme

/-- `ToolRegistryError`, as far as validation and execution raise it. -/
inductive ToolRegistryError where
  | unknownTool
  | hostedToolNotClientExecutable
  | invalidArguments
  | resources (error : ToolResourceError)
  deriving DecidableEq, Repr

/-- `ToolResourceResolver`. -/
abbrev ToolResourceResolver := ToolName → Value → Except ToolResourceError (List ToolResource)

/-- `ToolExecutor`: an optional preview, and the events of the stream of an execution. -/
structure ToolExecutor where
  preview : ValidatedToolInvocation → Option ToolPresentation
  execute : (execution : Nat) → ValidatedToolInvocation → List ToolExecutionEvent

/-- `ToolBinding`. -/
inductive ToolBinding where
  | client (resolver : ToolResourceResolver) (executor : ToolExecutor)
  | hosted
  | hybrid (resolver : ToolResourceResolver) (executor : ToolExecutor)

/-- `ToolBinding::client_parts`. -/
def ToolBinding.clientParts : ToolBinding → Option (ToolResourceResolver × ToolExecutor)
  | client resolver executor | hybrid resolver executor => some (resolver, executor)
  | hosted => none

/-- `CompiledToolSchema`: the values a schema accepts. -/
abbrev CompiledToolSchema := Value → Bool

/-- `RegisteredTool`. -/
structure RegisteredTool where
  spec : ToolSpec
  input : CompiledToolSchema
  output : CompiledToolSchema
  binding : ToolBinding

/-- `MAX_TOOL_RESOURCES`. -/
def maxToolResources : Nat := 128

/-- `ToolRegistry`, by its lookup. -/
structure ToolRegistry where
  tools : ToolName → Option RegisteredTool

/-- The stream `execute_validated` hands out: it ends with its first terminal event, an output that
the schema rejects is a failure, and so is a stream without a terminal event. -/
def enforceTerminal (output : CompiledToolSchema) :
    List ToolExecutionEvent → List ToolExecutionEvent
  | [] => [.failed .internalContract]
  | .progress progress :: rest => .progress progress :: enforceTerminal output rest
  | .finished result :: _ =>
    [if output result.output then .finished result else .failed .outputInvalid]
  | .failed failure :: _ => [.failed failure]

/-- The stream is progress followed by one terminal event, which is a result only if the executor
yielded that result after the progress and the schema accepts its output. -/
theorem enforceTerminal_eq (output : CompiledToolSchema) (events : List ToolExecutionEvent) :
    ∃ (progress : List ToolProgress) (terminal : ToolExecutionEvent),
      enforceTerminal output events = progress.map .progress ++ [terminal] ∧
      terminal.isTerminal = true ∧
      ∀ result, terminal = .finished result ↔ output result.output = true ∧
        ∃ rest, events = progress.map .progress ++ .finished result :: rest := by
  induction events with
  | nil => exact ⟨[], .failed .internalContract, rfl, rfl, by simp⟩
  | cons event rest ih =>
    cases event with
    | progress first =>
      obtain ⟨progress, terminal, h, hterminal, finished⟩ := ih
      refine ⟨first :: progress, terminal, ?_, hterminal, fun result => ?_⟩
      · rw [enforceTerminal, h]
        rfl
      · simp only [finished result, List.map_cons, List.cons_append, List.cons.injEq, true_and]
    | finished result =>
      refine ⟨[], _, rfl, ?_, fun other => ?_⟩
      · split <;> rfl
      · split_ifs with accepted
        · simp only [ToolExecutionEvent.finished.injEq, List.map_nil, List.nil_append,
            List.cons.injEq, exists_and_left, exists_eq', and_true]
          exact ⟨fun same => ⟨same ▸ accepted, same⟩, And.right⟩
        · simp only [List.map_nil, List.nil_append, List.cons.injEq,
            ToolExecutionEvent.finished.injEq, exists_and_left, exists_eq', and_true, false_iff]
          rintro ⟨rejected, rfl⟩
          exact accepted rejected
    | failed failure => exact ⟨[], .failed failure, rfl, rfl, by simp⟩

/-- `ExecutionValidationState`: the events the executor has left, and whether a terminal event was
handed out. -/
structure ExecutionValidationState where
  upstream : List ToolExecutionEvent
  output : CompiledToolSchema
  done : Bool

/-- The function that `execute_validated` unfolds the stream with. -/
def ExecutionValidationState.next (state : ExecutionValidationState) :
    Option (ToolExecutionEvent × ExecutionValidationState) :=
  if state.done then none
  else
    match state.upstream with
    | [] => some (.failed .internalContract, { state with done := true })
    | .finished result :: rest =>
      some (if state.output result.output then .finished result else .failed .outputInvalid,
        { state with upstream := rest, done := true })
    | .failed failure :: rest =>
      some (.failed failure, { state with upstream := rest, done := true })
    | .progress progress :: rest => some (.progress progress, { state with upstream := rest })

/-- Unfolding yields the stream and then ends. -/
theorem run_enforceTerminal (output : CompiledToolSchema) (events : List ToolExecutionEvent) :
    ∃ last : ExecutionValidationState,
      Run (fun state event state' => state.next = some (event, state')) ⟨events, output, false⟩
        (enforceTerminal output events) last ∧ last.next = none := by
  induction events with
  | nil => exact ⟨_, Run.cons_iff.mpr ⟨_, rfl, .nil⟩, rfl⟩
  | cons event rest ih =>
    cases event with
    | progress progress =>
      obtain ⟨last, run, ends⟩ := ih
      exact ⟨last, Run.cons_iff.mpr ⟨_, rfl, run⟩, ends⟩
    | finished result | failed failure => exact ⟨_, Run.cons_iff.mpr ⟨_, rfl, .nil⟩, rfl⟩

namespace ToolRegistry

/-- `ToolRegistry::validate`. -/
def validate (registry : ToolRegistry) (invocation : ToolInvocation) :
    Except ToolRegistryError ValidatedToolInvocation :=
  match registry.tools invocation.name with
  | none => .error .unknownTool
  | some registered =>
    match registered.binding.clientParts with
    | none => .error .hostedToolNotClientExecutable
    | some (resolver, _) =>
      if !registered.input invocation.arguments then .error .invalidArguments
      else
        match resolver invocation.name invocation.arguments with
        | .error error => .error (.resources error)
        | .ok resources =>
          let resources := sortDedup resources
          if maxToolResources < resources.length then .error (.resources .tooManyResources)
          else .ok ⟨invocation, registered.spec, resources⟩

/-- `ToolRegistry::execute_validated`: the stream of the execution with the given running number. -/
def executeValidated (registry : ToolRegistry) (execution : Nat)
    (invocation : ValidatedToolInvocation) : Except ToolRegistryError (List ToolExecutionEvent) :=
  match (registry.tools invocation.name).filter fun tool => tool.spec == invocation.spec with
  | none => .error .unknownTool
  | some registered =>
    match registered.binding.clientParts with
    | none => .error .hostedToolNotClientExecutable
    | some (_, executor) =>
      .ok (enforceTerminal registered.output (executor.execute execution invocation))

/-- `ToolRegistry::preview_validated`. -/
def previewValidated (registry : ToolRegistry) (invocation : ValidatedToolInvocation) :
    Option ToolPresentation :=
  match (registry.tools invocation.name).filter fun tool => tool.spec == invocation.spec with
  | none => none
  | some registered =>
    match registered.binding.clientParts with
    | none => none
    | some (_, executor) => executor.preview invocation

variable {registry : ToolRegistry} {validated : ValidatedToolInvocation}

/-- A validated invocation carries its invocation and a tool of the registry that has a client
route. -/
theorem validate_eq_ok {invocation : ToolInvocation}
    (h : registry.validate invocation = .ok validated) :
    validated.invocation = invocation ∧
      ∃ registered parts, registry.tools invocation.name = some registered ∧
        registered.binding.clientParts = some parts ∧ validated.spec = registered.spec := by
  unfold validate at h
  cases hfound : registry.tools invocation.name with
  | none => simp [hfound] at h
  | some registered =>
    cases hparts : registered.binding.clientParts with
    | none => simp [hfound, hparts] at h
    | some parts =>
      simp only [hfound, hparts] at h
      split_ifs at h
      split at h
      · cases h
      · split_ifs at h
        cases h
        exact ⟨rfl, registered, parts, rfl, hparts, rfl⟩

/-- What the registry validated it also executes. -/
theorem executeValidated_of_validate {invocation : ToolInvocation}
    (h : registry.validate invocation = .ok validated) (execution : Nat) :
    ∃ output events, registry.executeValidated execution validated =
      .ok (enforceTerminal output events) := by
  obtain ⟨rfl, registered, parts, hfound, hparts, hspec⟩ := validate_eq_ok h
  refine ⟨registered.output, parts.2.execute execution validated, ?_⟩
  have hname : registry.tools validated.name = some registered := hfound
  simp only [executeValidated, hname, Option.filter_some, hspec, beq_self_eq_true, if_true, hparts]

/-- Whatever an executor yields, the stream of an execution is what its state machine yields until it
ends: progress followed by one terminal event. That is a result, which is within the bounds of every
`ToolResult`, exactly if the executor yielded it right after the progress and the output schema of the
tool accepts its output. -/
theorem executeValidated_normalised {registry : ToolRegistry} {execution : Nat}
    {invocation : ValidatedToolInvocation} {stream : List ToolExecutionEvent}
    (ok : registry.executeValidated execution invocation = .ok stream) :
    ∃ (registered : RegisteredTool) (resolver : ToolResourceResolver) (executor : ToolExecutor)
        (progress : List ToolProgress) (terminal : ToolExecutionEvent),
      registry.tools invocation.name = some registered ∧ registered.spec = invocation.spec ∧
      registered.binding.clientParts = some (resolver, executor) ∧
      (∃ last : ExecutionValidationState,
        Run (fun state event state' => state.next = some (event, state'))
          ⟨executor.execute execution invocation, registered.output, false⟩ stream last ∧
        last.next = none) ∧
      stream = progress.map .progress ++ [terminal] ∧ terminal.isTerminal = true ∧
      ∀ result, terminal = .finished result ↔ registered.output result.output = true ∧
        ∃ rest, executor.execute execution invocation =
          progress.map .progress ++ .finished result :: rest := by
  unfold executeValidated at ok
  split at ok
  · cases ok
  · next registered found =>
    obtain ⟨found, same⟩ := Option.filter_eq_some_iff.mp found
    split at ok
    · cases ok
    · next resolver executor parts =>
      obtain rfl := Except.ok.inj ok
      obtain ⟨progress, terminal, h⟩ :=
        enforceTerminal_eq registered.output (executor.execute execution invocation)
      exact ⟨registered, resolver, executor, progress, terminal, found, beq_iff_eq.mp same, parts,
        run_enforceTerminal _ _, h⟩

end ToolRegistry

/-! ### A tool that reads -/

/-- A tool of the product that reads files. -/
def readSpec : ToolSpec where
  name := readName
  version := ⟨"1.0.0"⟩
  inputSchema := .object []
  outputSchema := .object []
  effects := [.fsRead]
  source := .nativeProduct
  execution := .automaticRead
  effects_valid := fsRead_valid

/-- A validated call of the tool. -/
def readInvocation (toolCallId : ToolCallId) : ValidatedToolInvocation where
  invocation := ⟨toolCallId, readSpec.name, .object [], ∅, emptyObject_valid⟩
  spec := readSpec
  resources := [notesFile]

/-- A registry in which every name is the tool, whose executor yields two failures. -/
def failingRegistry : ToolRegistry where
  tools _ := some
    { spec := readSpec
      input := fun _ => true
      output := fun _ => true
      binding := .client (fun _ _ => .ok [])
        ⟨fun _ => none, fun _ _ => [.failed .outputInvalid, .failed .internalContract]⟩ }

theorem executeValidated_normalised_failingRegistry :
    failingRegistry.executeValidated 0 (readInvocation ⟨0⟩) = .ok [.failed .outputInvalid] ∧
      ∃ (progress : List ToolProgress) (terminal : ToolExecutionEvent),
        [.failed .outputInvalid] = progress.map .progress ++ [terminal] ∧
          terminal.isTerminal = true := by
  have ok : failingRegistry.executeValidated 0 (readInvocation ⟨0⟩) =
      .ok [.failed .outputInvalid] := by decide +kernel
  obtain ⟨_, _, _, progress, terminal, _, _, _, _, stream, isTerminal, _⟩ :=
    ToolRegistry.executeValidated_normalised ok
  exact ⟨ok, progress, terminal, stream, isTerminal⟩

end TeaRs
