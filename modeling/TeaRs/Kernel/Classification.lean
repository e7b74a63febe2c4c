import TeaRs.Kernel.Config
import TeaRs.Session.State

/-!
# What the kernel makes of one tool call

The pure part of tool processing in the `tea-kernel` crate: a declared call is prepared against the
registry, a validated invocation is evaluated against the policy, and the decision determines the
durable facts that start it. A call that is not allowed directly asks for an approval, and the facts
that resolve the approval may start it later.

## Main definitions

* `CompletedToolCall`, `prepare`: a declared call and what the registry makes of it.
* `evaluateInvocation`: the policy input of an invocation and the decision on it.
* `durableDecision`, `executionTarget`, `selectedTarget`: what the log says about a decision.
* `Classified`, `Classified.ofDecision`: how a turn goes on with a call.
* `startRecords`, `resolutionFacts`: the durable facts that start a call.
* `approvalRequest`: the request that is stored when a call asks for an approval.
-/

namespace TeaRs

/-! ### Preparation -/

/-- `CompletedToolCall`: a call that the model declared. -/
structure CompletedToolCall where
  toolCallId : ToolCallId
  toolName : String
  arguments : Value
  deriving DecidableEq

/-- `PreparedToolCall`. -/
inductive PreparedToolCall where
  | valid (invocation : ValidatedToolInvocation)
  | rejected (code message : String)
  deriving DecidableEq

/-- `tool_execution_metadata`. Its one entry is within the bounds of protocol metadata. -/
def toolExecutionMetadata (sessionId : SessionId) : ProtocolMetadata :=
  Std.ExtTreeMap.insert ∅ "dev.tea-rs.execution" (.object [("sessionId", .string sessionId.toText)])

/-- The rejection of a call whose tool is not known. -/
def unknownTool : PreparedToolCall := .rejected "unknown_tool" "model requested an unknown tool"

/-- The rejection of a call whose arguments do not fit. -/
def invalidToolArguments : PreparedToolCall :=
  .rejected "invalid_tool_arguments" "model supplied invalid tool arguments"

/-- `prepare`. The registry errors that only registration raises do not occur. -/
def prepare (tools : ToolRegistry) (call : CompletedToolCall) (metadata : ProtocolMetadata) :
    PreparedToolCall :=
  match ToolName.ofString call.toolName with
  | none => unknownTool
  | some name =>
    match ToolInvocation.new call.toolCallId name call.arguments metadata with
    | .error _ => invalidToolArguments
    | .ok invocation =>
      match tools.validate invocation with
      | .ok validated => .valid validated
      | .error .unknownTool | .error .hostedToolNotClientExecutable => unknownTool
      | .error .invalidArguments | .error (.resources _) => invalidToolArguments

/-! ### Policy -/

/-- `durable_decision`. -/
def durableDecision : Policy.PolicyDecision → PolicyDecision
  | .allow | .redirect _ => .allow
  | .ask _ => .requireApproval
  | .deny _ | .hardDeny _ => .deny

/-- `execution_target`. -/
def executionTarget : PolicyExecutionTarget → ExecutionTarget
  | .mcp => .mcp
  | .remote => .remote
  | .native | .subprocess | .sandbox | .wasm => .native

/-- `selected_target`. The adapter of a foreign tool is that of its source. -/
def selectedTarget (decision : Policy.PolicyDecision) (configured : PolicyExecutionTarget)
    (source : ToolSourceKind) : ExecutionTarget :=
  match source with
  | .mcp => .mcp
  | .remote => .remote
  | .native =>
    match decision with
    | .redirect target => executionTarget target
    | .allow | .ask _ | .deny _ | .hardDeny _ => executionTarget configured

/-- `PolicyInput::from_validated` at the snapshot of a session, with the decision of the engine. -/
def evaluateInvocation (policy : PolicyEngine) (config : KernelRunConfig)
    (state : MaterializedSessionState) (runId : RunId) (invocation : ValidatedToolInvocation)
    (grants : List PolicyGrant) (now : ProtocolTimestamp) :
    Except KernelError (PolicyInput × Policy.PolicyDecision) :=
  match PolicyInput.fromValidated config.actorId state.configuration.profileId state.sessionId
      (some runId) config.workspaceId invocation config.environment now grants with
  | .error error => .error (.new .policyFailure error.text)
  | .ok input => .ok (input, (policy.evaluate input).decision)

theorem evaluateInvocation_eq_ok {policy : PolicyEngine} {config : KernelRunConfig}
    {state : MaterializedSessionState} {runId : RunId} {invocation : ValidatedToolInvocation}
    {grants : List PolicyGrant} {now : ProtocolTimestamp} {input : PolicyInput}
    {decision : Policy.PolicyDecision}
    (h : evaluateInvocation policy config state runId invocation grants now =
      .ok (input, decision)) :
    decision = (policy.evaluate input).decision ∧ input.environment = config.environment ∧
      input.sessionId = state.sessionId ∧ input.toolSource = invocation.source ∧
      input.arguments = invocation.arguments ∧ input.effects = invocation.spec.effects ∧
      input.resources = invocation.resources := by
  rw [evaluateInvocation, PolicyInput.fromValidated] at h
  split_ifs at h
  cases h
  exact ⟨rfl, rfl, rfl, rfl, rfl, rfl, rfl⟩

/-- `Classified`: how a turn goes on with a call. An entry of the source holds the index of its
call, here the call itself. -/
inductive Classified where
  | rejected (call : CompletedToolCall) (code message : String)
  | denied (call : CompletedToolCall) (reason : String)
  | allow (invocation : ValidatedToolInvocation) (target : ExecutionTarget)
  | ask (invocation : ValidatedToolInvocation) (input : PolicyInput) (reason : String)
  deriving DecidableEq

/-- The entry for a validated call with the decision on it. -/
def Classified.ofDecision (config : KernelRunConfig) (call : CompletedToolCall)
    (invocation : ValidatedToolInvocation) (input : PolicyInput) :
    Policy.PolicyDecision → Classified
  | .allow => .allow invocation
      (selectedTarget .allow config.environment.target invocation.source.kind)
  | .redirect target => .allow invocation
      (selectedTarget (.redirect target) config.environment.target invocation.source.kind)
  | .deny reason | .hardDeny reason => .denied call reason.text
  | .ask reason => .ask invocation input reason.text

/-! ### Durable facts -/

/-- The facts that start allowed calls, in source order. -/
def startRecords (batch : List (ValidatedToolInvocation × ExecutionTarget)) : List SessionRecord :=
  batch.flatMap fun (invocation, target) =>
    [.policyDecisionRecorded invocation.toolCallId .allow,
      .toolExecutionStarted invocation.toolCallId target invocation.spec.execution.idempotency]

/-- Whether a resolution lets the call run. -/
def ApprovalDecision.allows : ApprovalDecision → Bool
  | allowOnce | allowSession => true
  | deny => false

/-- The facts of `commit_resolution`. -/
def resolutionFacts (resolution : ApprovalResolution) (invocation : ValidatedToolInvocation)
    (target : PolicyExecutionTarget) : List SessionRecord :=
  .approvalResolved resolution.request.approvalId resolution.decision ::
    if resolution.decision.allows then
      [.toolExecutionStarted resolution.request.toolCallId
        (selectedTarget .allow target invocation.source.kind)
        invocation.spec.execution.idempotency]
    else []

/-- `request` of `approval.rs`. -/
def approvalRequest (approvalId : ApprovalId) (input : PolicyInput) (reason : String)
    (createdAt : ProtocolTimestamp) (ttl : Nat) : Except KernelError ApprovalRequest := do
  let expiresAt ← addDuration createdAt ttl
  match ApprovalPresentation.fromInput reason input.arguments input.resources with
  | .error error => throw (.new .policyFailure error.text)
  | .ok presentation =>
    match ApprovalRequest.new approvalId input createdAt expiresAt presentation with
    | .error error => throw (.new .policyFailure error.text)
    | .ok request => return request

end TeaRs
