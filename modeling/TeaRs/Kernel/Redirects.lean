import TeaRs.Kernel.Classification
import TeaRs.Policy.Composition

/-!
# Which target a redirected call is started on

A rule may demand another execution target than the configured one. The engine keeps the first of
the most restrictive decisions, a request for approval is more restrictive than a redirection, and
the facts that start an approved call do not look at the rules again. So a redirection reaches the
start record only if no rule asks for an approval, and then the first redirection does.

## Main definitions

* `Policy.FirstMost`: a decision that exceeds the ones before it and is not exceeded after it.
* `Policy.firstRedirect`: the target of the first redirection.
* `Starts`: the records with which the kernel starts a call, directly or after an approval.
* `Honours`: when the target of a redirection is the target of the start record.

## Main results

* `PolicyEngine.firstMost_evaluateRules`: the loop over the rules keeps the first of the most
  restrictive decisions.
* `started_on_redirect_iff`: a redirection is honoured if and only if `Honours` holds.
-/

namespace TeaRs

open List

namespace Policy

/-- The decision exceeds the decisions before it, and none after it exceeds it. -/
def FirstMost (decisions : List PolicyDecision) (d : PolicyDecision) : Prop :=
  ∃ before after, decisions = before ++ d :: after ∧
    (∀ x ∈ before, x.restriction < d.restriction) ∧ ∀ x ∈ after, x.restriction ≤ d.restriction

namespace FirstMost

variable {decisions : List PolicyDecision} {d x y : PolicyDecision}

theorem singleton (d : PolicyDecision) : FirstMost [d] d := ⟨[], [], rfl, by simp, by simp⟩

theorem cons_of_lt (h : FirstMost (y :: decisions) d) (lt : x.restriction < y.restriction) :
    FirstMost (x :: y :: decisions) d := by
  obtain ⟨before, after, split, below, above⟩ := h
  have most : y.restriction ≤ d.restriction := by
    rcases mem_append.mp (split ▸ mem_cons_self : y ∈ before ++ d :: after) with hy | hy
    · exact (below y hy).le
    · rcases mem_cons.mp hy with rfl | hy
      · exact le_rfl
      · exact above y hy
  refine ⟨x :: before, after, by rw [split]; rfl, ?_, above⟩
  exact forall_mem_cons.mpr ⟨lt.trans_le most, below⟩

theorem insert_of_le (h : FirstMost (x :: decisions) d) (le : y.restriction ≤ x.restriction) :
    FirstMost (x :: y :: decisions) d := by
  obtain ⟨before, after, split, below, above⟩ := h
  cases before with
  | nil =>
    obtain ⟨rfl, rfl⟩ := cons.inj split
    exact ⟨[], y :: decisions, rfl, by simp, forall_mem_cons.mpr ⟨le, above⟩⟩
  | cons b before =>
    obtain ⟨rfl, rfl⟩ := cons.inj split
    have first := below x mem_cons_self
    refine ⟨x :: y :: before, after, rfl, ?_, above⟩
    refine forall_mem_cons.mpr ⟨first, forall_mem_cons.mpr ⟨le.trans_lt first, ?_⟩⟩
    exact fun b hb => below b (mem_cons_of_mem _ hb)

end FirstMost

/-- The target of the first redirection of a list. -/
def firstRedirect (decisions : List PolicyDecision) : Option PolicyExecutionTarget :=
  decisions.findSome? fun
    | .redirect target => some target
    | .allow | .ask _ | .deny _ | .hardDeny _ => none

theorem FirstMost.firstRedirect_eq {decisions : List PolicyDecision}
    {target : PolicyExecutionTarget} (h : FirstMost decisions (.redirect target)) :
    firstRedirect decisions = some target := by
  obtain ⟨before, after, rfl, below, -⟩ := h
  rw [firstRedirect, findSome?_append]
  have nothing : before.findSome? (fun
      | .redirect target => some target
      | .allow | .ask _ | .deny _ | .hardDeny _ => none) =
      (none : Option PolicyExecutionTarget) := by
    rw [findSome?_eq_none_iff]
    intro x hx
    cases x with
    | redirect other => exact absurd (below _ hx) (lt_irrefl _)
    | allow | ask | deny | hardDeny => rfl
  rw [nothing]
  rfl

end Policy

open Policy

namespace PolicyEngine

variable {input : PolicyInput} {current : Option Policy.PolicyDecision} {rules : List PolicyRule}
  {d : Policy.PolicyDecision}

/-- The loop over the rules keeps the first of the most restrictive decisions. -/
theorem firstMost_evaluateRules (h : evaluateRules input current rules = .ok (some d)) :
    FirstMost (current.toList ++ decisionsOf input rules) d := by
  induction rules generalizing current with
  | nil =>
    rw [evaluateRules] at h
    cases h
    exact FirstMost.singleton d
  | cons rule rules ih =>
    cases decided : rule.evaluate input with
    | none =>
      rw [evaluateRules, decided] at h
      rw [decisionsOf_cons_none decided]
      exact ih h
    | some x =>
      have loop : (if current.all fun value => decide (value.restriction < x.restriction) then
          evaluateRules input (some x) rules else evaluateRules input current rules) =
            .ok (some d) := by
        rw [evaluateRules, decided] at h
        cases x with
        | hardDeny reason => cases h
        | allow | redirect | ask | deny => exact h
      rw [decisionsOf_cons_some decided]
      cases current with
      | none =>
        have started : evaluateRules input (some x) rules = .ok (some d) := loop
        exact ih started
      | some value =>
        by_cases lt : value.restriction < x.restriction
        · simp only [Option.all_some, lt, decide_true, if_true] at loop
          exact (ih loop).cons_of_lt lt
        · simp only [Option.all_some, lt, decide_false, Bool.false_eq_true, if_false] at loop
          exact (ih loop).insert_of_le (Nat.le_of_not_lt lt)

theorem evaluateRules_eq_error
    (h : evaluateRules input current rules = .error d) : ∃ reason, d = .hardDeny reason := by
  induction rules generalizing current with
  | nil => cases h
  | cons rule rules ih =>
    rw [evaluateRules] at h
    split at h
    · exact ih h
    · cases h
      exact ⟨_, rfl⟩
    · split_ifs at h
      · exact ih h
      · exact ih h

theorem firstRedirect_of_decideByRules {engine : PolicyEngine}
    {target : PolicyExecutionTarget} (h : engine.decideByRules input = .redirect target) :
    firstRedirect (engine.decisions input) = some target := by
  rw [decideByRules] at h
  cases loop : evaluateRules input none engine.rules with
  | error d =>
    obtain ⟨reason, rfl⟩ := evaluateRules_eq_error loop
    rw [loop] at h
    cases h
  | ok current =>
    rw [loop] at h
    cases current with
    | none => cases h
    | some d =>
      obtain rfl : d = .redirect target := h
      exact (firstMost_evaluateRules loop).firstRedirect_eq

end PolicyEngine

/-! ### Start records -/

/-- The records with which the kernel starts the call of a policy input: the facts of an allowed
call, or the facts that resolve the approval of a call that asked for one. The configuration and the
invocation of a resolution agree with its request, as `resume_approval` checks. -/
inductive Starts (policy : PolicyEngine) (input : PolicyInput) : SessionRecord → Prop
  | direct {config : KernelRunConfig} {state : MaterializedSessionState} {runId : RunId}
      {call : CompletedToolCall} {invocation : ValidatedToolInvocation} {grants : List PolicyGrant}
      {now : ProtocolTimestamp} {decision : Policy.PolicyDecision} {target : ExecutionTarget}
      {record : SessionRecord}
      (evaluated : evaluateInvocation policy config state runId invocation grants now =
        .ok (input, decision))
      (allowed : Classified.ofDecision config call invocation input decision =
        .allow invocation target)
      (mem : record ∈ startRecords [(invocation, target)]) : Starts policy input record
  | approved {config : KernelRunConfig} {invocation : ValidatedToolInvocation}
      {approvalId : ApprovalId} {reason : PolicyReason} {createdAt : ProtocolTimestamp} {ttl : Nat}
      {resolution : ApprovalResolution} {record : SessionRecord}
      (asked : (policy.evaluate input).decision = .ask reason)
      (requested : approvalRequest approvalId input reason.text createdAt ttl =
        .ok resolution.request)
      (environment : resolution.request.environment = config.environment)
      (source : invocation.source = resolution.request.toolSource)
      (mem : record ∈ resolutionFacts resolution invocation config.environment.target) :
      Starts policy input record

theorem approvalRequest_eq_ok {approvalId : ApprovalId} {input : PolicyInput} {reason : String}
    {createdAt : ProtocolTimestamp} {ttl : Nat} {request : ApprovalRequest}
    (h : approvalRequest approvalId input reason createdAt ttl = .ok request) :
    request.environment = input.environment ∧ request.toolSource = input.toolSource := by
  rw [approvalRequest] at h
  obtain ⟨expiresAt, -, h⟩ := StateError.except_bind_eq_ok.mp h
  split at h
  · cases h
  · split at h
    · cases h
    · next built =>
      cases h
      rw [ApprovalRequest.new] at built
      split_ifs at built
      cases built
      exact ⟨rfl, rfl⟩

namespace Starts

variable {policy : PolicyEngine} {input : PolicyInput} {toolCallId : ToolCallId}
  {target : ExecutionTarget} {idempotency : ToolIdempotency}

/-- A start record has the target that the decision selects: the decision of the rules, or a
permission if a rule asks. -/
theorem target_cases
    (h : Starts policy input (.toolExecutionStarted toolCallId target idempotency)) :
    ((∃ reason, policy.decideByRules input = .ask reason) ∧
        target = selectedTarget .allow input.environment.target input.toolSource.kind) ∨
      (policy.decideByRules input = .allow ∨
          ∃ redirected, policy.decideByRules input = .redirect redirected) ∧
        target = selectedTarget (policy.decideByRules input) input.environment.target
          input.toolSource.kind := by
  cases h with
  | direct evaluated allowed mem =>
    obtain ⟨rfl, environment, -, source, -⟩ := evaluateInvocation_eq_ok evaluated
    simp only [startRecords, flatMap_cons, flatMap_nil, append_nil, mem_cons,
      reduceCtorEq, SessionRecord.toolExecutionStarted.injEq, not_mem_nil, or_false,
      false_or] at mem
    obtain ⟨-, rfl, -⟩ := mem
    rw [environment, source]
    rcases PolicyEngine.evaluate_cases policy input with ⟨same, -⟩ | ⟨asked, granted, -⟩
    · rw [same] at allowed
      cases decided : policy.decideByRules input with rw [decided] at allowed
      | allow =>
        cases allowed
        exact .inr ⟨.inl rfl, rfl⟩
      | redirect redirected =>
        cases allowed
        exact .inr ⟨.inr ⟨redirected, rfl⟩, rfl⟩
      | ask | deny | hardDeny => cases allowed
    · rw [granted] at allowed
      cases allowed
      exact .inl ⟨asked, rfl⟩
  | @approved config invocation approvalId reason createdAt ttl resolution _ asked requested
      environment source mem =>
    obtain ⟨hasEnvironment, hasSource⟩ := approvalRequest_eq_ok requested
    simp only [resolutionFacts, mem_cons, reduceCtorEq, false_or] at mem
    split_ifs at mem
    · simp only [mem_singleton, SessionRecord.toolExecutionStarted.injEq] at mem
      obtain ⟨-, rfl, -⟩ := mem
      rw [← environment, hasEnvironment, source, hasSource]
      refine .inl ⟨?_, rfl⟩
      rcases PolicyEngine.evaluate_cases policy input with ⟨same, -⟩ | ⟨-, granted, -⟩
      · exact ⟨reason, same.symm.trans asked⟩
      · cases granted.symm.trans asked
    · cases mem

end Starts

/-- When the target of a redirection is the target of the start record. The adapter of a foreign
tool is that of its source. For a tool of the product, no rule asks and the first redirection has
the same durable target, or a rule asks and the configured target is the same. -/
def Honours (policy : PolicyEngine) (input : PolicyInput) (target : PolicyExecutionTarget) : Prop :=
  match input.toolSource.kind with
  | .mcp => executionTarget target = .mcp
  | .remote => executionTarget target = .remote
  | .native =>
    ((∃ reason, .ask reason ∈ policy.decisions input) ∧
        executionTarget input.environment.target = executionTarget target) ∨
      (∀ reason, .ask reason ∉ policy.decisions input) ∧
        ∃ first, firstRedirect (policy.decisions input) = some first ∧
          executionTarget first = executionTarget target

/-- If a rule redirects a call and the kernel starts it, the start record has the target of the
redirection if and only if the redirection is honoured. -/
theorem started_on_redirect_iff {policy : PolicyEngine} {input : PolicyInput}
    {redirected : PolicyExecutionTarget} {toolCallId : ToolCallId} {target : ExecutionTarget}
    {idempotency : ToolIdempotency} (demanded : .redirect redirected ∈ policy.decisions input)
    (started : Starts policy input (.toolExecutionStarted toolCallId target idempotency)) :
    target = executionTarget redirected ↔ Honours policy input redirected := by
  have most := PolicyEngine.mostRestrictive_decideByRules (ne_nil_of_mem demanded)
  rcases started.target_cases with ⟨⟨reason, asked⟩, rfl⟩ | ⟨permitted, rfl⟩
  · have asks : ∃ reason, .ask reason ∈ policy.decisions input := ⟨reason, asked ▸ most.1⟩
    rw [Honours]
    cases input.toolSource.kind with
    | mcp | remote => exact eq_comm
    | native =>
      refine ⟨fun same => .inl ⟨asks, same⟩, ?_⟩
      rintro (⟨-, same⟩ | ⟨never, -⟩)
      · exact same
      · exact absurd asks.choose_spec (never _)
  · obtain ⟨first, decided⟩ : ∃ first, policy.decideByRules input = .redirect first := by
      rcases permitted with allowed | decided
      · have bound := most.2 _ demanded
        rw [allowed] at bound
        exact absurd bound (by simp)
      · exact decided
    have never (reason : PolicyReason) : .ask reason ∉ policy.decisions input := by
      intro asks
      have bound := most.2 _ asks
      rw [decided] at bound
      exact absurd bound (by simp)
    have earliest := PolicyEngine.firstRedirect_of_decideByRules decided
    rw [Honours, decided]
    cases input.toolSource.kind with
    | mcp | remote => exact eq_comm
    | native =>
      refine ⟨fun same => .inr ⟨never, first, earliest, same⟩, ?_⟩
      rintro (⟨⟨reason, asks⟩, -⟩ | ⟨-, other, found, same⟩)
      · exact absurd asks (never reason)
      · rw [earliest] at found
        cases found
        exact same

/-- The configuration of a run of the local user. -/
def localConfig : KernelRunConfig := .new PolicyEngine.localUser ⟨.cli, .native, ∅⟩

/-- The state of a new session. -/
def freshState (sessionId : SessionId) : MaterializedSessionState :=
  newState ⟨0⟩ sessionId 0 ⟨"default"⟩ ∅ none

/-- The call as the rules see it. -/
def readCall : PolicyInput :=
  { PolicyEngine.readInput [] with runId := some ⟨0⟩ }

/-- An engine that redirects every call to a remote target and has a second rule. -/
def redirectingEngine (second : Option Policy.PolicyDecision) : PolicyEngine where
  rules := [⟨"first", .product, fun _ => some (.redirect .remote)⟩,
    ⟨"second", .workspace, fun _ => second⟩]
  bounded := by simp [maxPolicyRules]
  ids_valid := by
    have valid : isRuleId "first" = true ∧ isRuleId "second" = true := by decide +kernel
    simpa using valid
  distinct := by simp
  layered := pairwise_pair.mpr rfl

/-- The request for the approval of the call. -/
def readCallRequest : ApprovalRequest :=
  .toReadNotes ⟨0⟩ 1 600001 (by decide)

/-- The approval of the call, once. -/
def readCallResolution : ApprovalResolution where
  request := readCallRequest
  decision := .allowOnce
  decidedAt := 2
  issuedGrant := none
  decidedAt_valid := by decide
  decision_valid := by simp
  grant_valid := by simp

/-- A redirection that no rule competes with is honoured. -/
theorem started_on_redirect_iff_alone :
    .redirect .remote ∈ (redirectingEngine none).decisions readCall ∧
      Starts (redirectingEngine none) readCall
        (.toolExecutionStarted ⟨0⟩ .remote .idempotent) ∧
      (ExecutionTarget.remote = executionTarget .remote ↔
        Honours (redirectingEngine none) readCall .remote) := by
  have demanded : .redirect .remote ∈ (redirectingEngine none).decisions readCall := by
    decide +kernel
  have evaluated : evaluateInvocation (redirectingEngine none) localConfig (freshState ⟨0⟩) ⟨0⟩
      (readInvocation ⟨0⟩) [] 1 = .ok (readCall, .redirect .remote) := by rfl
  have allowed : Classified.ofDecision localConfig ⟨⟨0⟩, "read", .object []⟩ (readInvocation ⟨0⟩)
      readCall (.redirect .remote) = .allow (readInvocation ⟨0⟩) .remote := by rfl
  have started : Starts (redirectingEngine none) readCall
      (.toolExecutionStarted ⟨0⟩ .remote .idempotent) :=
    .direct evaluated allowed (by decide +kernel)
  exact ⟨demanded, started, started_on_redirect_iff demanded started⟩

/-- A redirection that another rule asks an approval for is lost when the approval is given: the
call is started on the configured target. -/
theorem redirect_lost_after_approval :
    .redirect .remote ∈ (redirectingEngine (some (.ask confirm))).decisions readCall ∧
      Starts (redirectingEngine (some (.ask confirm))) readCall
        (.toolExecutionStarted ⟨0⟩ .native .idempotent) ∧
      ExecutionTarget.native ≠ executionTarget .remote := by
  refine ⟨by decide +kernel, ?_, by decide⟩
  have asked : ((redirectingEngine (some (.ask confirm))).evaluate readCall).decision =
      .ask confirm := by rfl
  have requested : approvalRequest ⟨0⟩ readCall confirm.text 1 600000 =
      .ok readCallResolution.request := by decide +kernel
  have environment : readCallResolution.request.environment = localConfig.environment := rfl
  have source : (readInvocation ⟨0⟩).source = readCallResolution.request.toolSource := rfl
  exact .approved asked requested environment source (by decide +kernel)

end TeaRs
