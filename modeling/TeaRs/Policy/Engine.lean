import TeaRs.Policy.Approval
import TeaRs.Tools.Registry

/-!
# Policy evaluation

The engine of the `tea-policy` crate: the input a rule sees, the most restrictive decision over the
rules in authority order, and the grants that turn a request for approval into permission. A rule is
pure foreign code and appears as a function of the input.

## Main definitions

* `PolicyInput`, `PolicyInput.fromValidated`.
* `Policy.PolicyDecision`, `PolicyRule`, `PolicyEngine.addRule`, `PolicyEngine.evaluate`.
* `PolicyGrant.matchesInput`: whether a grant covers an input.
* `ApprovalRequest.new`: the request that presents an input to the caller.
-/

namespace TeaRs

/-! ### Inputs -/

/-- `PolicyInput`: the snapshot that rules are evaluated on. -/
structure PolicyInput where
  actorId : ActorId
  profileId : ProfileId
  sessionId : SessionId
  runId : Option RunId
  workspaceId : Option WorkspaceId
  toolCallId : ToolCallId
  toolName : ToolName
  toolVersion : ToolVersion
  toolSource : ToolSource
  arguments : Value
  effects : List ToolEffect
  resources : List ToolResource
  environment : PolicyEnvironment
  now : ProtocolTimestamp
  grants : List PolicyGrant
  deriving DecidableEq

/-- `MAX_POLICY_GRANTS`. -/
def maxPolicyGrants : Nat := 128

/-- `PolicyInputError`. -/
inductive PolicyInputError where
  | tooManyGrants
  deriving DecidableEq, Repr

/-- The `Display` form of an input error. -/
def PolicyInputError.text : PolicyInputError → String
  | tooManyGrants => "policy input contains too many grants"

/-- Grant candidates sorted by identifier, each identifier once. -/
def grantCandidates (grants : List PolicyGrant) : List PolicyGrant :=
  (sortByKey PolicyGrant.id grants).destutter fun a b => a.id ≠ b.id

/-- `PolicyInput::from_validated`. -/
def PolicyInput.fromValidated (actorId : ActorId) (profileId : ProfileId) (sessionId : SessionId)
    (runId : Option RunId) (workspaceId : Option WorkspaceId)
    (invocation : ValidatedToolInvocation) (environment : PolicyEnvironment)
    (now : ProtocolTimestamp) (grants : List PolicyGrant) : Except PolicyInputError PolicyInput :=
  if maxPolicyGrants < (grantCandidates grants).length then .error .tooManyGrants
  else .ok
    { actorId, profileId, sessionId, runId, workspaceId, environment, now
      toolCallId := invocation.toolCallId
      toolName := invocation.name
      toolVersion := invocation.spec.version
      toolSource := invocation.source
      arguments := invocation.arguments
      effects := invocation.spec.effects
      resources := invocation.resources
      grants := grantCandidates grants }

/-! ### Decisions -/

/-- A technical reason that `validate_reason` accepted. -/
@[ext] structure PolicyReason where
  text : String
  valid : isBoundedText 4096 text = true

instance : DecidableEq PolicyReason := fun a b =>
  decidable_of_iff (a.text = b.text) PolicyReason.ext_iff.symm

theorem isBoundedText_confirm : isBoundedText 4096 "confirm" = true := by
  decide +kernel

/-- The reason of a rule that asks. -/
def confirm : PolicyReason := ⟨"confirm", isBoundedText_confirm⟩

namespace Policy

/-- `tea_policy::PolicyDecision`. -/
inductive PolicyDecision where
  | allow
  | redirect (target : PolicyExecutionTarget)
  | ask (reason : PolicyReason)
  | deny (reason : PolicyReason)
  | hardDeny (reason : PolicyReason)
  deriving DecidableEq

/-- `PolicyDecision::restriction`. -/
@[simp] def PolicyDecision.restriction : PolicyDecision → Nat
  | allow => 0
  | redirect _ => 1
  | ask _ => 2
  | deny _ => 3
  | hardDeny _ => 4

end Policy

/-- `PolicyLayer`, from the highest to the lowest authority. -/
inductive PolicyLayer where
  | platform | organization | product | workspace
  deriving DecidableEq, Repr

/-- The position of a layer in the derived order. -/
def PolicyLayer.rank : PolicyLayer → Nat
  | platform => 0
  | organization => 1
  | product => 2
  | workspace => 3

/-- `PolicyRule`; a rule that abstains decides `none`. -/
structure PolicyRule where
  id : String
  layer : PolicyLayer
  evaluate : PolicyInput → Option Policy.PolicyDecision

/-- `MAX_POLICY_RULES`. -/
def maxPolicyRules : Nat := 128

/-- `validate_rule_id`. -/
def isRuleId (value : String) : Bool :=
  decide (value.utf8ByteSize ≤ 128) &&
    isCanonicalWord (fun c => isAsciiLowercase c || isAsciiDigit c || c == '_' || c == '-' ||
      c == '.') value

/-- `PolicyEngine`: the rules in authority order, as `add_rule` keeps them. -/
structure PolicyEngine where
  rules : List PolicyRule
  bounded : rules.length ≤ maxPolicyRules
  ids_valid : ∀ rule ∈ rules, isRuleId rule.id = true
  distinct : (rules.map PolicyRule.id).Nodup
  layered : rules.Pairwise fun a b => (compare a.layer.rank b.layer.rank).isLE = true

/-- `PolicyRuleError`. -/
inductive PolicyRuleError where
  | invalidRuleId | duplicateRuleId | tooManyRules
  deriving DecidableEq, Repr

/-- `PolicyGrant::matches`. -/
def PolicyGrant.matchesInput (grant : PolicyGrant) (input : PolicyInput) : Bool :=
  !(decide (input.now < grant.issuedAt) || grant.revokedAt.any (fun t => decide (t ≤ input.now)) ||
      grant.actorId != input.actorId || grant.profileId != input.profileId ||
      grant.toolName != input.toolName || grant.toolVersion != input.toolVersion ||
      !grantSourceMatches grant.toolSource input.toolSource ||
      !input.effects.all grant.effects.contains ||
      !input.resources.all fun resource =>
        grant.resources.any fun pattern => pattern.matchesResource resource) &&
    match grant.scope with
    | .once toolCallId => toolCallId == input.toolCallId
    | .run runId => input.runId == some runId
    | .sessionResource sessionId => sessionId == input.sessionId
    | .persistentResource expiresAt => decide (input.now < expiresAt)

/-- `PolicyEvaluation`, without the trace of the rules. -/
structure PolicyEvaluation where
  decision : Policy.PolicyDecision
  matchedGrantId : Option GrantId
  deriving DecidableEq

namespace PolicyEngine

/-- `PolicyEngine::new`. -/
def new : PolicyEngine where
  rules := []
  bounded := Nat.zero_le _
  ids_valid := fun _ h => absurd h (by simp)
  distinct := List.nodup_nil
  layered := .nil

/-- `PolicyEngine::add_rule`: the new rule goes behind the rules of its layer. -/
def addRule (engine : PolicyEngine) (rule : PolicyRule) : Except PolicyRuleError PolicyEngine :=
  if hid : isRuleId rule.id = true then
    if hroom : engine.rules.length < maxPolicyRules then
      if hnew : rule.id ∈ engine.rules.map PolicyRule.id then .error .duplicateRuleId
      else .ok
        { rules := sortByKey (·.layer.rank) (engine.rules ++ [rule])
          bounded := by
            rw [(perm_sortByKey _ _).length_eq, List.length_append]
            exact hroom
          ids_valid := by
            intro other hmem
            rcases List.mem_append.mp (mem_sortByKey.mp hmem) with hmem | hmem
            · exact engine.ids_valid other hmem
            · rwa [List.mem_singleton.mp hmem]
          distinct := by
            rw [((perm_sortByKey _ _).map PolicyRule.id).nodup_iff, List.map_append,
              List.nodup_append]
            refine ⟨engine.distinct, List.nodup_singleton _, ?_⟩
            rintro a ha _ hb rfl
            exact hnew (List.mem_singleton.mp hb ▸ ha)
          layered := pairwise_isLE_sortByKey _ _ }
    else .error .tooManyRules
  else .error .invalidRuleId

/-- The rules registered one after the other. -/
def addRules (engine : PolicyEngine) : List PolicyRule → Except PolicyRuleError PolicyEngine
  | [] => .ok engine
  | rule :: rules => do
    let engine ← engine.addRule rule
    engine.addRules rules

/-- The decision when no rule takes one. -/
def noRule : Policy.PolicyDecision :=
  .hardDeny ⟨"no policy rule authorized the invocation", by decide +kernel⟩

/-- The loop over the rules: a hard denial ends it, otherwise the first of the most restrictive
decisions is kept. -/
def evaluateRules (input : PolicyInput) :
    (current : Option Policy.PolicyDecision) → List PolicyRule →
      Except Policy.PolicyDecision (Option Policy.PolicyDecision)
  | current, [] => .ok current
  | current, rule :: rules =>
    match rule.evaluate input with
    | none => evaluateRules input current rules
    | some (.hardDeny reason) => .error (.hardDeny reason)
    | some decision =>
      if current.all fun value => decide (value.restriction < decision.restriction) then
        evaluateRules input (some decision) rules
      else evaluateRules input current rules

/-- The decision of the rules, before any grant is looked at. -/
def decideByRules (engine : PolicyEngine) (input : PolicyInput) : Policy.PolicyDecision :=
  match evaluateRules input none engine.rules with
  | .error decision => decision
  | .ok current => current.getD noRule

/-- `PolicyEngine::evaluate`. The loop returns a hard denial early, which no grant changes. -/
def evaluate (engine : PolicyEngine) (input : PolicyInput) : PolicyEvaluation :=
  match engine.decideByRules input with
  | .ask reason =>
    match input.grants.find? fun grant => grant.matchesInput input with
    | some grant => ⟨.allow, some grant.id⟩
    | none => ⟨.ask reason, none⟩
  | decision => ⟨decision, none⟩

end PolicyEngine

/-! ### Approval requests -/

/-- The `Display` form of an approval error. -/
def ApprovalError.text : ApprovalError → String
  | invalidPresentation => "approval presentation is invalid"
  | invalidExpiry => "approval expiry must be after creation"
  | invalidContext => "approval context is invalid"
  | resolutionOutsideLifetime => "approval resolution is outside request lifetime"
  | grantNotAllowed => "approval decision cannot issue a grant"
  | grantMismatch => "approval grant does not match request"
  | redaction =>
    "approval redaction failed: redacted approval presentation exceeds supported bounds"

/-- `ApprovalRequest::new`. -/
def ApprovalRequest.new (approvalId : ApprovalId) (input : PolicyInput)
    (createdAt expiresAt : ProtocolTimestamp) (presentation : ApprovalPresentation) :
    Except ApprovalError ApprovalRequest :=
  if ht : createdAt < expiresAt then
    if hc : input.effects ≠ [] ∧ input.effects.length ≤ 64 ∧ input.resources.length ≤ 128 then
      .ok
        { approvalId, createdAt, expiresAt, presentation
          toolCallId := input.toolCallId
          actorId := input.actorId
          profileId := input.profileId
          sessionId := input.sessionId
          runId := input.runId
          workspaceId := input.workspaceId
          environment := input.environment
          toolName := input.toolName
          toolVersion := input.toolVersion
          toolSource := input.toolSource
          effects := input.effects
          resources := input.resources
          expiresAt_valid := ht
          context_valid := hc }
    else .error .invalidContext
  else .error .invalidExpiry

end TeaRs
