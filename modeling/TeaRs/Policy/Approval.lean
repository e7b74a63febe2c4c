import TeaRs.Protocol.Record
import TeaRs.Tools.Identity

/-!
# Grants, approval requests and their resolutions

The values of the `tea-policy` crate that a session stores beside its records: bounded grants,
self-contained approval requests and their resolutions. A value carries what its constructor
checked, so a grant with an expiry before its issuance or a resolution outside the lifetime of its
request cannot be built.

## Main definitions

* `ActorId`, `WorkspaceId`, `PolicyEnvironment`.
* `PolicyGrant`, with `PolicyGrant.new` and `PolicyGrant.withSource`.
* `RedactedArguments`, `ApprovalPresentation`: what is shown when an approval is asked for.
* `ApprovalRequest`, `ApprovalResolution`.
-/

namespace TeaRs

/-! ### Actors, workspaces and environments -/

/-- `validate_selector`. -/
def isSelector (allowColon : Bool) (value : String) : Bool :=
  decide (value.utf8ByteSize ≤ 128) &&
    !((value.toList.zip value.toList.tail).contains ('.', '.')) &&
    isCanonicalWord (fun c => isAsciiLowercase c || isAsciiDigit c || c == '_' || c == '-' ||
      c == '.' || c == '/' || c == '@' || (allowColon && c == ':')) value

/-- `ActorId`. -/
structure ActorId where
  asStr : String
  valid : isSelector true asStr = true
  deriving DecidableEq

/-- `WorkspaceId`. -/
structure WorkspaceId where
  asStr : String
  valid : isSelector false asStr = true
  deriving DecidableEq

/-- `ExecutionSurface`. -/
inductive ExecutionSurface where
  | desktop | cli | service | ide | test
  deriving DecidableEq, Repr

/-- `PolicyExecutionTarget`. -/
inductive PolicyExecutionTarget where
  | native | subprocess | sandbox | mcp | remote | wasm
  deriving DecidableEq, Repr

/-- `PolicyEnvironment`. -/
structure PolicyEnvironment where
  surface : ExecutionSurface
  target : PolicyExecutionTarget
  metadata : ProtocolMetadata
  deriving DecidableEq

/-! ### Grants -/

/-- `ResourcePattern`: a resource constraint of a grant. -/
@[ext] structure ResourcePattern where
  scheme : String
  locatorPrefix : String
  access : Option ToolResourceAccess
  valid : isScheme scheme = true ∧ isLocator locatorPrefix = true

instance : DecidableEq ResourcePattern := fun a b =>
  decidable_of_iff
    (a.scheme = b.scheme ∧ a.locatorPrefix = b.locatorPrefix ∧ a.access = b.access)
    ResourcePattern.ext_iff.symm

namespace ResourcePattern

/-- The position of an access constraint in the derived order. -/
def accessRank : Option ToolResourceAccess → Nat
  | none => 0
  | some .read => 1
  | some .write => 2
  | some .delete => 3
  | some .execute => 4
  | some .unknown => 5

instance : Ord ResourcePattern :=
  ⟨compareLex (compareOn scheme)
    (compareLex (compareOn locatorPrefix) (compareOn fun pattern => accessRank pattern.access))⟩

instance : Std.TransOrd ResourcePattern :=
  inferInstanceAs (Std.TransCmp (compareLex (compareOn scheme)
    (compareLex (compareOn locatorPrefix) (compareOn fun pattern => accessRank pattern.access))))

theorem accessRank_injective : Function.Injective accessRank := by
  rintro (_ | _ | _ | _ | _ | _) (_ | _ | _ | _ | _ | _) h <;> first | rfl | cases h

instance : Std.LawfulEqOrd ResourcePattern where
  eq_of_compare {a b} h := by
    obtain ⟨hscheme, hrest⟩ := compareLex_eq_eq.mp h
    obtain ⟨hlocator, haccess⟩ := compareLex_eq_eq.mp hrest
    have hscheme : a.scheme = b.scheme := Std.LawfulEqOrd.eq_of_compare hscheme
    have hlocator : a.locatorPrefix = b.locatorPrefix := Std.LawfulEqOrd.eq_of_compare hlocator
    have haccess : a.access = b.access :=
      accessRank_injective (Std.LawfulEqOrd.eq_of_compare haccess)
    cases a
    cases b
    congr

/-- `ResourcePattern::matches`. -/
def matchesResource (pattern : ResourcePattern) (resource : ToolResource) : Bool :=
  pattern.scheme == resource.scheme &&
    pattern.locatorPrefix.toList.isPrefixOf resource.locator.toList &&
    pattern.access.all (· == resource.access)

end ResourcePattern

/-- `PolicyGrantError`. -/
inductive PolicyGrantError where
  | invalidResourcePattern | invalidEffects | invalidResources | invalidExpiry | invalidRevocation
  deriving DecidableEq, Repr

/-- The `Display` form of a grant error. -/
def PolicyGrantError.text : PolicyGrantError → String
  | invalidResourcePattern => "grant resource pattern is invalid"
  | invalidEffects => "grant effects are invalid"
  | invalidResources => "grant resources are invalid"
  | invalidExpiry => "grant expiry is invalid"
  | invalidRevocation => "grant revocation is invalid"

/-- `ResourcePattern::new`. -/
def ResourcePattern.new (scheme locatorPrefix : String) (access : Option ToolResourceAccess) :
    Except PolicyGrantError ResourcePattern :=
  if h : isScheme scheme = true ∧ isLocator locatorPrefix = true then
    .ok ⟨scheme, locatorPrefix, access, h⟩
  else .error .invalidResourcePattern

/-- `GrantScope`. -/
inductive GrantScope where
  | once (toolCallId : ToolCallId)
  | run (runId : RunId)
  | sessionResource (sessionId : SessionId)
  | persistentResource (expiresAt : ProtocolTimestamp)
  deriving DecidableEq

/-- A persistent grant expires after it is issued. -/
def GrantScope.expiresAfter (issuedAt : ProtocolTimestamp) : GrantScope → Bool
  | .persistentResource expiresAt => issuedAt < expiresAt
  | .once _ | .run _ | .sessionResource _ => true

/-- A sorted vector without repetitions that is not empty and has at most `limit` items. -/
structure IsConstraint {α : Type} [Ord α] (limit : Nat) (items : List α) : Prop where
  sorted : items.Pairwise fun a b => compare a b = .lt
  nonempty : items ≠ []
  bounded : items.length ≤ limit

/-- `MAX_GRANT_EFFECTS`. -/
def maxGrantEffects : Nat := 64

/-- `MAX_GRANT_PATTERNS`. -/
def maxGrantPatterns : Nat := 128

/-- `PolicyGrant`: a bounded authorization that later policy evaluations may use. -/
structure PolicyGrant where
  id : GrantId
  actorId : ActorId
  profileId : ProfileId
  toolName : ToolName
  toolVersion : ToolVersion
  toolSource : Option ToolSource
  effects : List ToolEffect
  resources : List ResourcePattern
  scope : GrantScope
  issuedAt : ProtocolTimestamp
  revokedAt : Option ProtocolTimestamp
  effects_valid : IsConstraint maxGrantEffects effects
  resources_valid : IsConstraint maxGrantPatterns resources
  scope_valid : scope.expiresAfter issuedAt = true
  revokedAt_valid : ∀ t ∈ revokedAt, issuedAt ≤ t
  deriving DecidableEq

namespace PolicyGrant

/-- `PolicyGrant::new`. -/
def new (id : GrantId) (actorId : ActorId) (profileId : ProfileId) (toolName : ToolName)
    (toolVersion : ToolVersion) (effects : List ToolEffect) (resources : List ResourcePattern)
    (scope : GrantScope) (issuedAt : ProtocolTimestamp) : Except PolicyGrantError PolicyGrant :=
  if he : sortDedup effects = [] ∨ maxGrantEffects < (sortDedup effects).length then
    .error .invalidEffects
  else if hr : sortDedup resources = [] ∨ maxGrantPatterns < (sortDedup resources).length then
    .error .invalidResources
  else if hs : scope.expiresAfter issuedAt = true then
    .ok
      { id, actorId, profileId, toolName, toolVersion, scope, issuedAt
        toolSource := none
        effects := sortDedup effects
        resources := sortDedup resources
        revokedAt := none
        effects_valid :=
          ⟨pairwise_sortDedup effects, fun h => he (.inl h), by
            by_contra h
            exact he (.inr (Nat.lt_of_not_le h))⟩
        resources_valid :=
          ⟨pairwise_sortDedup resources, fun h => hr (.inl h), by
            by_contra h
            exact hr (.inr (Nat.lt_of_not_le h))⟩
        scope_valid := hs
        revokedAt_valid := by simp }
  else .error .invalidExpiry

/-- `PolicyGrant::with_source`. -/
def withSource (grant : PolicyGrant) (source : ToolSource) : PolicyGrant :=
  { grant with toolSource := some source }

end PolicyGrant

/-! ### Redaction -/

/-- `MAX_REDACTED_BYTES`. -/
def maxRedactedBytes : Nat := 64 * 1024

/-- `MAX_REDACTED_DEPTH`. -/
def maxRedactedDepth : Nat := 32

/-- The text that replaces a sensitive value. -/
def redacted : String := "[REDACTED]"

/-- `sensitive_key`. -/
def sensitiveKey (key : String) : Bool :=
  let normalized := (key.toList.filter Char.isAlphanum).map Char.toLower
  ["token", "accesstoken", "refreshtoken", "password", "secret", "clientsecret", "apikey",
    "authorization", "cookie", "privatekey"].contains (String.ofList normalized)

mutual

/-- `redact_value`. -/
def redactValue : Value → Value
  | .array items => .array (redactItems items)
  | .object fields => .object (redactFields fields)
  | .null => .null
  | .bool value => .bool value
  | .number literal => .number literal
  | .string value => .string value

/-- `redact_value` of the items of an array. -/
def redactItems : List Value → List Value
  | [] => []
  | item :: items => redactValue item :: redactItems items

/-- `redact_value` of the fields of an object. -/
def redactFields : List (String × Value) → List (String × Value)
  | [] => []
  | (key, value) :: fields =>
    (key, if sensitiveKey key then .string redacted else redactValue value) :: redactFields fields

end

/-- `RedactedArguments`. -/
structure RedactedArguments where
  value : Value
  bounded : value.encodedLength ≤ maxRedactedBytes ∧ value.presentedDepth ≤ maxRedactedDepth
  deriving DecidableEq

/-- `PolicyRedactor::redact_arguments`. -/
def redactArguments (value : Value) : Option RedactedArguments :=
  if h : (redactValue value).encodedLength ≤ maxRedactedBytes ∧
      (redactValue value).presentedDepth ≤ maxRedactedDepth then
    some ⟨redactValue value, h⟩
  else none

/-- `PolicyRedactor::redact_resource`. -/
def redactResource (scheme locator : String) : String :=
  let value :=
    if scheme == "credential" || scheme == "secret" then redacted
    else if locator.toList.contains '?' then
      String.ofList (locator.toList.takeWhile (· != '?')) ++ "?" ++ redacted
    else locator
  truncateUtf8 (scheme ++ ":" ++ value) 2048

/-! ### Approvals -/

/-- `ApprovalError`. -/
inductive ApprovalError where
  | invalidPresentation | invalidExpiry | invalidContext | resolutionOutsideLifetime
  | grantNotAllowed | grantMismatch | redaction
  deriving DecidableEq, Repr

/-- The checks of `ApprovalPresentation::from_parts`. -/
def isPresentation (reason : String) (resources : List String) : Bool :=
  isBoundedText 4096 reason && decide (resources.length ≤ 128) && resources.all isLocator

/-- `ApprovalPresentation`. -/
structure ApprovalPresentation where
  reason : String
  arguments : RedactedArguments
  resources : List String
  valid : isPresentation reason resources = true
  deriving DecidableEq

/-- `ApprovalPresentation::from_input`, from the fields of the input that it reads. -/
def ApprovalPresentation.fromInput (reason : String) (arguments : Value)
    (resources : List ToolResource) : Except ApprovalError ApprovalPresentation :=
  if !isBoundedText 4096 reason then .error .invalidPresentation
  else
    match redactArguments arguments with
    | none => .error .redaction
    | some arguments =>
      let resources := resources.map fun resource => redactResource resource.scheme resource.locator
      if h : isPresentation reason resources = true then .ok ⟨reason, arguments, resources, h⟩
      else .error .invalidPresentation

/-- `ApprovalRequest`: a self-contained request for the approval of one tool call. -/
structure ApprovalRequest where
  approvalId : ApprovalId
  toolCallId : ToolCallId
  actorId : ActorId
  profileId : ProfileId
  sessionId : SessionId
  runId : Option RunId
  workspaceId : Option WorkspaceId
  environment : PolicyEnvironment
  toolName : ToolName
  toolVersion : ToolVersion
  toolSource : ToolSource
  effects : List ToolEffect
  resources : List ToolResource
  createdAt : ProtocolTimestamp
  expiresAt : ProtocolTimestamp
  presentation : ApprovalPresentation
  expiresAt_valid : createdAt < expiresAt
  context_valid : effects ≠ [] ∧ effects.length ≤ 64 ∧ resources.length ≤ 128
  deriving DecidableEq

/-- `grant_source_matches`. -/
def grantSourceMatches (grant : Option ToolSource) (request : ToolSource) : Bool :=
  match grant with
  | none => request.isNativeProduct
  | some grant => grant == request

/-- Whether a grant may be issued by a resolution of this request at the given time. -/
def ApprovalRequest.admitsGrant (request : ApprovalRequest) (decidedAt : ProtocolTimestamp)
    (grant : PolicyGrant) : Bool :=
  decide (grant.issuedAt ≤ decidedAt) && grant.actorId == request.actorId &&
    grant.profileId == request.profileId && grant.toolName == request.toolName &&
    grant.toolVersion == request.toolVersion &&
    grantSourceMatches grant.toolSource request.toolSource &&
    request.effects.all grant.effects.contains &&
    request.resources.all fun resource =>
      grant.resources.any fun pattern => pattern.matchesResource resource

/-- `ApprovalResolution`: the decision on a request. -/
structure ApprovalResolution where
  request : ApprovalRequest
  decision : ApprovalDecision
  decidedAt : ProtocolTimestamp
  issuedGrant : Option PolicyGrant
  decidedAt_valid : request.createdAt ≤ decidedAt ∧ decidedAt < request.expiresAt
  decision_valid : issuedGrant.isSome = true → decision = .allowSession
  grant_valid : ∀ grant ∈ issuedGrant, request.admitsGrant decidedAt grant = true
  deriving DecidableEq

/-- `ApprovalResolution::new`. -/
def ApprovalResolution.new (request : ApprovalRequest) (decision : ApprovalDecision)
    (decidedAt : ProtocolTimestamp) (issuedGrant : Option PolicyGrant) :
    Except ApprovalError ApprovalResolution :=
  if ht : request.createdAt ≤ decidedAt ∧ decidedAt < request.expiresAt then
    if hd : issuedGrant.isSome = true → decision = .allowSession then
      if hg : ∀ grant ∈ issuedGrant, request.admitsGrant decidedAt grant = true then
        .ok ⟨request, decision, decidedAt, issuedGrant, ht, hd, hg⟩
      else .error .grantMismatch
    else .error .grantNotAllowed
  else .error .resolutionOutsideLifetime

/-! ### A request to read -/

/-- The user of the inputs below. -/
def PolicyEngine.localUser : ActorId := ⟨"user", by decide +kernel⟩

/-- The workspace itself, to be read. -/
def wholeWorkspace : ToolResource := ⟨"file", "/workspace", .read, by decide +kernel⟩

/-- A question that shows no resources. -/
def confirmation : ApprovalPresentation :=
  ⟨"confirm", ⟨.object [], by decide +kernel⟩, [], by decide +kernel⟩

namespace ApprovalRequest

/-- A request of the product to read some resources. -/
def toRead (sessionId : SessionId) (runId : Option RunId) (resources : List ToolResource)
    (presentation : ApprovalPresentation) (createdAt expiresAt : ProtocolTimestamp)
    (lifetime : createdAt < expiresAt) (few : resources.length ≤ 128) : ApprovalRequest where
  approvalId := ⟨0⟩
  toolCallId := ⟨0⟩
  actorId := PolicyEngine.localUser
  profileId := ⟨"default"⟩
  sessionId := sessionId
  runId := runId
  workspaceId := none
  environment := ⟨.cli, .native, ∅⟩
  toolName := readName
  toolVersion := ⟨"1.0.0"⟩
  toolSource := .nativeProduct
  effects := [.fsRead]
  resources := resources
  createdAt := createdAt
  expiresAt := expiresAt
  presentation := presentation
  expiresAt_valid := lifetime
  context_valid := ⟨by simp, by simp, few⟩

/-- A request of a run to read the file. -/
def toReadNotes (sessionId : SessionId) (createdAt expiresAt : ProtocolTimestamp)
    (lifetime : createdAt < expiresAt) : ApprovalRequest :=
  toRead sessionId (some ⟨0⟩) [notesFile]
    ⟨"confirm", confirmation.arguments, ["file:/workspace/notes"], by decide +kernel⟩
    createdAt expiresAt lifetime (by simp)

end ApprovalRequest

end TeaRs
