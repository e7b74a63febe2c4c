import TeaRs.Protocol.Event

/-!
# The events of a model response

A provider adapter turns the response of a model into a stream of normalized events
(`tea-model/src/stream.rs`, `tea-model/src/failure.rs`): a start, fragments of text and thinking,
calls of client tools and activities of hosted tools, citations, and a completion or a failure. The
constructors of the source check the values they take, so the types here carry these checks.

## Main definitions

* `ProviderToolCallId`, `ModelStreamIndex`, `Utf8Delta`: checked parts of an event.
* `ModelCompletion`, `ModelFailure`: how a response ends.
* `ModelEvent`.
-/

namespace TeaRs

/-! ### Checked values -/

/-- `ModelStreamValueError`. -/
inductive ModelStreamValueError where
  | invalidProviderOpaqueId | invalidStreamIndex | invalidDelta | invalidToolName
  | toolArgumentsMustBeObject | toolArgumentsOutOfBounds | tooManyHostedToolSources
  | citationAlreadyCanonical | invalidCompletionReason | invalidFailureMessage
  deriving DecidableEq, Repr

/-- The check of an identifier that a provider chose. -/
def isProviderOpaqueId (value : String) : Bool :=
  !value.isEmpty && decide (value.utf8ByteSize ≤ 256) && !value.toList.any isControl

/-- `ProviderResponseId`. -/
structure ProviderResponseId where
  value : String
  valid : isProviderOpaqueId value = true
  deriving DecidableEq, Repr

/-- `ProviderToolCallId`. -/
structure ProviderToolCallId where
  value : String
  valid : isProviderOpaqueId value = true
  deriving DecidableEq, Repr

namespace ProviderToolCallId

instance : Ord ProviderToolCallId := ⟨compareOn ProviderToolCallId.value⟩

theorem compare_eq (a b : ProviderToolCallId) : compare a b = compare a.value b.value := rfl

instance : Std.TransOrd ProviderToolCallId where
  eq_swap {a b} := Std.OrientedOrd.eq_swap (a := a.value) (b := b.value)
  isLE_trans {a b c} h₁ h₂ := by
    rw [compare_eq] at *
    exact Std.TransOrd.isLE_trans h₁ h₂

instance : Std.LawfulEqOrd ProviderToolCallId where
  eq_of_compare {a b} h := by
    rw [compare_eq] at h
    obtain ⟨a, _⟩ := a
    obtain ⟨b, _⟩ := b
    cases Std.LawfulEqOrd.eq_of_compare h
    rfl

end ProviderToolCallId

/-- `MAX_MODEL_STREAM_INDEX`. -/
def maxModelStreamIndex : Nat := 1023

/-- `ModelStreamIndex`. -/
structure ModelStreamIndex where
  value : Nat
  valid : value ≤ maxModelStreamIndex
  deriving DecidableEq, Repr

namespace ModelStreamIndex

instance : Ord ModelStreamIndex := ⟨compareOn ModelStreamIndex.value⟩

theorem compare_eq (a b : ModelStreamIndex) : compare a b = compare a.value b.value := rfl

instance : Std.TransOrd ModelStreamIndex where
  eq_swap {a b} := Std.OrientedOrd.eq_swap (a := a.value) (b := b.value)
  isLE_trans {a b c} h₁ h₂ := by
    rw [compare_eq] at *
    exact Std.TransOrd.isLE_trans h₁ h₂

instance : Std.LawfulEqOrd ModelStreamIndex where
  eq_of_compare {a b} h := by
    rw [compare_eq] at h
    obtain ⟨a, _⟩ := a
    obtain ⟨b, _⟩ := b
    cases Std.LawfulEqOrd.eq_of_compare h
    rfl

end ModelStreamIndex

/-- `MAX_MODEL_DELTA_BYTES`. -/
def maxModelDeltaBytes : Nat := 64 * 1024

/-- `Utf8Delta`. -/
structure Utf8Delta where
  text : String
  valid : isBoundedText maxModelDeltaBytes text = true
  deriving DecidableEq, Repr

/-- `validate_tool_name` of the model crate. -/
def isModelToolName (name : String) : Bool :=
  decide (name.utf8ByteSize ≤ 128) &&
    isCanonicalWord (fun c => isAsciiLowercase c || isAsciiDigit c || c == '_' || c == '-' ||
      c == '.') name

/-- `validate_completed_arguments`. -/
def validateCompletedArguments (arguments : Value) : Except ModelStreamValueError Unit :=
  if !arguments.isObject then .error .toolArgumentsMustBeObject
  else if 256 * 1024 < arguments.encodedLength ∨ 32 < arguments.presentedDepth then
    .error .toolArgumentsOutOfBounds
  else .ok ()

/-! ### Events -/

/-- `ModelResponseInfo`. -/
structure ModelResponseInfo where
  responseId : Option ProviderResponseId
  responseModel : Option String
  deriving DecidableEq

/-- `ToolCallStarted`. -/
structure ToolCallStarted where
  index : ModelStreamIndex
  providerCallId : ProviderToolCallId
  toolName : String
  valid : isModelToolName toolName = true
  deriving DecidableEq

/-- `ToolArgumentsDelta`. -/
structure ToolArgumentsDelta where
  index : ModelStreamIndex
  providerCallId : ProviderToolCallId
  delta : String
  valid : isBoundedText maxModelDeltaBytes delta = true
  deriving DecidableEq

/-- `ToolCallCompleted`. -/
structure ToolCallCompleted where
  index : ModelStreamIndex
  providerCallId : ProviderToolCallId
  toolName : String
  arguments : Value
  valid : isModelToolName toolName = true ∧ validateCompletedArguments arguments = .ok ()
  deriving DecidableEq

/-- `HostedToolStarted`. -/
structure HostedToolStarted where
  index : ModelStreamIndex
  providerCallId : ProviderToolCallId
  toolName : String
  valid : isModelToolName toolName = true
  deriving DecidableEq

/-- `HostedToolCompleted`. -/
structure HostedToolCompleted where
  index : ModelStreamIndex
  providerCallId : ProviderToolCallId
  toolName : String
  arguments : Value
  outcome : HostedToolOutcome
  sources : List ExternalSource
  continuation : Option ProviderContinuation
  valid : isModelToolName toolName = true ∧ validateCompletedArguments arguments = .ok () ∧
    sources.length ≤ maxHostedToolSources
  deriving DecidableEq

/-- `ModelSourceCitation`: a citation that does not name a call of the kernel yet. -/
structure ModelSourceCitation where
  providerCallId : Option ProviderToolCallId
  citation : SourceCitation
  valid : citation.toolCallId = none
  deriving DecidableEq

/-- `Usage`. -/
structure Usage where
  inputTokens : Nat
  outputTokens : Nat
  cacheReadTokens : Option Nat
  cacheWriteTokens : Option Nat
  reasoningTokens : Option Nat
  deriving DecidableEq, Repr

/-- Whether a stop reason may end a response that did not fail. -/
def StopReason.isCompletion : StopReason → Bool
  | .completed | .length | .toolUse | .pauseTurn | .refusal | .unknown _ => true
  | .cancelled | .error => false

/-- `ModelCompletion`. -/
structure ModelCompletion where
  stopReason : StopReason
  usage : Option Usage
  valid : stopReason.isCompletion = true
  deriving DecidableEq

/-- `ModelFailureCode`. -/
inductive ModelFailureCode where
  | invalidRequest | contextOverflow | authentication | permissionDenied | rateLimited
  | unavailable | transport | malformedResponse | cancelled | internal
  deriving DecidableEq, Repr

/-- `RetryClass`. -/
inductive RetryClass where
  | never | immediate | afterBackoff
  deriving DecidableEq, Repr

/-- `ModelFailure`; the delay that a provider asks for is in milliseconds. -/
structure ModelFailure where
  code : ModelFailureCode
  message : String
  retry : RetryClass
  retryAfter : Option Nat
  safeDiagnostic : Bool
  valid : isBoundedText 4096 message = true
  deriving DecidableEq

/-- `ModelEvent`. -/
inductive ModelEvent where
  | started (info : ModelResponseInfo)
  | textDelta (delta : Utf8Delta)
  | thinkingDelta (delta : Utf8Delta)
  | toolCallStarted (call : ToolCallStarted)
  | toolArgumentsDelta (delta : ToolArgumentsDelta)
  | toolCallCompleted (call : ToolCallCompleted)
  | hostedToolStarted (call : HostedToolStarted)
  | hostedToolCompleted (call : HostedToolCompleted)
  | sourceCitation (citation : ModelSourceCitation)
  | completed (completion : ModelCompletion)
  | failed (failure : ModelFailure)
  deriving DecidableEq

namespace ModelEvent

/-- Whether the event starts a response. -/
def isStarted : ModelEvent → Bool
  | started _ => true
  | _ => false

/-- Whether the event completes a response. -/
def isCompleted : ModelEvent → Bool
  | completed _ => true
  | _ => false

/-- Whether the event ends a response. -/
def isTerminal : ModelEvent → Bool
  | completed _ | failed _ => true
  | _ => false

end ModelEvent

end TeaRs
