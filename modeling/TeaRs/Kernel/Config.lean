import TeaRs.Policy.Engine
import TeaRs.Session.Reducer

/-!
# Failures, limits and configuration of a kernel run

The values of the `tea-kernel` crate that a run is configured with, and the one error type of its
operations. The message of an error is bounded when the error is built; it is empty only for a text
that consists of null characters.

A duration counts whole milliseconds, which is the precision of a protocol timestamp: a deadline is
truncated to it.

## Main definitions

* `KernelError`, `KernelError.new`.
* `RunLimits`, `KernelRunConfig`, `KernelRunConfig.withFinalOutputFormat`.
* `addDuration`: a deadline after a timestamp.

## Main results

* `KernelError.message_new_ne`: an error built from a text that does not start with a null character
  has a message.
-/

namespace TeaRs

open String

/-! ### Bounded texts -/

theorem utf8ByteSize_ofList_takeBytes (limit : Nat) (text : List Char) :
    (ofList (takeBytes limit text)).utf8ByteSize ≤ limit := by
  induction text generalizing limit with
  | nil => simp [takeBytes]
  | cons c text ih =>
    rw [takeBytes]
    split_ifs with fits
    · rw [ofList_cons, utf8ByteSize_append, utf8ByteSize_singleton]
      have rest := ih (limit - c.utf8Size)
      omega
    · simp

theorem utf8ByteSize_ofList_filter_le (keep : Char → Bool) (text : List Char) :
    (ofList (text.filter keep)).utf8ByteSize ≤ (ofList text).utf8ByteSize := by
  induction text with
  | nil => simp
  | cons c text ih =>
    rw [List.filter_cons]
    split_ifs
    · simpa [ofList_cons] using ih
    · rw [ofList_cons, utf8ByteSize_append]
      omega

/-! ### Errors -/

/-- `KernelErrorCode`. -/
inductive KernelErrorCode where
  | invalidModel | invalidRequest | invalidState | modelFailure | toolFailure | policyFailure
  | sessionFailure | eventSinkFailure | cancelled | limitExceeded | idExhausted | clockFailure
  | contextOverflow | retryExhausted | schedulerConflict
  deriving DecidableEq, Repr

/-- The `Debug` form of a kernel error code. -/
def KernelErrorCode.debugName : KernelErrorCode → String
  | invalidModel => "InvalidModel"
  | invalidRequest => "InvalidRequest"
  | invalidState => "InvalidState"
  | modelFailure => "ModelFailure"
  | toolFailure => "ToolFailure"
  | policyFailure => "PolicyFailure"
  | sessionFailure => "SessionFailure"
  | eventSinkFailure => "EventSinkFailure"
  | cancelled => "Cancelled"
  | limitExceeded => "LimitExceeded"
  | idExhausted => "IdExhausted"
  | clockFailure => "ClockFailure"
  | contextOverflow => "ContextOverflow"
  | retryExhausted => "RetryExhausted"
  | schedulerConflict => "SchedulerConflict"

/-- The `Debug` form of a store error code. -/
def SessionStoreErrorCode.debugName : SessionStoreErrorCode → String
  | sessionNotFound => "SessionNotFound"
  | sessionAlreadyExists => "SessionAlreadyExists"
  | sequenceConflict => "SequenceConflict"
  | invalidRecord => "InvalidRecord"
  | invalidReference => "InvalidReference"
  | unsupportedSchemaVersion => "UnsupportedSchemaVersion"
  | corruptionDetected => "CorruptionDetected"
  | transactionFailed => "TransactionFailed"
  | storageUnavailable => "StorageUnavailable"

/-- The message that `KernelError::new` keeps of a text. -/
def boundedMessage (text : String) : String :=
  let text := if text.isEmpty then "kernel operation failed" else text
  ofList ((truncateUtf8 text 4096).toList.filter (· != '\x00'))

/-- `KernelError`, without its model failure code and its diagnostic flag. -/
structure KernelError where
  code : KernelErrorCode
  message : String
  valid : message.utf8ByteSize ≤ 4096 ∧ '\x00' ∉ message.toList
  deriving DecidableEq

namespace KernelError

/-- `KernelError::new`. -/
def new (code : KernelErrorCode) (text : String) : KernelError where
  code := code
  message := boundedMessage text
  valid := by
    constructor
    · refine (utf8ByteSize_ofList_filter_le _ _).trans ?_
      rw [ofList_toList]
      exact utf8ByteSize_ofList_takeBytes _ _
    · simp [boundedMessage]

/-- The `Display` form of a kernel error. -/
def text (error : KernelError) : String := error.code.debugName ++ ": " ++ error.message

/-- `KernelError::from` of a store error. -/
def ofStore (error : SessionStoreError) : KernelError :=
  new .sessionFailure (error.code.debugName ++ ": " ++ error.message)

/-- `KernelError::from` of a message error. -/
def ofMessage (error : MessageValidationError) : KernelError := new .modelFailure error.text

/-- `KernelError::from` of a content error. -/
def ofContent (error : ContentValidationError) : KernelError := new .modelFailure error.text

/-- An error built from a text that does not start with a null character has a message. -/
theorem message_new_ne (code : KernelErrorCode) {text : String}
    (h : text.toList.head? ≠ some '\x00') : (new code text).message ≠ "" := by
  have kept (c : Char) (rest : List Char) (hc : c ≠ '\x00') :
      ofList ((takeBytes 4096 (c :: rest)).filter (· != '\x00')) ≠ "" := by
    have fits : c.utf8Size ≤ 4096 := c.utf8Size_le_four.trans (by decide)
    rw [takeBytes, if_pos fits, List.filter_cons_of_pos (by simpa using hc)]
    simp
  change ofList ((truncateUtf8 _ 4096).toList.filter (· != '\x00')) ≠ ""
  rw [truncateUtf8, toList_ofList]
  split_ifs with empty
  · exact kept 'k' _ (by decide)
  · cases hlist : text.toList with
    | nil => exact absurd hlist (by simpa using empty)
    | cons c rest =>
      rw [hlist] at h
      exact kept c rest fun hc => h (congrArg some hc)

end KernelError

/-! ### Limits and deadlines -/

/-- The milliseconds of a day, the largest duration a run is configured with. -/
def maxRunDuration : Nat := 24 * 60 * 60 * 1000

/-- `RunLimits`, without the limit on queued messages. -/
structure RunLimits where
  maxToolIterations : Nat
  maxElapsed : Nat
  maxAssistantOutputBytes : Nat
  maxEvents : Nat
  valid : (0 < maxToolIterations ∧ maxToolIterations < 2 ^ 32) ∧ maxElapsed ≤ maxRunDuration ∧
    (0 < maxAssistantOutputBytes ∧ maxAssistantOutputBytes ≤ 16 * 1024 * 1024) ∧
    0 < maxEvents ∧ maxEvents ≤ 1000000
  deriving DecidableEq

/-- `RunLimits::default`. -/
def RunLimits.default : RunLimits where
  maxToolIterations := 16
  maxElapsed := 5 * 60 * 1000
  maxAssistantOutputBytes := 4 * 1024 * 1024
  maxEvents := 100000
  valid := by decide

/-- The last instant that a protocol timestamp can name: the end of the year 9999. -/
def maxProtocolTimestamp : ProtocolTimestamp := 253402300799999

/-- `add_duration`. -/
def addDuration (timestamp : ProtocolTimestamp) (duration : Nat) :
    Except KernelError ProtocolTimestamp :=
  if timestamp + duration ≤ maxProtocolTimestamp then .ok (timestamp + duration)
  else .error (.new .clockFailure "approval expiry is not canonical")

/-! ### Configuration -/

/-- `CompiledFinalOutputFormat`. -/
inductive CompiledFinalOutputFormat where
  | jsonObject
  | jsonSchema (source : Value) (accepts : CompiledToolSchema)

/-- `CompiledFinalOutputFormat::as_protocol`. -/
def CompiledFinalOutputFormat.asProtocol : CompiledFinalOutputFormat → FinalOutputFormat
  | jsonObject => .jsonObject
  | jsonSchema source _ => .jsonSchema source

/-- `KernelRunConfig`, as far as the kernel itself reads it: what requests to the model are built
from is left to the ports. -/
structure KernelRunConfig where
  actorId : ActorId
  workspaceId : Option WorkspaceId
  environment : PolicyEnvironment
  finalOutputFormat : Option CompiledFinalOutputFormat
  approvalTtl : Nat
  limits : RunLimits
  approvalTtl_valid : approvalTtl ≤ maxRunDuration

namespace KernelRunConfig

/-- `KernelRunConfig::new`. -/
def new (actorId : ActorId) (environment : PolicyEnvironment) : KernelRunConfig where
  actorId := actorId
  workspaceId := none
  environment := environment
  finalOutputFormat := none
  approvalTtl := 10 * 60 * 1000
  limits := .default
  approvalTtl_valid := by decide

/-- `KernelRunConfig::with_final_output_format`. -/
def withFinalOutputFormat (compile : Value → Option CompiledToolSchema) (config : KernelRunConfig) :
    Option FinalOutputFormat → Except KernelError KernelRunConfig
  | none => .ok { config with finalOutputFormat := none }
  | some .jsonObject => .ok { config with finalOutputFormat := some .jsonObject }
  | some (.jsonSchema schema) =>
    match if schema.isObject then compile schema else none with
    | some accepts => .ok { config with finalOutputFormat := some (.jsonSchema schema accepts) }
    | none => .error (.new .invalidRequest "final output schema is invalid")

end KernelRunConfig

end TeaRs
