import TeaRs.Lib.TreeMap

/-!
# Identities, content blocks and messages of the agent protocol

The vocabulary of the `tea-protocol` crate that the durable log is written in: stable
identifiers, timestamps and sequence numbers, bounded JSON, the content blocks of a message and
the canonical messages themselves.

A `UUIDv7` identifier is used by the modelled code only through equality and order, so it is a
natural number tagged with the kind of thing it names.

## Main definitions

* `ProtocolId`, with one abbreviation per identifier type of the source.
* `SessionSequence`, `checkedNext`: sequence numbers and their overflow check.
* `Value`: JSON, with `jsonDepth` and `encodedLength` for the protocol's bounds.
* `ContentBlock`, `CanonicalMessage`, with the validation that constructors and codecs run.
-/

namespace TeaRs

/-! ### Identifiers -/

/-- What a protocol identifier names. -/
inductive IdKind where
  | session | run | turn | message | toolCall | approval | event | command | branch | record
  | correlation | causation | grant
  deriving DecidableEq, Repr

/-- A stable identifier of one kind. Identifiers of different kinds are different types. -/
structure ProtocolId (kind : IdKind) where
  value : Nat
  deriving DecidableEq, Repr

namespace ProtocolId

variable {kind : IdKind}

instance : Ord (ProtocolId kind) := ⟨fun a b => compare a.value b.value⟩

theorem compare_eq (a b : ProtocolId kind) : compare a b = compare a.value b.value := rfl

instance : Std.TransOrd (ProtocolId kind) where
  eq_swap {a b} := Std.OrientedOrd.eq_swap (a := a.value) (b := b.value)
  isLE_trans {a b c} h₁ h₂ := by
    rw [compare_eq] at *
    exact Std.TransOrd.isLE_trans h₁ h₂

instance : Std.LawfulEqOrd (ProtocolId kind) where
  eq_of_compare {a b} h := by
    rw [compare_eq] at h
    cases a
    cases b
    exact congrArg mk (Std.LawfulEqOrd.eq_of_compare h)

end ProtocolId

/-- The last `count` hexadecimal digits of a number. -/
def hexDigits : (count : Nat) → Nat → List Char
  | 0, _ => []
  | count + 1, n => hexDigits count (n / 16) ++ [Nat.digitChar (n % 16)]

/-- The `Display` form of an identifier: a hyphenated `UUID`. -/
def ProtocolId.toText {kind : IdKind} (id : ProtocolId kind) : String :=
  let digits := hexDigits 32 id.value
  let part (start count : Nat) := String.ofList ((digits.drop start).take count)
  "-".intercalate [part 0 8, part 8 4, part 12 4, part 16 4, part 20 12]

abbrev SessionId := ProtocolId .session
abbrev RunId := ProtocolId .run
abbrev TurnId := ProtocolId .turn
abbrev MessageId := ProtocolId .message
abbrev ToolCallId := ProtocolId .toolCall
abbrev ApprovalId := ProtocolId .approval
abbrev EventId := ProtocolId .event
abbrev BranchId := ProtocolId .branch
abbrev RecordId := ProtocolId .record
abbrev CorrelationId := ProtocolId .correlation
abbrev CausationId := ProtocolId .causation
abbrev GrantId := ProtocolId .grant

/-- A UTC instant in milliseconds since the epoch. -/
abbrev ProtocolTimestamp := Int

/-- A position in the append-only log, a `u64`. -/
abbrev SessionSequence := Nat

/-- `SessionSequence::checked_next`. -/
def checkedNext (sequence : SessionSequence) : Option SessionSequence :=
  if sequence + 1 < 2 ^ 64 then some (sequence + 1) else none

/-- `u64::checked_add`. -/
def checkedAdd (a b : Nat) : Option Nat :=
  if a + b < 2 ^ 64 then some (a + b) else none

theorem checkedNext_eq_some {n m : SessionSequence} (h : checkedNext n = some m) : m = n + 1 := by
  simp only [checkedNext] at h
  split_ifs at h
  exact (Option.some.inj h).symm

theorem checkedAdd_eq_some {a b c : Nat} (h : checkedAdd a b = some c) : c = a + b := by
  simp only [checkedAdd] at h
  split_ifs at h
  exact (Option.some.inj h).symm

theorem lt_of_checkedAdd_eq_some {a b c : Nat} (h : checkedAdd a b = some c) : c < 2 ^ 64 := by
  simp only [checkedAdd] at h
  split_ifs at h with bounded
  exact Option.some.inj h ▸ bounded

/-! ### JSON -/

/-- A `serde_json::Value`. An object lists its fields in key order; a number is its canonical
JSON text. -/
inductive Value where
  | null
  | bool (value : Bool)
  | number (literal : String)
  | string (value : String)
  | array (items : List Value)
  | object (fields : List (String × Value))

namespace Value

mutual

/-- Equality of JSON values, decided by structural recursion. -/
def decEq : (a b : Value) → Decidable (a = b)
  | .null, .null => isTrue rfl
  | .bool a, .bool b => decidable_of_iff (a = b) (by simp)
  | .number a, .number b => decidable_of_iff (a = b) (by simp)
  | .string a, .string b => decidable_of_iff (a = b) (by simp)
  | .array a, .array b => @decidable_of_iff _ (a = b) (by simp) (decEqItems a b)
  | .object a, .object b => @decidable_of_iff _ (a = b) (by simp) (decEqFields a b)
  | .null, .bool _ | .null, .number _ | .null, .string _ | .null, .array _ | .null, .object _
  | .bool _, .null | .bool _, .number _ | .bool _, .string _ | .bool _, .array _
  | .bool _, .object _ | .number _, .null | .number _, .bool _ | .number _, .string _
  | .number _, .array _ | .number _, .object _ | .string _, .null | .string _, .bool _
  | .string _, .number _ | .string _, .array _ | .string _, .object _ | .array _, .null
  | .array _, .bool _ | .array _, .number _ | .array _, .string _ | .array _, .object _
  | .object _, .null | .object _, .bool _ | .object _, .number _ | .object _, .string _
  | .object _, .array _ => isFalse (by simp)

/-- Equality of array items. -/
def decEqItems : (a b : List Value) → Decidable (a = b)
  | [], [] => isTrue rfl
  | [], _ :: _ => isFalse (by simp)
  | _ :: _, [] => isFalse (by simp)
  | a :: as, b :: bs =>
    match decEq a b, decEqItems as bs with
    | isTrue h, isTrue hs => isTrue (by rw [h, hs])
    | isFalse h, _ => isFalse fun e => h (List.cons.inj e).1
    | _, isFalse hs => isFalse fun e => hs (List.cons.inj e).2

/-- Equality of object fields. -/
def decEqFields : (a b : List (String × Value)) → Decidable (a = b)
  | [], [] => isTrue rfl
  | [], _ :: _ => isFalse (by simp)
  | _ :: _, [] => isFalse (by simp)
  | (j, a) :: as, (k, b) :: bs =>
    match decEq a b, decEqFields as bs with
    | isTrue h, isTrue hs =>
      decidable_of_iff (j = k) (by simp [h, hs])
    | isFalse h, _ => isFalse fun e => h (Prod.mk.inj (List.cons.inj e).1).2
    | _, isFalse hs => isFalse fun e => hs (List.cons.inj e).2

end

instance : DecidableEq Value := decEq

/-- Induction on a value with its items and fields. -/
@[elab_as_elim]
theorem inductionOn {P : Value → Prop} (value : Value) (null : P .null)
    (bool : ∀ value, P (.bool value)) (number : ∀ literal, P (.number literal))
    (string : ∀ value, P (.string value))
    (array : ∀ items : List Value, (∀ item ∈ items, P item) → P (.array items))
    (object : ∀ fields : List (String × Value), (∀ field ∈ fields, P field.2) →
      P (.object fields)) : P value :=
  @Value.rec P (fun items => ∀ item ∈ items, P item)
    (fun fields => ∀ field ∈ fields, P field.2) (fun field => P field.2) null bool number string
    array object (by simp)
    (fun _ _ head tail => List.forall_mem_cons.mpr ⟨head, tail⟩) (by simp)
    (fun _ _ head tail => List.forall_mem_cons.mpr ⟨head, tail⟩) (fun _ _ value => value) value

/-- `Value::is_object`. -/
def isObject : Value → Bool
  | .object _ => true
  | _ => false

/-- `Value::get` with a key. -/
def get? (key : String) : Value → Option Value
  | .object fields => fields.lookup key
  | _ => none

/-- A string argument of an object. -/
def getStr? (key : String) : Value → Option String
  | .object fields =>
    match fields.lookup key with
    | some (.string value) => some value
    | _ => none
  | _ => none

/-- A number in a JSON output. -/
def ofNat (n : Nat) : Value := .number n.repr

mutual

/-- `json_depth`: the nesting depth of containers. -/
def jsonDepth : Value → Nat
  | .array items => 1 + itemsDepth items
  | .object fields => 1 + fieldsDepth fields
  | _ => 0

/-- The largest depth of an array item. -/
def itemsDepth : List Value → Nat
  | [] => 0
  | item :: items => max (jsonDepth item) (itemsDepth items)

/-- The largest depth of an object field. -/
def fieldsDepth : List (String × Value) → Nat
  | [] => 0
  | (_, value) :: fields => max (jsonDepth value) (fieldsDepth fields)

end

mutual

/-- `json_depth` of the tools and policy crates, in which a scalar has depth one. -/
def presentedDepth : Value → Nat
  | .array items => 1 + itemsPresentedDepth items
  | .object fields => 1 + fieldsPresentedDepth fields
  | .null | .bool _ | .number _ | .string _ => 1

/-- The largest depth of an array item. -/
def itemsPresentedDepth : List Value → Nat
  | [] => 0
  | item :: items => max (presentedDepth item) (itemsPresentedDepth items)

/-- The largest depth of an object field. -/
def fieldsPresentedDepth : List (String × Value) → Nat
  | [] => 0
  | (_, value) :: fields => max (presentedDepth value) (fieldsPresentedDepth fields)

end

/-- Bytes one character takes inside an encoded JSON string. -/
def escapedCharLength (c : Char) : Nat :=
  if c == '"' || c == '\\' || c.toNat == 8 || c.toNat == 9 || c.toNat == 10 || c.toNat == 12 ||
    c.toNat == 13 then 2
  else if c.toNat < 32 then 6
  else c.utf8Size

/-- Bytes of an encoded JSON string, quotes included. -/
def encodedStringLength (s : String) : Nat :=
  2 + (s.toList.map escapedCharLength).sum

mutual

/-- `serde_json::to_vec(value).len()`. -/
def encodedLength : Value → Nat
  | .null => 4
  | .bool value => if value then 4 else 5
  | .number literal => literal.utf8ByteSize
  | .string value => encodedStringLength value
  | .array items => 2 + itemsLength items
  | .object fields => 2 + fieldsLength fields

/-- Bytes of the items of an array with their separating commas. -/
def itemsLength : List Value → Nat
  | [] => 0
  | [item] => encodedLength item
  | item :: items => encodedLength item + 1 + itemsLength items

/-- Bytes of the fields of an object with their colons and separating commas. -/
def fieldsLength : List (String × Value) → Nat
  | [] => 0
  | [(key, value)] => encodedStringLength key + 1 + encodedLength value
  | (key, value) :: fields =>
    encodedStringLength key + 1 + encodedLength value + 1 + fieldsLength fields

end

end Value

/-- `ProtocolMetadata`: bounded extension values keyed by namespace. -/
abbrev ProtocolMetadata := BTreeMap String Value

/-- `ProtocolMetadataError`, as far as JSON bounds report it. -/
inductive ProtocolMetadataError where
  | tooLarge | tooDeep
  deriving DecidableEq, Repr

/-- The `Display` form of a metadata error. -/
def ProtocolMetadataError.text : ProtocolMetadataError → String
  | tooLarge => "metadata exceeds the encoded byte limit"
  | tooDeep => "metadata exceeds the nesting-depth limit"

/-- `validate_json_bounds`. -/
def validateJsonBounds (value : Value) (maxBytes maxDepth : Nat) :
    Except ProtocolMetadataError Unit :=
  if maxDepth < value.jsonDepth then .error .tooDeep
  else if maxBytes < value.encodedLength then .error .tooLarge
  else .ok ()

/-! ### Character classes -/

/-- `u8::is_ascii_lowercase`. -/
def isAsciiLowercase (c : Char) : Bool := 'a' ≤ c && c ≤ 'z'

/-- `u8::is_ascii_digit`. -/
def isAsciiDigit (c : Char) : Bool := '0' ≤ c && c ≤ '9'

/-- `char::is_control`. -/
def isControl (c : Char) : Bool := c.toNat < 32 || (127 ≤ c.toNat && c.toNat < 160)

/-- A text starts with a lowercase letter and continues with characters of one class. -/
def isCanonicalWord (continues : Char → Bool) (value : String) : Bool :=
  match value.toList with
  | [] => false
  | first :: rest => isAsciiLowercase first && rest.all continues

/-- Text that is not empty, has no null character and at most `limit` bytes. -/
def isBoundedText (limit : Nat) (value : String) : Bool :=
  !value.isEmpty && decide (value.utf8ByteSize ≤ limit) && !value.toList.contains '\x00'

theorem utf8ByteSize_eq_sum (text : String) :
    text.utf8ByteSize = (text.toList.map Char.utf8Size).sum := by
  have ofList (chars : List Char) :
      (String.ofList chars).utf8ByteSize = (chars.map Char.utf8Size).sum := by
    induction chars with
    | nil => simp
    | cons c chars ih => simp [String.ofList_cons, ih]
  rw [← ofList, String.ofList_toList]

theorem utf8ByteSize_le_of_sublist {text text' : String}
    (sublist : text.toList.Sublist text'.toList) : text.utf8ByteSize ≤ text'.utf8ByteSize := by
  rw [utf8ByteSize_eq_sum, utf8ByteSize_eq_sum]
  generalize text.toList = chars, text'.toList = chars' at sublist
  induction sublist with
  | slnil => exact Nat.le_refl _
  | cons c _ ih | cons_cons c _ ih => simp only [List.map_cons, List.sum_cons]; omega

theorem length_le_utf8ByteSize (text : String) : text.toList.length ≤ text.utf8ByteSize := by
  rw [utf8ByteSize_eq_sum]
  induction text.toList with
  | nil => exact Nat.le_refl _
  | cons c chars ih =>
    have := c.utf8Size_pos
    simp only [List.map_cons, List.sum_cons, List.length_cons]
    omega

namespace Value

theorem escapedCharLength_le {c : Char} (plain : isControl c = false) :
    escapedCharLength c ≤ 2 * c.utf8Size := by
  have size := c.utf8Size_pos
  rw [escapedCharLength]
  split_ifs with escaped low
  · omega
  · simp [isControl, low] at plain
  · omega

theorem encodedStringLength_le {text : String} (plain : text.toList.any isControl = false) :
    encodedStringLength text ≤ 2 + 2 * text.utf8ByteSize := by
  rw [encodedStringLength, utf8ByteSize_eq_sum]
  generalize text.toList = chars at plain
  induction chars with
  | nil => exact Nat.le_refl _
  | cons c chars ih =>
    rw [List.any_cons, Bool.or_eq_false_iff] at plain
    have first := escapedCharLength_le plain.1
    have rest := ih plain.2
    simp only [List.map_cons, List.sum_cons]
    omega

end Value

/-- The longest list of leading characters that takes at most a number of bytes. -/
def takeBytes : (maxBytes : Nat) → List Char → List Char
  | _, [] => []
  | maxBytes, c :: rest =>
    if c.utf8Size ≤ maxBytes then c :: takeBytes (maxBytes - c.utf8Size) rest else []

/-- Truncation of a text at the last character boundary within a number of bytes. -/
def truncateUtf8 (value : String) (maxBytes : Nat) : String :=
  String.ofList (takeBytes maxBytes value.toList)

/-! ### Content blocks -/

/-- `ExternalSource`. -/
structure ExternalSource where
  url : String
  title : Option String
  snippet : Option String
  deriving DecidableEq

/-- `ProviderContinuation`. -/
structure ProviderContinuation where
  provider : String
  format : String
  payload : Value
  deriving DecidableEq

/-- `HostedToolOutcome`; the error carries its code and message. -/
inductive HostedToolOutcome where
  | success
  | error (code message : String)
  deriving DecidableEq

/-- `HostedToolActivity`. -/
structure HostedToolActivity where
  toolCallId : ToolCallId
  providerCallId : String
  toolName : String
  arguments : Value
  outcome : HostedToolOutcome
  sources : List ExternalSource
  continuation : Option ProviderContinuation
  deriving DecidableEq

/-- `SourceCitation`. -/
structure SourceCitation where
  toolCallId : Option ToolCallId
  source : ExternalSource
  startIndex : Option Nat
  endIndex : Option Nat
  citedText : Option String
  continuation : Option ProviderContinuation
  deriving DecidableEq

/-- `ImageSource`. -/
inductive ImageSource where
  | inlineBase64 (data : String)
  | reference (reference : String)
  deriving DecidableEq

/-- One block of message content. -/
inductive ContentBlock where
  | text (text : String)
  | contextualText (text : String)
  | thinking (text : String)
  | image (mimeType : String) (source : ImageSource)
  | toolCall (toolCallId : ToolCallId) (providerCallId : Option String) (toolName : String)
      (arguments : Value)
  | hostedTool (activity : HostedToolActivity)
  | citation (citation : SourceCitation)
  deriving DecidableEq

/-- `ContentValidationError`, as far as the modelled checks raise it. -/
inductive ContentValidationError where
  | invalidText
  | invalidMimeType
  | invalidImageData
  | invalidImageReference
  | invalidToolName
  | invalidProviderToolCallId
  | toolArgumentsMustBeObject
  | toolArgumentsOutOfBounds (error : ProtocolMetadataError)
  deriving DecidableEq, Repr

/-- The `Display` form of a content error. -/
def ContentValidationError.text : ContentValidationError → String
  | invalidText => "text content is empty, too large, or contains a null character"
  | invalidMimeType => "image MIME type must use canonical image/type syntax"
  | invalidImageData => "inline image data is invalid"
  | invalidImageReference => "image reference is invalid"
  | invalidToolName =>
    "tool name must start with a lowercase letter and contain lowercase ASCII, digits, '_', '-', or '.'"
  | invalidProviderToolCallId => "provider tool-call identifier is invalid"
  | toolArgumentsMustBeObject => "tool arguments must be a JSON object"
  | toolArgumentsOutOfBounds error => "tool arguments exceed protocol bounds: " ++ error.text

def maxTextBlockBytes : Nat := 1024 * 1024
def maxInlineImageBase64Bytes : Nat := 6 * 1024 * 1024
def maxToolArgumentBytes : Nat := 256 * 1024
def maxToolArgumentDepth : Nat := 32
def maxProviderToolCallIdBytes : Nat := 256

/-- `validate_text`. -/
def validateText (text : String) : Except ContentValidationError Unit :=
  if isBoundedText maxTextBlockBytes text then .ok () else .error .invalidText

/-- `validate_mime_type`. -/
def validateMimeType (value : String) : Except ContentValidationError Unit :=
  match value.toList with
  | 'i' :: 'm' :: 'a' :: 'g' :: 'e' :: '/' :: subtype =>
    if !subtype.isEmpty && subtype.all fun c =>
        isAsciiLowercase c || isAsciiDigit c || c == '+' || c == '-' || c == '.' then .ok ()
    else .error .invalidMimeType
  | _ => .error .invalidMimeType

/-- The value of one character of the standard base64 alphabet. -/
def base64Digit (c : Char) : Option Nat :=
  if 'A' ≤ c ∧ c ≤ 'Z' then some (c.toNat - 65)
  else if 'a' ≤ c ∧ c ≤ 'z' then some (c.toNat - 71)
  else if '0' ≤ c ∧ c ≤ '9' then some (c.toNat + 4)
  else if c = '+' then some 62
  else if c = '/' then some 63
  else none

/-- Whether the standard padded base64 engine decodes a text: groups of four digits, the last one
padded canonically with no stray bits. -/
def decodesBase64 : List Char → Bool
  | [] => true
  | [a, b, '=', '='] =>
    (base64Digit a).isSome && ((base64Digit b).map (· % 16 == 0)).getD false
  | [a, b, c, '='] =>
    (base64Digit a).isSome && (base64Digit b).isSome &&
      ((base64Digit c).map (· % 4 == 0)).getD false
  | a :: b :: c :: d :: rest =>
    (base64Digit a).isSome && (base64Digit b).isSome && (base64Digit c).isSome &&
      (base64Digit d).isSome && decodesBase64 rest
  | _ => false

/-- `validate_tool_name`. -/
def validateToolName (value : String) : Except ContentValidationError Unit :=
  if isCanonicalWord (fun c =>
      isAsciiLowercase c || isAsciiDigit c || c == '_' || c == '-' || c == '.') value &&
      decide (value.utf8ByteSize ≤ 128) then .ok ()
  else .error .invalidToolName

/-- `validate_provider_tool_call_id`. -/
def validateProviderToolCallId (value : String) : Except ContentValidationError Unit :=
  if value.isEmpty || decide (maxProviderToolCallIdBytes < value.utf8ByteSize) ||
      value.toList.any isControl then .error .invalidProviderToolCallId
  else .ok ()

namespace ContentBlock

/-- `ContentBlock::validate`. Hosted activities and citations have private fields and are checked
when they are built, so the check repeated here cannot fail. -/
def validate : ContentBlock → Except ContentValidationError Unit
  | .text value | .contextualText value | .thinking value => validateText value
  | .image mimeType source => do
    validateMimeType mimeType
    match source with
    | .inlineBase64 data =>
      if data.isEmpty || decide (maxInlineImageBase64Bytes < data.utf8ByteSize) ||
          !decodesBase64 data.toList then throw .invalidImageData
    | .reference reference =>
      if reference.isEmpty || decide (1024 < reference.utf8ByteSize) ||
          reference.toList.any isControl then throw .invalidImageReference
  | .toolCall _ providerCallId toolName arguments => do
    if let some id := providerCallId then validateProviderToolCallId id
    validateToolName toolName
    unless arguments.isObject do throw .toolArgumentsMustBeObject
    match validateJsonBounds arguments maxToolArgumentBytes maxToolArgumentDepth with
    | .ok _ => pure ()
    | .error error => throw (.toolArgumentsOutOfBounds error)
  | .hostedTool _ | .citation _ => .ok ()

/-- `ContentBlock::valid_for_user`. -/
def validForUser : ContentBlock → Bool
  | .text _ | .contextualText _ | .image .. => true
  | _ => false

/-- `ContentBlock::valid_for_assistant`. -/
def validForAssistant : ContentBlock → Bool
  | .text _ | .thinking _ | .toolCall .. | .hostedTool _ | .citation _ => true
  | _ => false

/-- `ContentBlock::valid_for_tool_result`. -/
def validForToolResult : ContentBlock → Bool
  | .text _ | .image .. => true
  | _ => false

end ContentBlock

/-! ### Canonical messages -/

/-- `StopReason`. -/
inductive StopReason where
  | completed | length | toolUse | pauseTurn | refusal | cancelled | error
  | unknown (value : String)
  deriving DecidableEq

/-- `valid_error_code`. -/
def validErrorCode (value : String) : Bool :=
  isCanonicalWord (fun c => isAsciiLowercase c || isAsciiDigit c || c == '_') value &&
    decide (value.utf8ByteSize ≤ 128)

/-- `ToolFailure`: a machine-readable code and a bounded diagnostic, checked when built. -/
structure ToolFailure where
  code : String
  message : String
  valid : validErrorCode code = true ∧ isBoundedText 4096 message = true
  deriving DecidableEq

/-- `CanonicalMessage`. -/
inductive CanonicalMessage where
  | user (id : MessageId) (content : List ContentBlock) (timestamp : ProtocolTimestamp)
  | assistant (id : MessageId) (content : List ContentBlock) (stopReason : StopReason)
      (timestamp : ProtocolTimestamp)
  | toolResult (id : MessageId) (toolCallId : ToolCallId) (toolName : String)
      (content : List ContentBlock) (isError : Bool) (error : Option ToolFailure)
      (timestamp : ProtocolTimestamp)
  deriving DecidableEq

/-- `MessageValidationError`. -/
inductive MessageValidationError where
  | invalidContent
  | invalidContentValue (error : ContentValidationError)
  | invalidToolFailure
  | inconsistentToolFailure
  deriving DecidableEq, Repr

/-- The `Display` form of a message error. -/
def MessageValidationError.text : MessageValidationError → String
  | invalidContent => "message content is empty or contains a block invalid for its role"
  | invalidContentValue error => "invalid message content: " ++ error.text
  | invalidToolFailure => "tool failure code or message is invalid"
  | inconsistentToolFailure => "tool-result isError must match error presence"

/-- `validate_content`: one to 256 blocks, all allowed in the role, all valid. -/
def validateContent (content : List ContentBlock) (allowed : ContentBlock → Bool) :
    Except MessageValidationError Unit :=
  if content.isEmpty || decide (256 < content.length) || !content.all allowed then
    .error .invalidContent
  else
    match content.forM ContentBlock.validate with
    | .ok _ => .ok ()
    | .error error => .error (.invalidContentValue error)

namespace CanonicalMessage

/-- `CanonicalMessage::user`. -/
def newUser (id : MessageId) (content : List ContentBlock) (timestamp : ProtocolTimestamp) :
    Except MessageValidationError CanonicalMessage := do
  validateContent content ContentBlock.validForUser
  return .user id content timestamp

/-- `CanonicalMessage::assistant`. -/
def newAssistant (id : MessageId) (content : List ContentBlock) (stopReason : StopReason)
    (timestamp : ProtocolTimestamp) : Except MessageValidationError CanonicalMessage := do
  validateContent content ContentBlock.validForAssistant
  return .assistant id content stopReason timestamp

/-- `CanonicalMessage::tool_result`: the error flag is the presence of a failure. -/
def newToolResult (id : MessageId) (toolCallId : ToolCallId) (toolName : String)
    (content : List ContentBlock) (error : Option ToolFailure) (timestamp : ProtocolTimestamp) :
    Except MessageValidationError CanonicalMessage := do
  match validateToolName toolName with
  | .ok _ => pure ()
  | .error error => throw (.invalidContentValue error)
  validateContent content ContentBlock.validForToolResult
  return .toolResult id toolCallId toolName content error.isSome error timestamp

end CanonicalMessage

/-- `FinalOutputFormat`: the contract for the final visible output of a run. -/
inductive FinalOutputFormat where
  | jsonObject
  | jsonSchema (schema : Value)
  deriving DecidableEq

end TeaRs
