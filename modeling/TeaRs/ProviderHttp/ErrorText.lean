import TeaRs.Lib.Scan
import TeaRs.Protocol.Content

/-!
# Provider error texts without secrets

An HTTP error of a provider becomes one line of text. The reason is taken from the known fields of a
JSON body, or is the body; terminal control sequences are removed; the value after a sensitive word
and each token with a known secret prefix are replaced; and the result is cut to a number of bytes.

The functions work on texts over any alphabet whose symbols carry a character. On characters they
are the functions of the source. On characters that remember their place in the reason they compute
the same text and show which places of the reason are still in it.

## Main definitions

* `Symbol`, `Traced`: the alphabets.
* `extractJsonReason`, `sanitizeReason`, `redactMarkers`, `redactSecretPrefixes`, `truncateReason`,
  `normalizeProviderError`: the functions of the source.

## Main results

* `chars_normalizeReason`: over each alphabet the line reads the same.
-/

namespace TeaRs.ProviderHttp

open Scan List

/-! ### Texts over an alphabet -/

/-- An alphabet whose symbols carry a character, with a symbol for each character that the program
writes itself. -/
class Symbol (α : Type) where
  char : α → Char
  lit : Char → α
  char_lit : ∀ c, char (lit c) = c

instance : Symbol Char where
  char := id
  lit := id
  char_lit _ := rfl

/-- A character with its place in the text it was copied from. -/
@[ext]
structure Traced where
  char : Char
  origin : Option Nat
  deriving DecidableEq

instance : Symbol Traced where
  char := Traced.char
  lit c := ⟨c, none⟩
  char_lit _ := rfl

/-- A text with the places of its characters. -/
def trace (text : List Char) : List Traced :=
  text.zipIdx.map fun (c, place) => ⟨c, some place⟩

variable {α : Type} [Symbol α]

/-- The symbols of a text of the program. -/
def literal (text : String) : List α :=
  text.toList.map Symbol.lit

/-- The characters of a text. -/
def chars (text : List α) : List Char :=
  text.map Symbol.char

/-- The characters of a text, with the ASCII letters in lower case. -/
def lower (text : List α) : List Char :=
  (chars text).map Char.toLower

@[simp]
theorem length_chars (text : List α) : (chars text).length = text.length :=
  length_map _

@[simp]
theorem length_lower (text : List α) : (lower text).length = text.length := by
  rw [lower, length_map, length_chars]

@[simp]
theorem chars_append (front back : List α) : chars (front ++ back) = chars front ++ chars back :=
  map_append

@[simp]
theorem chars_cons (x : α) (text : List α) : chars (x :: text) = Symbol.char x :: chars text :=
  rfl

@[simp]
theorem lower_append (front back : List α) : lower (front ++ back) = lower front ++ lower back := by
  rw [lower, chars_append, map_append, lower, lower]

@[simp]
theorem lower_cons (x : α) (text : List α) :
    lower (x :: text) = (Symbol.char x).toLower :: lower text :=
  rfl

@[simp]
theorem chars_literal (text : String) : chars (literal (α := α) text) = text.toList := by
  rw [chars, literal, map_map]
  exact (map_congr_left fun c _ => Symbol.char_lit c).trans (map_id _)

@[simp]
theorem length_literal (text : String) : (literal (α := α) text).length = text.toList.length :=
  length_map _

/-! ### The reason of a body -/

/-- `char::is_whitespace`. -/
def isWhitespace (c : Char) : Bool :=
  (0x09 ≤ c.toNat && c.toNat ≤ 0x0d) || c.toNat == 0x20 || c.toNat == 0x85 || c.toNat == 0xa0 ||
    c.toNat == 0x1680 || (0x2000 ≤ c.toNat && c.toNat ≤ 0x200a) || c.toNat == 0x2028 ||
    c.toNat == 0x2029 || c.toNat == 0x202f || c.toNat == 0x205f || c.toNat == 0x3000

/-- Field names whose content is never taken as a reason. -/
def isSensitiveKey (key : String) : Bool :=
  ["api_key", "apikey", "authorization", "access_token", "refresh_token", "token", "cookie",
    "password", "secret"].contains (String.ofList (lower key.toList))

/-- The content of a string that is not blank. -/
def notBlank : Value → Option String
  | .string text => if text.toList.all isWhitespace then none else some text
  | _ => none

/-- The reason in an error object: the first of four fields that has one, itself or nested, and else
its type or code. -/
def extractJsonReason (value : Value) : Option String :=
  match value with
  | .object fields =>
    (["error", "message", "detail", "reason"].findSome? fun key =>
      match _found : fields.lookup key with
      | none => none
      | some candidate =>
        if isSensitiveKey key then none
        else
          match notBlank candidate with
          | some text => some text
          | none => extractJsonReason candidate) <|>
    (["type", "code"].findSome? fun key =>
      match (fields.lookup key).bind notBlank with
      | some text => if isSensitiveKey key then none else some text
      | none => none)
  | _ => none
termination_by sizeOf value
decreasing_by
  have member : (key, candidate) ∈ fields := by
    obtain ⟨front, back, rfl, -⟩ := lookup_eq_some_iff.mp _found
    simp
  have field_lt := sizeOf_lt_of_mem member
  simp only [Prod.mk.sizeOf_spec, Value.object.sizeOf_spec] at field_lt ⊢
  omega

/-- The reason of a body, with the JSON parser as a parameter. -/
def errorReason (parse : String → Option Value) (body : String) : String :=
  match parse body with
  | some value => (extractJsonReason value).getD "provider returned a structured error"
  | none => body

/-! ### Terminal control sequences -/

/-- Where the sanitizer stands: behind an escape character, or in a control sequence. -/
structure EscapeState where
  inEscape : Bool
  inCsi : Bool
  deriving DecidableEq

/-- Outside of any sequence. -/
def EscapeState.outside : EscapeState := ⟨false, false⟩

/-- What a character does to the state of the sanitizer. -/
def EscapeState.next (state : EscapeState) (c : Char) : EscapeState :=
  if state.inCsi then if c.isAlpha then ⟨state.inEscape, false⟩ else state
  else if state.inEscape then
    if c = '[' then ⟨false, true⟩
    else if c.isAlpha || (0x40 ≤ c.toNat && c.toNat ≤ 0x7e) then ⟨false, state.inCsi⟩ else state
  else if c.toNat = 0x1b then ⟨true, state.inCsi⟩
  else state

/-- What the sanitizer writes for a symbol. -/
def EscapeState.write (state : EscapeState) (x : α) : List α :=
  let c := Symbol.char x
  if state.inCsi || state.inEscape || c.toNat == 0x1b then []
  else if isControl c then
    if c = '\n' || c = '\r' || c = '\t' then [Symbol.lit ' '] else []
  else [x]

/-- The text without terminal control sequences and control characters. -/
def sanitizeFrom (state : EscapeState) : List α → List α
  | [] => []
  | x :: rest => state.write x ++ sanitizeFrom (state.next (Symbol.char x)) rest

/-- The state of the sanitizer behind a text. -/
def EscapeState.after (state : EscapeState) (text : List Char) : EscapeState :=
  text.foldl EscapeState.next state

/-- The text without terminal control sequences and control characters. -/
def sanitizeReason (text : List α) : List α :=
  sanitizeFrom .outside text

/-! ### Sensitive words -/

-- Statements about the characters of a text are decided over the text, not over all characters.
instance (priority := high) decidableAllChars (p : Char → Prop) [DecidablePred p]
    (text : List Char) :
    Decidable (∀ c ∈ text, p c) :=
  decidableBAll p text

instance (priority := high) decidableAllChar (p : Char → Prop) [DecidablePred p]
    (c : Option Char) :
    Decidable (∀ x ∈ c, p x) :=
  Option.decidableForallMem c

/-- Sensitive words, in lower case. -/
def markers : List (List Char) :=
  ["authorization", "api_key", "apikey", "access_token", "refresh_token", "password", "cookie",
    "secret", "token"].map String.toList

/-- Characters of a word. -/
def isWord (c : Char) : Bool :=
  c.isAlphanum || c = '_'

/-- A place where a word ends: the end of the text or a character of no word. -/
def isBoundary (c : Option Char) : Bool :=
  !c.any isWord

/-- The character before an index of a text, which follows another character. -/
def charBefore (previous : Option Char) (text : List Char) : Nat → Option Char
  | 0 => previous
  | index + 1 => text[index]?

/-- The match has a boundary before it. -/
def wordStart (previous : Option Char) (text : List Char) (index : Nat) (_pattern : List Char) :
    Bool :=
  isBoundary (charBefore previous text index)

/-- The match has a boundary before and behind it. -/
def wholeWord (previous : Option Char) (text : List Char) (index : Nat) (pattern : List Char) :
    Bool :=
  isBoundary (charBefore previous text index) && isBoundary text[index + pattern.length]?

/-- What separates a word from its value. -/
def isSeparator (c : Char) : Bool :=
  c = ':' || c = '='

/-- What may stand between a separator and the value: ASCII white space and quotation marks. -/
def isSpacing (c : Char) : Bool :=
  c.toNat == 0x20 || c.toNat == 0x09 || c.toNat == 0x0a || c.toNat == 0x0c || c.toNat == 0x0d ||
    c.toNat == 0x22 || c.toNat == 0x27

/-- What ends a value: white space, quotation marks and `,`, `}`, `]`, `;`. -/
def isStop (c : Char) : Bool :=
  isWhitespace c || c = ',' || c.toNat == 0x7d || c = ']' || c = ';' || c.toNat == 0x22 ||
    c.toNat == 0x27

/-- The text behind a value. -/
def afterSecret (text : List α) : List α :=
  text.dropWhile fun x => !isStop (Symbol.char x)

/-- The authentication scheme that may come before a value. -/
def isBearer (text : List Char) : Bool :=
  text.map Char.toLower == "bearer ".toList

/-- The text behind the authentication scheme, if there is one. -/
def dropBearer (text : List α) : List α :=
  if isBearer (chars (text.take 7)) then text.drop 7 else text

/-- The spacing between a separator and the value. -/
def spacingOf (text : List α) : List α :=
  text.takeWhile fun x => isSpacing (Symbol.char x)

/-- The text behind the spacing, the authentication scheme and the value. -/
def behindValue (text : List α) : List α :=
  afterSecret (dropBearer (text.dropWhile fun x => isSpacing (Symbol.char x)))

theorem afterSecret_suffix (text : List α) : afterSecret text <:+ text :=
  dropWhile_suffix _

theorem dropBearer_suffix (text : List α) : dropBearer text <:+ text := by
  rw [dropBearer]
  split
  · exact drop_suffix 7 text
  · exact suffix_refl text

theorem behindValue_suffix (text : List α) : behindValue text <:+ text :=
  (afterSecret_suffix _).trans ((dropBearer_suffix _).trans (dropWhile_suffix _))

theorem marker_ne_nil : ∀ marker ∈ markers, marker ≠ [] := by
  decide

variable {previous : Option Char} {text : List α} {start : Nat} {marker pattern : List Char}

theorem marker_le (found : nextMatch (wholeWord previous (lower text)) markers (lower text) =
      some (start, marker)) :
    0 < marker.length ∧ start + marker.length ≤ text.length := by
  obtain ⟨listed, occurs, -⟩ := of_nextMatch_eq_some found
  have ne := marker_ne_nil marker listed
  exact ⟨length_pos_iff.mpr ne, by simpa using occurs.length_le ne⟩

/-- The text with the values after sensitive words replaced. The text follows a character. -/
def redactMarkers (previous : Option Char) (text : List α) : List α :=
  match _found : nextMatch (wholeWord previous (lower text)) markers (lower text) with
  | none => text
  | some (start, marker) =>
    let markerEnd := start + marker.length
    match (text.drop markerEnd).findIdx? (fun x => isSeparator (Symbol.char x)) with
    | none =>
      text.take markerEnd ++
        redactMarkers (charBefore previous (lower text) markerEnd) (text.drop markerEnd)
    | some separator =>
      let separatorEnd := markerEnd + separator + 1
      let remaining := behindValue (text.drop separatorEnd)
      text.take separatorEnd ++ spacingOf (text.drop separatorEnd) ++ literal "[redacted]" ++
        redactMarkers (charBefore previous (lower text) (text.length - remaining.length)) remaining
termination_by text.length
decreasing_by
  · have := marker_le _found
    rw [length_drop]
    omega
  · have := marker_le _found
    have le := (behindValue_suffix (text.drop separatorEnd)).length_le
    rw [length_drop] at le
    simp only [separatorEnd, markerEnd] at le ⊢
    omega

theorem redactMarkers_of_none
    (found : nextMatch (wholeWord previous (lower text)) markers (lower text) = none) :
    redactMarkers previous text = text := by
  rw [redactMarkers]
  split
  · rfl
  · next found' => rw [found] at found'; cases found'

theorem redactMarkers_of_some
    (found : nextMatch (wholeWord previous (lower text)) markers (lower text) =
      some (start, marker)) :
    redactMarkers previous text =
      match (text.drop (start + marker.length)).findIdx? (fun x => isSeparator (Symbol.char x)) with
      | none =>
        text.take (start + marker.length) ++
          redactMarkers (charBefore previous (lower text) (start + marker.length))
            (text.drop (start + marker.length))
      | some separator =>
        let tail := text.drop (start + marker.length + separator + 1)
        text.take (start + marker.length + separator + 1) ++ spacingOf tail ++
          literal "[redacted]" ++
          redactMarkers (charBefore previous (lower text)
            (text.length - (behindValue tail).length)) (behindValue tail) := by
  rw [redactMarkers]
  split
  · next found' => rw [found] at found'; cases found'
  · next found' =>
    rw [found] at found'
    cases found'
    rfl

/-! ### Secret prefixes -/

/-- How known secrets start. -/
def secretPrefixes : List (List Char) :=
  ["sk-ant-", "sk-", "gsk_", "xai-", "AIza"].map String.toList

theorem secretPrefix_ne_nil : ∀ pattern ∈ secretPrefixes, pattern ≠ [] := by
  decide

theorem secretPrefix_le
    (found : nextMatch (wordStart previous (chars text)) secretPrefixes (chars text) =
      some (start, pattern)) :
    0 < pattern.length ∧ start + pattern.length ≤ text.length := by
  obtain ⟨listed, occurs, -⟩ := of_nextMatch_eq_some found
  have ne := secretPrefix_ne_nil pattern listed
  exact ⟨length_pos_iff.mpr ne, by simpa using occurs.length_le ne⟩

/-- The text with the tokens replaced that start like a secret. The text follows a character. -/
def redactSecretPrefixes (previous : Option Char) (text : List α) : List α :=
  match _found : nextMatch (wordStart previous (chars text)) secretPrefixes (chars text) with
  | none => text
  | some (start, pattern) =>
    let remaining := afterSecret (text.drop (start + pattern.length))
    text.take start ++ literal "[redacted]" ++
      redactSecretPrefixes (charBefore previous (chars text) (text.length - remaining.length))
        remaining
termination_by text.length
decreasing_by
  have := secretPrefix_le _found
  have le := (afterSecret_suffix (text.drop (start + pattern.length))).length_le
  rw [length_drop] at le
  omega

theorem redactSecretPrefixes_of_none
    (found : nextMatch (wordStart previous (chars text)) secretPrefixes (chars text) = none) :
    redactSecretPrefixes previous text = text := by
  rw [redactSecretPrefixes]
  split
  · rfl
  · next found' => rw [found] at found'; cases found'

theorem redactSecretPrefixes_of_some
    (found : nextMatch (wordStart previous (chars text)) secretPrefixes (chars text) =
      some (start, pattern)) :
    redactSecretPrefixes previous text =
      let remaining := afterSecret (text.drop (start + pattern.length))
      text.take start ++ literal "[redacted]" ++
        redactSecretPrefixes (charBefore previous (chars text) (text.length - remaining.length))
          remaining := by
  rw [redactSecretPrefixes]
  split
  · next found' => rw [found] at found'; cases found'
  · next found' =>
    rw [found] at found'
    cases found'
    rfl

/-- The text without secrets. -/
def redactSensitiveText (text : List α) : List α :=
  redactSecretPrefixes none (redactMarkers none text)

/-! ### The line -/

/-- The number of bytes of a text. -/
def byteLength (text : List α) : Nat :=
  ((chars text).map Char.utf8Size).sum

/-- Each symbol with the byte index at which it starts. -/
def charIndices (text : List α) (start : Nat) : List (Nat × α) :=
  match text with
  | [] => []
  | x :: rest => (start, x) :: charIndices rest (start + (Symbol.char x).utf8Size)

def maxProviderErrorReasonBytes : Nat := 1024

/-- The text, cut at a character boundary when it has too many bytes. -/
def truncateReason (text : List α) : List α :=
  if byteLength text ≤ maxProviderErrorReasonBytes then text
  else
    let suffix := "... [truncated]"
    let limit := maxProviderErrorReasonBytes - suffix.utf8ByteSize
    let boundary := ((((charIndices text 0).map Prod.fst).takeWhile (· ≤ limit)).getLast?).getD 0
    (((charIndices text 0).takeWhile fun indexed => indexed.1 < boundary).map Prod.snd) ++
      literal suffix

/-- The line for a reason, with the status of the response. -/
def normalizeReason (status : Option Nat) (reason : List α) : List α :=
  let reason := truncateReason (redactSensitiveText (sanitizeReason reason))
  let reason := if reason.isEmpty then literal "provider returned no error details" else reason
  match status with
  | some status => literal s!"HTTP {status}: " ++ reason
  | none => reason

/-- The line for an error response. -/
def normalizeProviderError (parse : String → Option Value) (status : Option Nat) (body : String) :
    String :=
  String.ofList (normalizeReason status (errorReason parse body).toList)

/-! ### The same text over each alphabet -/

@[simp]
theorem chars_chars (text : List α) : chars (chars text) = chars text :=
  map_id _

@[simp]
theorem lower_chars (text : List α) : lower (chars text) = lower text := by
  rw [lower, chars_chars, lower]

theorem literal_eq_toList (text : String) : literal (α := Char) text = text.toList :=
  map_id _

theorem chars_sanitizeFrom (state : EscapeState) (text : List α) :
    chars (sanitizeFrom state text) = sanitizeFrom state (chars text) := by
  induction text generalizing state with
  | nil => rfl
  | cons x text ih =>
    have written : chars (state.write x) = state.write (Symbol.char x) := by
      have blank : chars [(Symbol.lit ' ' : α)] = [Symbol.lit ' '] := by
        rw [chars, map_singleton, Symbol.char_lit]
        rfl
      simp only [EscapeState.write, apply_ite chars, blank]
      rfl
    rw [sanitizeFrom, chars_append, ih, chars_cons, sanitizeFrom, written]
    rfl

theorem chars_take (text : List α) (n : Nat) : chars (text.take n) = (chars text).take n :=
  map_take

theorem chars_drop (text : List α) (n : Nat) : chars (text.drop n) = (chars text).drop n :=
  map_drop

theorem chars_afterSecret (text : List α) : chars (afterSecret text) = afterSecret (chars text) :=
  (dropWhile_map (f := Symbol.char) (p := fun c => !isStop c) (l := text)).symm

theorem chars_spacingOf (text : List α) : chars (spacingOf text) = spacingOf (chars text) :=
  (takeWhile_map (f := Symbol.char) (p := isSpacing) (l := text)).symm

theorem chars_behindValue (text : List α) : chars (behindValue text) = behindValue
    (chars text) := by
  have skipped : (chars text).dropWhile (fun x => isSpacing (Symbol.char x)) =
      chars (text.dropWhile fun x => isSpacing (Symbol.char x)) :=
    dropWhile_map ..
  have scheme : ∀ text : List α, chars (dropBearer text) = dropBearer (chars text) := by
    intro text
    rw [dropBearer, dropBearer, ← chars_take, chars_chars]
    split
    · exact chars_drop text 7
    · rfl
  rw [behindValue, behindValue, chars_afterSecret, scheme, skipped]

theorem chars_redactMarkers (previous : Option Char) (text : List α) :
    chars (redactMarkers previous text) = redactMarkers previous (chars text) := by
  induction h : text.length using Nat.strong_induction_on generalizing previous text with
  | _ n ih =>
    cases found : nextMatch (wholeWord previous (lower text)) markers (lower text) with
    | none => rw [redactMarkers_of_none found, redactMarkers_of_none (by rwa [lower_chars])]
    | some candidate =>
      obtain ⟨start, marker⟩ := candidate
      have le := marker_le found
      have found' : nextMatch (wholeWord previous (lower (chars text))) markers
          (lower (chars text)) = some (start, marker) := by
        rwa [lower_chars]
      have search : ((chars text).drop (start + marker.length)).findIdx?
          (fun x => isSeparator (Symbol.char x)) =
          (text.drop (start + marker.length)).findIdx? fun x => isSeparator (Symbol.char x) := by
        rw [← chars_drop, chars, findIdx?_map]
        rfl
      rw [redactMarkers_of_some found, redactMarkers_of_some found', search]
      cases (text.drop (start + marker.length)).findIdx? fun x => isSeparator (Symbol.char x) with
      | none =>
        simp only [chars_append, chars_take]
        rw [ih _ (by rw [length_drop]; omega) _ _ rfl, chars_drop, lower_chars]
      | some separator =>
        have shorter : (behindValue (text.drop (start + marker.length + separator + 1))).length <
            n := by
          have suffix := (behindValue_suffix
            (text.drop (start + marker.length + separator + 1))).length_le
          rw [length_drop] at suffix
          omega
        simp only [chars_append, chars_take, chars_literal, literal_eq_toList, chars_spacingOf,
          chars_drop]
        rw [ih _ shorter _ _ rfl, chars_behindValue, chars_drop, lower_chars, length_chars,
          ← chars_drop, ← chars_behindValue, length_chars]

theorem chars_redactSecretPrefixes (previous : Option Char) (text : List α) :
    chars (redactSecretPrefixes previous text) = redactSecretPrefixes previous (chars text) := by
  induction h : text.length using Nat.strong_induction_on generalizing previous text with
  | _ n ih =>
    cases found : nextMatch (wordStart previous (chars text)) secretPrefixes (chars text) with
    | none =>
      rw [redactSecretPrefixes_of_none found, redactSecretPrefixes_of_none (by rwa [chars_chars])]
    | some candidate =>
      obtain ⟨start, pattern⟩ := candidate
      have le := secretPrefix_le found
      have shorter : (afterSecret (text.drop (start + pattern.length))).length < n := by
        have suffix := (afterSecret_suffix (text.drop (start + pattern.length))).length_le
        rw [length_drop] at suffix
        omega
      have found' : nextMatch (wordStart previous (chars (chars text))) secretPrefixes
          (chars (chars text)) = some (start, pattern) := by
        rwa [chars_chars]
      rw [redactSecretPrefixes_of_some found, redactSecretPrefixes_of_some found']
      simp only [chars_append, chars_take, chars_literal, literal_eq_toList]
      rw [ih _ shorter _ _ rfl, chars_chars, chars_afterSecret, chars_drop, length_chars,
        ← chars_drop, ← chars_afterSecret, length_chars]

theorem map_charIndices (text : List α) (start : Nat) :
    (charIndices text start).map (fun indexed => (indexed.1, Symbol.char indexed.2)) =
      charIndices (chars text) start := by
  induction text generalizing start with
  | nil => rfl
  | cons x text ih => rw [charIndices, map_cons, ih, chars_cons, charIndices]; rfl

theorem chars_truncateReason (text : List α) :
    chars (truncateReason text) = truncateReason (chars text) := by
  rw [truncateReason, truncateReason, byteLength, byteLength, chars_chars]
  split
  · rfl
  · rw [← map_charIndices]
    simp only [chars_append, chars_literal, literal_eq_toList, takeWhile_map, map_map]
    rw [chars, map_map]
    rfl

/-- Over each alphabet the line reads the same. -/
theorem chars_normalizeReason (status : Option Nat) (reason : List α) :
    chars (normalizeReason status reason) = normalizeReason status (chars reason) := by
  have redacted : chars (truncateReason (redactSensitiveText (sanitizeReason reason))) =
      truncateReason (redactSensitiveText (sanitizeReason (chars reason))) := by
    rw [chars_truncateReason, redactSensitiveText, chars_redactSecretPrefixes, chars_redactMarkers,
      sanitizeReason, chars_sanitizeFrom]
    rfl
  have empty : ∀ text : List α, (chars text).isEmpty = text.isEmpty := by
    intro text
    cases text <;> rfl
  simp only [normalizeReason, ← redacted, empty]
  cases status with
  | none => simp only [apply_ite chars, chars_literal, literal_eq_toList]
  | some status => simp only [chars_append, apply_ite chars, chars_literal, literal_eq_toList]

end TeaRs.ProviderHttp
