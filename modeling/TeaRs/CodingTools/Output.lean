import TeaRs.CodingTools.CodeChange
import TeaRs.Tools.Registry

/-!
# Results of the coding tools

How a tool turns its text and its JSON output into a terminal event
(`tea-coding-tools/src/output.rs`). A result that violates the bounds of `ToolResult` becomes a
failure.

## Main definitions

* `ToolResult.new`, `success`, `failure`.
* `Value.asU64`, `stringArgument`, `integerArgument`: access to the arguments of an invocation.
-/

namespace TeaRs

open StateError

/-! ### Arguments -/

/-- The value of a decimal numeral without leading zeros. -/
def decimalValue (digits : List Char) : Option Nat :=
  if digits.isEmpty || !digits.all Char.isDigit || (digits.head? == some '0' && digits != ['0'])
  then none
  else some (digits.foldl (fun value digit => 10 * value + (digit.toNat - '0'.toNat)) 0)

/-- `Value::as_u64`. -/
def Value.asU64 : Value → Option Nat
  | .number literal => (decimalValue literal.toList).filter (· < 2 ^ 64)
  | _ => none

/-- `string_argument`. -/
def stringArgument (arguments : Value) (name : String) : Except FileToolErrorCode String :=
  match arguments.getStr? name with
  | some value => .ok value
  | none => .error .invalidArguments

/-- `integer_argument`, and `expected_replacements` with its own key. -/
def integerArgument (arguments : Value) (name : String) : Except FileToolErrorCode (Option Nat) :=
  match arguments.get? name with
  | none => .ok none
  | some value =>
    match value.asU64 with
    | some number => .ok (some number)
    | none => .error .invalidArguments

/-! ### Terminal events -/

/-- `ToolResult::new`. -/
def ToolResult.new (content : List ContentBlock) (output : Value) : Option ToolResult :=
  if h : isResultContent content = true ∧ isInvocationArguments output = true then
    some ⟨content, output, none, h⟩
  else none

/-- `ToolResult::with_presentation`. -/
def ToolResult.withPresentation (result : ToolResult) (presentation : ToolPresentation) :
    ToolResult :=
  { result with presentation := some presentation }

/-- `ToolExecutionFailure::execution`, or the failure of the contract for a text out of bounds. -/
def ToolExecutionFailure.execution (message : String) : ToolExecutionFailure :=
  if h : isBoundedText 4096 message = true then ⟨.executionFailed, message, h⟩
  else .internalContract

/-- `failure`. -/
def failure (error : FileToolErrorCode) : ToolExecutionEvent :=
  .failed (.execution error.message)

/-- `success`. -/
def success (text : String) (output : Value) : ToolExecutionEvent :=
  match validateText text with
  | .error _ => failure .internal
  | .ok () =>
    match ToolResult.new [.text text] output with
    | some result => .finished result
    | none => failure .internal

/-! ### Texts and outputs that fit -/

theorem plain_repr (n : Nat) : n.repr.toList.any isControl = false := by
  rw [Nat.repr_eq_ofList_toDigits, String.toList_ofList, List.any_eq_false]
  intro c mem
  have digit := Nat.isDigit_of_mem_toDigits (by omega) (by omega) mem
  simp only [Char.isDigit, Bool.and_eq_true, decide_eq_true_eq, ge_iff_le] at digit
  have low : 48 ≤ c.toNat := digit.1
  have high : c.toNat ≤ 57 := digit.2
  simp only [isControl, Bool.or_eq_true, Bool.and_eq_true, decide_eq_true_eq]
  omega

theorem utf8ByteSize_repr_le {n : Nat} (bound : n < 10 ^ 20) : n.repr.utf8ByteSize ≤ 80 := by
  have length : n.repr.toList.length ≤ 20 := by
    rw [String.length_toList]
    exact Nat.repr_length n 20 (by omega) bound
  have size (chars : List Char) : (chars.map Char.utf8Size).sum ≤ 4 * chars.length := by
    induction chars with
    | nil => exact Nat.le_refl _
    | cons c chars ih =>
      have := c.utf8Size_le_four
      simp only [List.map_cons, List.sum_cons, List.length_cons]
      omega
  rw [utf8ByteSize_eq_sum]
  exact (size _).trans (by omega)

theorem isBoundedText_of_plain {text : String} {limit : Nat} (nonempty : text ≠ "")
    (plain : text.toList.any isControl = false) (short : text.utf8ByteSize ≤ limit) :
    isBoundedText limit text = true := by
  have null : '\x00' ∉ text.toList := fun mem => List.any_eq_false.mp plain _ mem rfl
  simp [isBoundedText, nonempty, short, null]

theorem success_eq_finished {text : String} {output : Value}
    (bounded : isBoundedText maxTextBlockBytes text = true)
    (fits : isInvocationArguments output = true) :
    ∃ result, success text output = .finished result := by
  have content : isResultContent [.text text] = true := by
    simp [isResultContent, ContentBlock.validForToolResult, ContentBlock.validate, validateText,
      bounded, Except.isOk, Except.toBool]
  rw [success, validateText, if_pos bounded, ToolResult.new, dif_pos ⟨content, fits⟩]
  exact ⟨_, rfl⟩

end TeaRs
