import TeaRs.CodingTools.WorkspacePath
import TeaRs.Protocol.Record

/-!
# Presentations of file changes

A tool that changes a file attaches a bounded diff to its result (`tea-coding-tools/src/edit_diff.rs`
and `tea-protocol/src/change.rs`). The line differ is foreign code and enters as a parameter: it
returns the groups of changed lines with their context, and the text of the unified diff.

## Main definitions

* `CodeChange.validate`: the bounds of a presentation.
* `TextDiff`: what the differ returns.
* `codeChange`: the presentation of a change.
-/

namespace TeaRs

/-! ### Errors of the file tools -/

/-- `FileToolErrorCode`. -/
inductive FileToolErrorCode where
  | invalidArguments | invalidPath | notFound | notAFile | invalidUtf8 | binaryFile | tooLarge
  | noMatch | matchCountMismatch | pathChanged | atomicCommitFailed | filesystemFailure
  | processFailure | outputLimit | internal
  deriving DecidableEq, Repr

namespace FileToolErrorCode

/-- `FileToolErrorCode::message`. -/
def message : FileToolErrorCode → String
  | invalidArguments => "validated file tool arguments are invalid"
  | invalidPath => "workspace file path is invalid or changed"
  | notFound => "workspace file does not exist"
  | notAFile => "workspace target is not a regular file"
  | invalidUtf8 => "workspace file is not valid UTF-8 text"
  | binaryFile => "workspace file appears to be binary"
  | tooLarge => "workspace file exceeds the supported byte limit"
  | noMatch => "edit text was not found"
  | matchCountMismatch => "edit text match count is not the expected value"
  | pathChanged => "workspace file changed during the edit operation"
  | atomicCommitFailed => "workspace file could not be replaced atomically"
  | filesystemFailure => "workspace file operation failed"
  | processFailure => "configured process execution failed"
  | outputLimit => "process output exceeded the supported spill limit"
  | internal => "tool produced an invalid internal result"

/-- `From<WorkspacePathError>`. -/
def ofWorkspace : WorkspacePathErrorCode → FileToolErrorCode
  | .targetNotFound => .notFound
  | .filesystemFailure => .filesystemFailure
  | _ => .invalidPath

end FileToolErrorCode

/-! ### Bounds of a presentation -/

/-- `MAX_CODE_CHANGE_PATH_BYTES` and its siblings. -/
def maxCodeChangePathBytes : Nat := 4096
def maxCodeChangeHunks : Nat := 32
def maxCodeChangeLinesPerHunk : Nat := 128
def maxCodeChangeLines : Nat := 1024
def maxCodeChangeLineBytes : Nat := 1024
def maxCodeChangePatchBytes : Nat := 64 * 1024

/-- `CodeChangeValidationError`. -/
inductive CodeChangeValidationError where
  | invalidPath | tooManyHunks | tooManyLines | invalidHunkLines | lineTooLong | invalidLineNumbers
  | inconsistentHunkRange | patchTooLong | invalidFirstChangedLine | inconsistentTruncation
  deriving DecidableEq, Repr

/-- A number that does not fit a `u32` is the largest one. -/
def saturateU32 (n : Nat) : Nat := min n (2 ^ 32 - 1)

/-- `CodeChangeLine::validate`. -/
def CodeChangeLine.validate (line : CodeChangeLine) : Except CodeChangeValidationError Unit :=
  let positive (number : Option Nat) := number.any (0 < ·)
  let validNumbers := match line.kind with
    | .context => positive line.oldLine && positive line.newLine
    | .addition => line.oldLine.isNone && positive line.newLine
    | .deletion => positive line.oldLine && line.newLine.isNone
  if maxCodeChangeLineBytes < line.text.utf8ByteSize then .error .lineTooLong
  else if validNumbers then .ok ()
  else .error .invalidLineNumbers

namespace CodeChangeHunk

/-- The range of a hunk, as its lines say. -/
def range (lines : List CodeChangeLine) : Nat × Nat × Nat × Nat :=
  ((lines.findSome? (·.oldLine)).getD 0,
    saturateU32 (lines.countP (·.oldLine.isSome)),
    (lines.findSome? (·.newLine)).getD 0,
    saturateU32 (lines.countP (·.newLine.isSome)))

/-- `CodeChangeHunk::validate`. -/
def validate (hunk : CodeChangeHunk) : Except CodeChangeValidationError Unit := do
  if hunk.lines.isEmpty || decide (maxCodeChangeLinesPerHunk < hunk.lines.length) then
    throw .invalidHunkLines
  for line in hunk.lines do
    line.validate
  if (hunk.oldStart, hunk.oldLines, hunk.newStart, hunk.newLines) ≠ range hunk.lines then
    throw .inconsistentHunkRange

end CodeChangeHunk

/-- `CodeChange::validate`. -/
def CodeChange.validate (change : CodeChange) : Except CodeChangeValidationError Unit := do
  if change.path.isEmpty || decide (maxCodeChangePathBytes < change.path.utf8ByteSize) ||
      change.path.toList.contains '\x00' then
    throw .invalidPath
  if maxCodeChangeHunks < change.hunks.length then throw .tooManyHunks
  for hunk in change.hunks do
    hunk.validate
  if maxCodeChangeLines < (change.hunks.map (·.lines.length)).sum then throw .tooManyLines
  if change.patch.any (maxCodeChangePatchBytes < ·.utf8ByteSize) then throw .patchTooLong
  if change.firstChangedLine = some 0 then throw .invalidFirstChangedLine
  if change.truncated = change.truncation.isNone then throw .inconsistentTruncation

/-! ### From a diff to a presentation -/

/-- A line of a diff, as the differ reports it. -/
structure DiffLine where
  tag : CodeChangeLineKind
  oldIndex : Option Nat
  newIndex : Option Nat
  value : String
  deriving DecidableEq

/-- What the differ returns: groups of operations, each with its lines, and the unified diff under a
header. -/
structure TextDiff where
  groups : List (List (List DiffLine))
  unified : (header : String) → String

/-- `one_based`. -/
def oneBased (index : Option Nat) : Option Nat := index.map fun index => saturateU32 (index + 1)

/-- `bounded_line`, with whether it cut the line. -/
def boundedLine (value : String) : String × Bool :=
  if value.utf8ByteSize ≤ maxCodeChangeLineBytes then (value, false)
  else (String.ofList (takeBytes (maxCodeChangeLineBytes - 3) value.toList) ++ "...", true)

/-- A line without its ending. -/
def trimLineEnding (value : String) : String :=
  String.ofList (value.toList.reverse.dropWhile fun c => c == '\r' || c == '\n').reverse

/-- `set_truncation`. -/
def setTruncation (truncation : Option CodeChangeTruncation) (candidate : CodeChangeTruncation) :
    Option CodeChangeTruncation :=
  truncation.or (some candidate)

/-- The loop over the lines of one group. The flag says that a bound on lines was reached, which ends
the loop over the groups and drops the lines of this one. -/
def groupLines : List DiffLine → (retained : Nat) → List CodeChangeLine →
    Option CodeChangeTruncation →
    Except FileToolErrorCode (Bool × List CodeChangeLine × Nat × Option CodeChangeTruncation)
  | [], retained, lines, truncation => .ok (false, lines, retained, truncation)
  | change :: rest, retained, lines, truncation =>
    if retained = maxCodeChangeLines ∨ lines.length = maxCodeChangeLinesPerHunk then
      .ok (true, lines, retained, setTruncation truncation .lines)
    else
      let (text, cut) := boundedLine (trimLineEnding change.value)
      let line : CodeChangeLine := {
        kind := change.tag
        oldLine := if change.tag = .addition then none else oneBased change.oldIndex
        newLine := if change.tag = .deletion then none else oneBased change.newIndex
        text }
      match line.validate with
      | .error _ => .error .internal
      | .ok () =>
        groupLines rest (retained + 1) (lines ++ [line])
          (if cut then setTruncation truncation .lineBytes else truncation)

/-- `hunk`. -/
def hunkOf (lines : List CodeChangeLine) : Except FileToolErrorCode CodeChangeHunk :=
  let (oldStart, oldLines, newStart, newLines) := CodeChangeHunk.range lines
  let hunk : CodeChangeHunk := { oldStart, oldLines, newStart, newLines, lines }
  match hunk.validate with
  | .error _ => .error .internal
  | .ok () => .ok hunk

/-- The loop over the groups. -/
def changeHunks : List (List DiffLine) → (retained : Nat) → List CodeChangeHunk →
    Option CodeChangeTruncation →
    Except FileToolErrorCode (List CodeChangeHunk × Option CodeChangeTruncation)
  | [], _, hunks, truncation => .ok (hunks, truncation)
  | group :: rest, retained, hunks, truncation =>
    if hunks.length = maxCodeChangeHunks then .ok (hunks, setTruncation truncation .hunks)
    else do
      let (stopped, lines, retained, truncation) ← groupLines group retained [] truncation
      if stopped then return (hunks, truncation)
      else if lines.isEmpty then changeHunks rest retained hunks truncation
      else changeHunks rest retained (hunks ++ [← hunkOf lines]) truncation

/-- `code_change`. -/
def codeChange (differ : String → String → TextDiff) (filePath oldText newText : String)
    (kind : CodeChangeKind) : Except FileToolErrorCode CodeChange := do
  let diff := differ oldText newText
  let (hunks, truncation) ← changeHunks (diff.groups.map List.flatten) 0 [] none
  let unified := diff.unified filePath
  let (patch, truncation) :=
    if unified.utf8ByteSize ≤ maxCodeChangePatchBytes then
      (if unified.isEmpty then none else some unified, truncation)
    else (none, setTruncation truncation .patchBytes)
  let firstChangedLine := ((hunks.flatMap (·.lines)).find? (·.kind != .context)).bind fun line =>
    line.newLine.or line.oldLine
  let change : CodeChange := {
    path := filePath, kind, hunks, truncated := truncation.isSome, truncation, patch
    firstChangedLine }
  match change.validate with
  | .error _ => .error .internal
  | .ok () => return change

end TeaRs
