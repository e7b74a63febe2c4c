import TeaRs.Lib.Sorting
import TeaRs.Protocol.Content

/-!
# Names, effects, resources and sources of tools

The vocabulary of the `tea-tools` crate that policies and approvals are written in. A validated text
carries its check as a field, so a value of one of these types always satisfies what its constructor
checks. A semantic version is its canonical text.

## Main definitions

* `ToolName`, `ToolVersion`, `ToolEffect`, `ToolResource`, `ToolSource`.
-/

namespace TeaRs

/-! ### Names and versions -/

/-- `MAX_TOOL_NAME_BYTES`. -/
def maxToolNameBytes : Nat := 128

/-- The check of `ToolName::from_str`. -/
def isToolName (value : String) : Bool :=
  decide (value.utf8ByteSize ≤ maxToolNameBytes) &&
    isCanonicalWord (fun c => isAsciiLowercase c || isAsciiDigit c || c == '_' || c == '-' ||
      c == '.') value

/-- `ToolName`: a stable canonical name used for registry lookup. -/
structure ToolName where
  asStr : String
  valid : isToolName asStr = true
  deriving DecidableEq

instance : Ord ToolName := ⟨compareOn ToolName.asStr⟩

instance : Std.TransOrd ToolName := inferInstanceAs (Std.TransCmp (compareOn ToolName.asStr))

instance : Std.LawfulEqOrd ToolName where
  eq_of_compare {a b} h := by
    have texts : a.asStr = b.asStr := Std.LawfulEqOrd.eq_of_compare h
    cases a
    cases b
    cases texts
    rfl

/-- `ToolName::from_str`. -/
def ToolName.ofString (value : String) : Option ToolName :=
  if h : isToolName value = true then some ⟨value, h⟩ else none

/-- `ToolVersion`, by its canonical semantic version text. -/
structure ToolVersion where
  text : String
  deriving DecidableEq

/-! ### Effects -/

/-- `ToolEffect`. -/
inductive ToolEffect where
  | fsRead | fsWrite | fsDelete | processSpawn | networkRequest | credentialRead | clipboardRead
  | externalRead | userInteraction | externalMutation
  | unknown (value : String)
  deriving DecidableEq

namespace ToolEffect

/-- `ToolEffect::as_str`. -/
def asStr : ToolEffect → String
  | fsRead => "fs.read"
  | fsWrite => "fs.write"
  | fsDelete => "fs.delete"
  | processSpawn => "process.spawn"
  | networkRequest => "network.request"
  | credentialRead => "credential.read"
  | clipboardRead => "clipboard.read"
  | externalRead => "external.read"
  | userInteraction => "user.interaction"
  | externalMutation => "external.mutation"
  | unknown value => value

/-- The position of the variant in the declaration, by which the derived order compares first. -/
def rank : ToolEffect → Nat
  | fsRead => 0
  | fsWrite => 1
  | fsDelete => 2
  | processSpawn => 3
  | networkRequest => 4
  | credentialRead => 5
  | clipboardRead => 6
  | externalRead => 7
  | userInteraction => 8
  | externalMutation => 9
  | unknown _ => 10

instance : Ord ToolEffect := ⟨compareLex (compareOn rank) (compareOn asStr)⟩

instance : Std.TransOrd ToolEffect :=
  inferInstanceAs (Std.TransCmp (compareLex (compareOn rank) (compareOn asStr)))

instance : Std.LawfulEqOrd ToolEffect where
  eq_of_compare {a b} h := by
    obtain ⟨hrank, htext⟩ := compareLex_eq_eq.mp h
    have hrank : a.rank = b.rank := Std.LawfulEqOrd.eq_of_compare hrank
    have htext : a.asStr = b.asStr := Std.LawfulEqOrd.eq_of_compare htext
    cases a <;> cases b <;> first | rfl | exact congrArg unknown htext | cases hrank

end ToolEffect

/-! ### Resources and sources -/

/-- `ToolResourceAccess`. -/
inductive ToolResourceAccess where
  | read | write | delete | execute | unknown
  deriving DecidableEq, Repr

/-- The scheme check shared by `ToolResource::new` and `ResourcePattern::new`. -/
def isScheme (scheme : String) : Bool :=
  decide (scheme.utf8ByteSize ≤ 64) &&
    isCanonicalWord (fun c => isAsciiLowercase c || isAsciiDigit c || c == '-') scheme

/-- The locator check shared by `ToolResource::new` and `ResourcePattern::new`. -/
def isLocator (locator : String) : Bool :=
  !locator.isEmpty && decide (locator.utf8ByteSize ≤ 2048) && !locator.toList.any isControl

/-- `ToolResource`: a resource one invocation touches. -/
structure ToolResource where
  scheme : String
  locator : String
  access : ToolResourceAccess
  valid : isScheme scheme = true ∧ isLocator locator = true
  deriving DecidableEq

/-- The position of an access in the derived order. -/
def ToolResourceAccess.rank : ToolResourceAccess → Nat
  | read => 0
  | write => 1
  | delete => 2
  | execute => 3
  | unknown => 4

instance : Ord ToolResource :=
  ⟨compareLex (compareOn ToolResource.scheme)
    (compareLex (compareOn ToolResource.locator) (compareOn fun resource => resource.access.rank))⟩

/-- `ToolSourceKind`. -/
inductive ToolSourceKind where
  | native | mcp | remote
  deriving DecidableEq, Repr

/-- `ToolTrust`. -/
inductive ToolTrust where
  | product | user | workspace | untrusted
  deriving DecidableEq, Repr

/-- The checks of `ToolSource::new`. -/
def isToolSource (sourceId descriptorDigest : String) : Bool :=
  decide (sourceId.utf8ByteSize ≤ 256) &&
    isCanonicalWord (fun c => isAsciiLowercase c || isAsciiDigit c || c == '.' || c == '-' ||
      c == '_') sourceId &&
    descriptorDigest.utf8ByteSize == 64 &&
    descriptorDigest.toList.all fun c => isAsciiDigit c || decide ('a' ≤ c ∧ c ≤ 'f')

/-- `ToolSource`: where a tool comes from. -/
structure ToolSource where
  kind : ToolSourceKind
  sourceId : String
  trust : ToolTrust
  descriptorDigest : String
  valid : isToolSource sourceId descriptorDigest = true
  deriving DecidableEq

namespace ToolSource

/-- `NATIVE_PRODUCT_DIGEST`. -/
def nativeProductDigest : String :=
  "5c2fe6d5aa5a64dc09567ef61a02305036b9c96e3e2ad8fa6c4bd7eaeb234ecf"

/-- `ToolSource::native_product`. -/
def nativeProduct : ToolSource :=
  ⟨.native, "tea-rs.product.native", .product, nativeProductDigest, by decide +kernel⟩

/-- `ToolSource::is_native_product`. -/
def isNativeProduct (source : ToolSource) : Bool :=
  source.kind == .native && source.sourceId == "tea-rs.product.native" &&
    source.trust == .product && source.descriptorDigest == nativeProductDigest

end ToolSource

/-! ### A tool that reads -/

/-- The name of a tool that reads files. -/
def readName : ToolName := ⟨"read", by decide +kernel⟩

/-- A file of the workspace, to be read. -/
def notesFile : ToolResource := ⟨"file", "/workspace/notes", .read, by decide +kernel⟩

end TeaRs
