import TeaRs.Mcp.Canonical

/-!
# Digests of canonical JSON

A descriptor is identified by the SHA-256 digest of its canonical text and of the host's policy for
it, the catalog and the server's implementation by the digests of theirs (`tea-mcp/src/catalog.rs`,
`tea-mcp/src/server.rs`). Every text is preceded by its length, so that the hashed bytes determine the
texts.

## Main definitions

* `Libraries`: the printer of `serde_json`, SHA-256 and the schema compiler.
* `McpDescriptorDigest`, `descriptorPreimage`, `valuePreimage`.
* `hashDescriptor`, `digestValue`.

## Main results

* `descriptorPreimage_inj`, `valuePreimage_inj`: the hashed bytes determine the texts.
* `Libraries.Prints.canonicalText_eq_iff`: canonical texts are the same exactly if the values are
  equal.
-/

namespace TeaRs.Mcp

open StateError

/-- The libraries the crate relies on. -/
structure Libraries where
  /-- `serde_json::to_vec`. -/
  print : Value → List UInt8
  /-- `Sha256::digest`. -/
  sha256 : List UInt8 → Vector UInt8 32
  /-- `CompiledToolSchema::compile` succeeds. -/
  compiles : Value → Bool

/-- The canonical text of a value. -/
def Libraries.canonicalText (libraries : Libraries) (value : Value) : List UInt8 :=
  libraries.print value.sortKeys

/-- The printer prints distinct values of a list as distinct texts. -/
def Libraries.Prints (libraries : Libraries) (values : List Value) : Prop :=
  ∀ value ∈ values, ∀ other ∈ values,
    libraries.print value = libraries.print other → value.jsonEq other = true

/-- The hash has no collisions on a list of inputs. -/
def Libraries.Separates (libraries : Libraries) (inputs : List (List UInt8)) : Prop :=
  ∀ input ∈ inputs, ∀ other ∈ inputs,
    libraries.sha256 input = libraries.sha256 other → input = other

variable {libraries : Libraries} {value : Value} {bytes : List UInt8} {n m : Nat}

/-- Canonical texts are the same exactly if the values are equal. -/
theorem Libraries.Prints.canonicalText_eq_iff {values : List Value}
    (prints : libraries.Prints values) {other : Value} (mem : value.sortKeys ∈ values)
    (mem' : other.sortKeys ∈ values) (distinct : value.DistinctKeys)
    (distinct' : other.DistinctKeys) :
    libraries.canonicalText value = libraries.canonicalText other ↔ value.jsonEq other = true := by
  rw [← Value.sortKeys_eq_iff distinct distinct']
  constructor
  · intro same
    have equal := prints _ mem _ mem' same
    rw [← Value.sortKeys_eq_iff distinct.sortKeys distinct'.sortKeys] at equal
    rwa [Value.sortKeys_sortKeys, Value.sortKeys_sortKeys] at equal
  · intro same
    rw [canonicalText, same, canonicalText]

/-- `validate_json_bounds`. -/
def validateJsonBounds (libraries : Libraries) (value : Value) (maximumBytes : Nat) :
    Except McpErrorCode Unit :=
  if maxDescriptorDepth < value.presentedDepth then .error .outputBound
  else if maximumBytes < (libraries.print value).length then .error .outputBound
  else .ok ()

/-- `canonical_json`. -/
def canonicalJson (libraries : Libraries) (value : Value) (maximumBytes : Nat) :
    Except McpErrorCode (List UInt8) := do
  validateJsonBounds libraries value maximumBytes
  let canonical ← canonicalize 1 value
  if maximumBytes < (libraries.print canonical).length then .error .outputBound
  else return libraries.print canonical

theorem canonicalJson_eq_ok {maximumBytes : Nat}
    (ok : canonicalJson libraries value maximumBytes = .ok bytes) :
    bytes = libraries.canonicalText value ∧ bytes.length ≤ maximumBytes := by
  obtain ⟨_, -, ok⟩ := except_bind_eq_ok.mp ok
  obtain ⟨canonical, first, ok⟩ := except_bind_eq_ok.mp ok
  split_ifs at ok with long
  cases ok
  rw [canonicalize_eq_ok first] at long ⊢
  exact ⟨rfl, not_lt.mp long⟩

/-! ### Lengths -/

/-- `u64::to_be_bytes`. -/
def beBytes (n : Nat) : List UInt8 :=
  [7, 6, 5, 4, 3, 2, 1, 0].map fun place => UInt8.ofNat (n / 256 ^ place)

theorem beBytes_inj (hn : n < 2 ^ 64) (hm : m < 2 ^ 64) (same : beBytes n = beBytes m) : n = m := by
  simp only [beBytes, List.map_cons, List.map_nil, List.cons.injEq, ← UInt8.toNat_inj,
    UInt8.toNat_ofNat', and_true] at same
  omega

/-- A text with its length before it. -/
def framed (bytes : List UInt8) : List UInt8 := beBytes bytes.length ++ bytes

theorem framed_append_inj {bytes' rest rest' : List UInt8} (h : bytes.length < 2 ^ 64)
    (h' : bytes'.length < 2 ^ 64) (same : framed bytes ++ rest = framed bytes' ++ rest') :
    bytes = bytes' ∧ rest = rest' := by
  rw [framed, framed, List.append_assoc, List.append_assoc] at same
  obtain ⟨lengths, same⟩ := List.append_inj same rfl
  exact List.append_inj same (beBytes_inj h h' lengths)

/-! ### Digests -/

/-- The check of `McpDescriptorDigest::from_str`. -/
def isDescriptorDigest (value : String) : Bool :=
  value.utf8ByteSize == 64 &&
    value.toList.all fun c => isAsciiDigit c || decide ('a' ≤ c ∧ c ≤ 'f')

/-- `McpDescriptorDigest`. -/
@[ext]
structure McpDescriptorDigest where
  asStr : String
  valid : isDescriptorDigest asStr = true
  deriving DecidableEq

/-- `McpDescriptorDigest::from_str`. -/
def McpDescriptorDigest.ofString (value : String) : Except McpErrorCode McpDescriptorDigest :=
  if h : isDescriptorDigest value = true then .ok ⟨value, h⟩ else .error .descriptor

/-- The bytes in lowercase hexadecimal, each with two digits. -/
def hexText (bytes : List UInt8) : String :=
  String.ofList (bytes.flatMap fun byte => hexDigits 2 byte.toNat)

/-- The digest of hashed bytes. -/
def hexDigest (libraries : Libraries) (bytes : List UInt8) :
    Except McpErrorCode McpDescriptorDigest :=
  McpDescriptorDigest.ofString (hexText (libraries.sha256 bytes).toList)

theorem digitChar_inj (hn : n < 16) (hm : m < 16)
    (same : Nat.digitChar n = Nat.digitChar m) : n = m := by
  have all : ∀ a b : Fin 16, Nat.digitChar a = Nat.digitChar b → a = b := by decide
  exact congrArg Fin.val (all ⟨n, hn⟩ ⟨m, hm⟩ same)

theorem hexDigits_two (byte : UInt8) : hexDigits 2 byte.toNat =
      [Nat.digitChar (byte.toNat / 16 % 16), Nat.digitChar (byte.toNat % 16)] := rfl

theorem hexText_injective : Function.Injective hexText := by
  intro bytes bytes' same
  replace same := String.ofList_injective same
  simp only [hexDigits_two] at same
  induction bytes generalizing bytes' with
  | nil => cases bytes' with
    | nil => rfl
    | cons byte bytes' => simp at same
  | cons byte bytes ih => cases bytes' with
    | nil => simp at same
    | cons byte' bytes' =>
      simp only [List.flatMap_cons, List.cons_append, List.nil_append,
        List.cons.injEq] at same
      obtain ⟨high, low, rest⟩ := same
      have high := digitChar_inj (Nat.mod_lt _ (by decide)) (Nat.mod_lt _ (by decide)) high
      have low := digitChar_inj (Nat.mod_lt _ (by decide)) (Nat.mod_lt _ (by decide)) low
      have lt := byte.toNat_lt
      have lt' := byte'.toNat_lt
      have byte_eq : byte = byte' := by
        rw [← UInt8.toNat_inj]
        omega
      rw [byte_eq, ih rest]

theorem hexDigest_eq_ok {digest : McpDescriptorDigest}
    (ok : hexDigest libraries bytes = .ok digest) :
    digest.asStr = hexText (libraries.sha256 bytes).toList := by
  rw [hexDigest, McpDescriptorDigest.ofString] at ok
  split_ifs at ok
  cases ok
  rfl

/-- The bytes that are hashed for a descriptor. -/
def descriptorPreimage (descriptorJson hostPolicyJson : List UInt8) : List UInt8 :=
  "tea-mcp-descriptor-v1\x00".toUTF8.toList ++ framed descriptorJson ++ framed hostPolicyJson

/-- The bytes that are hashed for a value of a namespace. -/
def valuePreimage (nameSpace : String) (canonical : List UInt8) : List UInt8 :=
  nameSpace.toUTF8.toList ++ framed canonical

/-- `u64::try_from` of a length. -/
def checkLength (bytes : List UInt8) : Except McpErrorCode Unit :=
  if bytes.length < 2 ^ 64 then .ok () else .error .outputBound

/-- `hash_descriptor`. -/
def hashDescriptor (libraries : Libraries) (descriptorJson hostPolicyJson : List UInt8) :
    Except McpErrorCode McpDescriptorDigest := do
  checkLength descriptorJson
  checkLength hostPolicyJson
  hexDigest libraries (descriptorPreimage descriptorJson hostPolicyJson)

/-- `MAX_MCP_DESCRIPTOR_BYTES`. -/
def maxMcpDescriptorBytes : Nat := 256 * 1024

/-- `digest_value`. -/
def digestValue (libraries : Libraries) (nameSpace : String) (value : Value) :
    Except McpErrorCode McpDescriptorDigest := do
  let canonical ← canonicalJson libraries value maxMcpDescriptorBytes
  checkLength canonical
  hexDigest libraries (valuePreimage nameSpace canonical)

theorem checkLength_eq_ok {result : Unit} (ok : checkLength bytes = .ok result) :
    bytes.length < 2 ^ 64 := by
  rw [checkLength] at ok
  split_ifs at ok with short
  exact short

theorem Libraries.Separates.hexText_eq_iff {inputs : List (List UInt8)}
    (separates : libraries.Separates inputs) {input other : List UInt8} (mem : input ∈ inputs)
    (mem' : other ∈ inputs) :
    hexText (libraries.sha256 input).toList = hexText (libraries.sha256 other).toList ↔
      input = other := by
  constructor
  · intro same
    exact separates input mem other mem' (Vector.toList_inj.mp (hexText_injective same))
  · rintro rfl
    rfl

/-- What is hashed for a descriptor determines the two texts. -/
theorem descriptorPreimage_inj {first first' second second' : List UInt8}
    (h : first.length < 2 ^ 64) (h' : first'.length < 2 ^ 64) (hs : second.length < 2 ^ 64)
    (hs' : second'.length < 2 ^ 64)
    (same : descriptorPreimage first second = descriptorPreimage first' second') :
    first = first' ∧ second = second' := by
  rw [descriptorPreimage, descriptorPreimage, List.append_assoc, List.append_assoc,
    List.append_cancel_left_eq] at same
  obtain ⟨texts, rest⟩ := framed_append_inj h h' same
  rw [← List.append_nil (framed second), ← List.append_nil (framed second')] at rest
  exact ⟨texts, (framed_append_inj hs hs' rest).1⟩

/-- What is hashed for a value determines its canonical text. -/
theorem valuePreimage_inj {nameSpace : String} {canonical canonical' : List UInt8}
    (h : canonical.length < 2 ^ 64) (h' : canonical'.length < 2 ^ 64)
    (same : valuePreimage nameSpace canonical = valuePreimage nameSpace canonical') :
    canonical = canonical' := by
  rw [valuePreimage, valuePreimage, List.append_cancel_left_eq, ← List.append_nil (framed canonical),
    ← List.append_nil (framed canonical')] at same
  exact (framed_append_inj h h' same).1

end TeaRs.Mcp
