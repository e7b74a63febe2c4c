import TeaRs.Cli.OwnedRuns
import TeaRs.CodingTools.Output

/-!
# The project trust store

`ProjectTrustStore` keeps one decision for each workspace in a JSON file that it reads and writes
as a whole. Reading refuses a file of more than 256 KiB or of more than 4096 decisions. Writing
checks the bytes only, so the file with the 4097th decision is written and never read again.

## Main definitions

* `ProjectTrustStore.load`, `get`, `set`: the store on the bytes of its file.
* `ProjectTrustStore.after`: the file after a list of calls, and what was saved by them.

## Main results

* `ProjectTrustStore.trust_kept`: what was saved is read as long as each new decision has room.
-/

namespace TeaRs.Cli

open StateError

/-- Persisted project trust decision. -/
inductive PersistedTrustDecision where
  | trusted | rejected | ignored
  deriving DecidableEq, Repr

structure TrustFile where
  schemaVersion : Nat
  decisions : BTreeMap String PersistedTrustDecision

/-- `serde_json` on trust files, with the length of its bytes. -/
structure TrustCodec (Bytes : Type) where
  toVecPretty : TrustFile → Bytes
  fromSlice : Bytes → Option TrustFile
  length : Bytes → Nat

def TrustCodec.RoundTrips {Bytes : Type} (codec : TrustCodec Bytes) : Prop :=
  ∀ file, codec.fromSlice (codec.toVecPretty file) = some file

def trustSchemaVersion : Nat := 1

def maxTrustFileBytes : Nat := 256 * 1024

/-- An existing directory, by its canonical path: none if that is not UTF-8. -/
abbrev Workspace := Option String

/-- `canonical_workspace` of an existing directory. -/
def canonicalWorkspace (workspace : Workspace) : Except CodingError String :=
  match workspace.filter fun value => value.utf8ByteSize ≤ 4096 && !value.toList.any isControl with
  | some value => .ok value
  | none => .error ⟨.invalidInput, "workspace identity is invalid"⟩

namespace ProjectTrustStore

def persistence : CodingError := ⟨.persistence, "project trust state failed"⟩

variable {Bytes : Type} (codec : TrustCodec Bytes)

/-- `ProjectTrustStore::load`, on the bytes of the file if there is one. -/
def load : Option Bytes → Except CodingError TrustFile
  | none => .ok ⟨trustSchemaVersion, ∅⟩
  | some bytes =>
    if maxTrustFileBytes < codec.length bytes then .error persistence
    else
      match codec.fromSlice bytes with
      | none => .error persistence
      | some file =>
        if file.schemaVersion ≠ trustSchemaVersion ∨ 4096 < file.decisions.size then
          .error persistence
        else .ok file

/-- `ProjectTrustStore::get`. -/
def get (workspace : Workspace) (content : Option Bytes) :
    Except CodingError (Option PersistedTrustDecision) := do
  let name ← canonicalWorkspace workspace
  return (← load codec content).decisions[name]?

/-- `ProjectTrustStore::set`: the bytes it writes. A call that fails has not touched the file. -/
def set (workspace : Workspace) (decision : PersistedTrustDecision) (content : Option Bytes) :
    Except CodingError Bytes := do
  let name ← canonicalWorkspace workspace
  let file ← load codec content
  let bytes := codec.toVecPretty { file with decisions := file.decisions.insert name decision }
  if maxTrustFileBytes < codec.length bytes then .error persistence else .ok bytes

/-- The file after some calls, and for each workspace the decision of the last `set` that returned
`Ok`. -/
structure History (Bytes : Type) where
  content : Option Bytes
  saved : Workspace → Option PersistedTrustDecision

def History.next (history : History Bytes) (call : Workspace × PersistedTrustDecision) :
    History Bytes :=
  match set codec call.1 call.2 history.content with
  | .ok bytes => ⟨some bytes, Function.update history.saved call.1 (some call.2)⟩
  | .error _ => history

/-- The history of calls that starts without a file. -/
def after (calls : List (Workspace × PersistedTrustDecision)) : History Bytes :=
  calls.foldl (History.next codec) ⟨none, fun _ => none⟩

/-- The file has fewer decisions than a file may have, or one about the workspace. -/
def HasRoom (content : Option Bytes) (workspace : Workspace) : Prop :=
  ∀ file name, load codec content = .ok file → canonicalWorkspace workspace = .ok name →
    name ∈ file.decisions ∨ file.decisions.size < 4096

/-- The file is read, and has what was saved. -/
def Keeps (history : History Bytes) : Prop :=
  ∃ file, load codec history.content = .ok file ∧ ∀ workspace name,
    canonicalWorkspace workspace = .ok name → file.decisions[name]? = history.saved workspace

variable {codec} {workspace : Workspace} {name : String} {content : Option Bytes}
  {file : TrustFile} {history : History Bytes} {call : Workspace × PersistedTrustDecision}

theorem eq_some_of_canonicalWorkspace (h : canonicalWorkspace workspace = .ok name) :
    workspace = some name := by
  rw [canonicalWorkspace] at h
  split at h
  · next found =>
    cases h
    exact (Option.filter_eq_some_iff.mp found).1
  · cases h

theorem load_some {bytes : Bytes} : load codec (some bytes) = .ok file ↔
    codec.length bytes ≤ maxTrustFileBytes ∧ codec.fromSlice bytes = some file ∧
      file.schemaVersion = trustSchemaVersion ∧ file.decisions.size ≤ 4096 := by
  rw [load]
  split_ifs with long
  · exact ⟨nofun, fun short => absurd long (Nat.not_lt.mpr short.1)⟩
  · cases codec.fromSlice bytes with
    | none => simp
    | some found =>
      dsimp only
      split_ifs with bad <;> grind

theorem of_load (h : load codec content = .ok file) :
    file.schemaVersion = trustSchemaVersion ∧ file.decisions.size ≤ 4096 := by
  cases content with
  | none =>
    cases h
    exact ⟨rfl, by decide⟩
  | some bytes => exact (load_some.mp h).2.2

theorem set_eq_ok {decision : PersistedTrustDecision} {bytes : Bytes} :
    set codec workspace decision content = .ok bytes ↔ ∃ name file,
      canonicalWorkspace workspace = .ok name ∧ load codec content = .ok file ∧
        codec.toVecPretty ⟨file.schemaVersion, file.decisions.insert name decision⟩ = bytes ∧
        codec.length bytes ≤ maxTrustFileBytes := by
  simp only [set, except_bind_eq_ok]
  refine exists_congr fun name => ?_
  rw [← exists_and_left]
  refine exists_congr fun file => and_congr_right fun _ => and_congr_right fun _ => ?_
  split_ifs with long <;> grind

theorem next_of_ok {bytes : Bytes} (written : set codec call.1 call.2 history.content = .ok bytes) :
    history.next codec call =
      ⟨some bytes, Function.update history.saved call.1 (some call.2)⟩ := by
  rw [History.next, written]

theorem Keeps.next (roundTrips : codec.RoundTrips) (h : Keeps codec history)
    (room : HasRoom codec history.content call.1) : Keeps codec (history.next codec call) := by
  cases written : set codec call.1 call.2 history.content with
  | error error => rwa [History.next, written]
  | ok bytes =>
    rw [next_of_ok written]
    obtain ⟨name, file, named, loaded, rfl, short⟩ := set_eq_ok.mp written
    obtain ⟨_, loaded', saved⟩ := h
    cases loaded.symm.trans loaded'
    obtain ⟨version, size⟩ := of_load loaded
    refine ⟨_, load_some.mpr ⟨short, roundTrips _, version, ?_⟩, ?_⟩
    · have fits := room file name loaded named
      rw [Std.ExtTreeMap.mem_iff_contains] at fits
      rw [Std.ExtTreeMap.size_insert]
      split_ifs with known
      · exact size
      · exact fits.resolve_left known
    · intro workspace name' named'
      have value := saved workspace name' named'
      rw [eq_some_of_canonicalWorkspace named'] at value ⊢
      simp only [BTreeMap.getElem?_insert_eq, Function.update_apply, Option.some.injEq, value,
        eq_some_of_canonicalWorkspace named]

/-- In every history in which each `set` of a new workspace finds fewer than 4096 decisions, `get`
on every workspace with a valid identity returns the decision of the last `set` that returned
`Ok`. -/
theorem trust_kept (roundTrips : codec.RoundTrips)
    {calls : List (Workspace × PersistedTrustDecision)}
    (room : ∀ before call rest, calls = before ++ call :: rest →
      HasRoom codec (after codec before).content call.1)
    (valid : canonicalWorkspace workspace = .ok name) :
    get codec workspace (after codec calls).content =
      .ok ((after codec calls).saved workspace) := by
  have keeps : Keeps codec (after codec calls) := by
    induction calls using List.reverseRecOn with
    | nil => exact ⟨_, rfl, fun _ _ _ => Std.ExtTreeMap.getElem?_empty⟩
    | append_singleton calls call ih =>
      rw [after, List.foldl_concat]
      refine Keeps.next roundTrips (ih fun before call rest split => ?_) (room calls call [] rfl)
      exact room before call (rest ++ _) (by rw [split, List.append_assoc, List.cons_append])
  obtain ⟨file, loaded, saved⟩ := keeps
  rw [get, valid, ← saved workspace name valid]
  simp only [loaded]
  rfl

/-! ### The 4097th decision -/

/-- Files are kept as they are, and 32 bytes are counted for a decision. The JSON of a decision
about one of the workspaces below is shorter. -/
def countingCodec : TrustCodec TrustFile where
  toVecPretty := id
  fromSlice := some
  length file := 64 + 32 * file.decisions.size

def numbered (n : Nat) : Workspace := some ("/" ++ n.repr)

def trustNumbered (n : Nat) : List (Workspace × PersistedTrustDecision) :=
  (List.range n).map fun k => (numbered k, .trusted)

theorem canonicalWorkspace_numbered {n : Nat} (small : n < 10 ^ 20) :
    canonicalWorkspace (numbered n) = .ok ("/" ++ n.repr) := by
  have size := utf8ByteSize_repr_le small
  have slash : "/".utf8ByteSize = 1 := by decide
  have control : "/".toList.any isControl = false := by decide
  have valid : (numbered n).filter (fun value =>
      value.utf8ByteSize ≤ 4096 && !value.toList.any isControl) = some ("/" ++ n.repr) := by
    refine Option.filter_eq_some_iff.mpr ⟨rfl, ?_⟩
    rw [String.utf8ByteSize_append, String.toList_append, List.any_append, plain_repr, control,
      decide_eq_true (by omega)]
    rfl
  rw [canonicalWorkspace, valid]

/-- A file with the decisions about the workspaces before a number. -/
structure HoldsBelow (n : Nat) (file : TrustFile) : Prop where
  version : file.schemaVersion = trustSchemaVersion
  size : file.decisions.size = n
  below : ∀ k, "/" ++ Nat.repr k ∈ file.decisions → k < n

theorem next_numbered {n : Nat} {history : History TrustFile} (bound : n ≤ 4096)
    (loaded : load countingCodec history.content = .ok file) (holds : HoldsBelow n file) :
    ∃ file', history.next countingCodec (numbered n, .trusted) =
        ⟨some file', Function.update history.saved (numbered n) (some .trusted)⟩ ∧
      HoldsBelow (n + 1) file' := by
  have grown : (file.decisions.insert ("/" ++ n.repr) .trusted).size = n + 1 := by
    rw [Std.ExtTreeMap.size_insert, if_neg, holds.size]
    rw [← Std.ExtTreeMap.mem_iff_contains]
    exact fun known => lt_irrefl n (holds.below n known)
  refine ⟨_, next_of_ok (set_eq_ok.mpr ⟨_, file, canonicalWorkspace_numbered (by omega), loaded,
    rfl, ?_⟩), holds.version, grown, fun k known => ?_⟩
  · simp only [countingCodec, maxTrustFileBytes, id, grown]
    omega
  · rcases BTreeMap.mem_insert_iff.mp known with same | known
    · rw [String.append_right_inj, Nat.repr_inj] at same
      omega
    · exact Nat.lt_succ_of_lt (holds.below k known)

theorem after_trustNumbered_succ (n : Nat) : after countingCodec (trustNumbered (n + 1)) =
    (after countingCodec (trustNumbered n)).next countingCodec (numbered n, .trusted) := by
  rw [after, trustNumbered, List.range_succ, List.map_append, List.foldl_append]
  rfl

/-- With up to 4096 decisions the file is read. -/
theorem exists_load_numbered {n : Nat} (bound : n ≤ 4096) : ∃ file,
    load countingCodec (after countingCodec (trustNumbered n)).content = .ok file ∧
      HoldsBelow n file := by
  induction n with
  | zero => exact ⟨_, rfl, rfl, rfl, by simp⟩
  | succ n ih =>
    obtain ⟨file, loaded, holds⟩ := ih (by omega)
    obtain ⟨file', next, holds'⟩ := next_numbered (by omega) loaded holds
    refine ⟨file', ?_, holds'⟩
    rw [after_trustNumbered_succ, next]
    refine load_some.mpr ⟨?_, rfl, holds'.version, holds'.size ▸ bound⟩
    simp only [countingCodec, maxTrustFileBytes, holds'.size]
    omega

/-- The decision about the 4097th workspace is saved, and no decision is read again. -/
theorem trust_lost :
    (after countingCodec (trustNumbered 4097)).saved (numbered 4096) = some .trusted ∧
      ∀ workspace decision,
        get countingCodec workspace (after countingCodec (trustNumbered 4097)).content ≠
          .ok decision := by
  obtain ⟨file, loaded, holds⟩ := exists_load_numbered (Nat.le_refl 4096)
  obtain ⟨file', next, holds'⟩ := next_numbered (Nat.le_refl 4096) loaded holds
  rw [show (4097 : Nat) = 4096 + 1 from rfl, after_trustNumbered_succ, next]
  refine ⟨by simp, fun workspace decision read => ?_⟩
  obtain ⟨_, -, read⟩ := except_bind_eq_ok.mp read
  obtain ⟨found, read, -⟩ := except_bind_eq_ok.mp read
  obtain ⟨-, same, -, size⟩ := load_some.mp read
  cases same
  rw [holds'.size] at size
  omega

theorem trust_kept_one : get countingCodec (some "/w")
    (after countingCodec [(some "/w", .ignored)]).content = .ok (some .ignored) := by
  refine (trust_kept (fun _ => rfl) (fun before call rest split => ?_) rfl).trans
    (congrArg Except.ok (by decide +kernel))
  cases before with
  | nil =>
    rintro _ _ ⟨⟩ -
    exact .inr (by decide)
  | cons => simp at split

end ProjectTrustStore

end TeaRs.Cli
