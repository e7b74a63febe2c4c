import TeaRs.Cli.OwnedRuns
import TeaRs.Session.Extension

/-!
# Pages of a session over the `JSONL` server

A client reads the records of a session in pages: each request names the last record received, and
the answer says whether there are more. A page is bounded by a number of records, and its frame by a
number of bytes. A frame that is too long is not written, and the connection ends.

## Main definitions

* `snapshotPage`, `encodeLine`, `querySnapshot`: the answer to one request.
* `download`: the pages a client gets that asks until there are no more.
* `pageBlock`: the pages as blocks of the log.

## Main results

* `snapshot_download_iff`: a client gets all records if and only if the frames of all blocks fit.
-/

namespace TeaRs.Cli

open List Nat

/-- `MAX_SNAPSHOT_PAGE_RECORDS`. -/
def maxSnapshotPageRecords : Nat := 64

/-- `MAX_RPC_FRAME_BYTES`. -/
def maxRpcFrameBytes : Nat := 1024 * 1024

structure SessionSnapshotPage where
  sessionId : SessionId
  afterSequence : Option SessionSequence
  tailSequence : SessionSequence
  records : List RecordEnvelope
  hasMore : Bool

/-- The number of records of a page, `clamp(1, MAX_SNAPSHOT_PAGE_RECORDS)`. -/
def pageLimit (requestedLimit : Nat) : Nat := max 1 (min requestedLimit maxSnapshotPageRecords)

/-- `snapshot_page`. -/
def snapshotPage (snapshot : SessionSnapshot) (afterSequence : Option SessionSequence)
    (requestedLimit : Nat) : SessionSnapshotPage :=
  let limit := pageLimit requestedLimit
  let matching := snapshot.records.filter fun record =>
    afterSequence.all fun cursor => decide (cursor < record.sequence)
  { sessionId := snapshot.state.sessionId
    afterSequence
    tailSequence := snapshot.state.tailSequence
    records := matching.take limit
    hasMore := (matching.drop limit).head?.isSome }

inductive RpcWriteError where
  | invalidValue
  | closed
  | deadline
  deriving DecidableEq, Repr

/-- `encode_line`, of a value that `serde_json` has printed. -/
def encodeLine (line : List UInt8) : Except RpcWriteError (List UInt8) :=
  if line = [] ∨ maxRpcFrameBytes < line.length ∨ 10 ∈ line ∨ 13 ∈ line then .error .invalidValue
  else .ok (line ++ [10])

/-- The answer to `QuerySnapshot`. An error of the writer ends the connection. -/
def querySnapshot (toVec : SessionSnapshotPage → List UInt8) (snapshot : SessionSnapshot)
    (afterSequence : Option SessionSequence) (limit : Nat) :
    Except RpcWriteError (Except RpcError SessionSnapshotPage) :=
  if limit = 0 then .ok (.error ⟨.invalidRequest, "snapshot limit must be non-zero"⟩)
  else
    let page := snapshotPage snapshot afterSequence limit
    (encodeLine (toVec page)).map fun _ => .ok page

/-- The pages a client gets that goes on with the last record it received, in at most `fuel`
requests from the `n`-th on. The text of an answer may depend on its request, which has an
identifier. -/
def download (toVec : Nat → SessionSnapshotPage → List UInt8) (snapshot : SessionSnapshot)
    (limit : Nat) : (fuel n : Nat) → Option SessionSequence → Option (List SessionSnapshotPage)
  | 0, _, _ => none
  | fuel + 1, n, afterSequence =>
    match querySnapshot (toVec n) snapshot afterSequence limit with
    | .ok (.ok page) =>
      if page.hasMore then
        (download toVec snapshot limit fuel (n + 1) (page.records.getLast?.map (·.sequence))).map
          (page :: ·)
      else some [page]
    | _ => none

/-- The index of the first record after a cursor. -/
def firstAfter (cursor : Option SessionSequence) : Nat := cursor.elim 0 (· + 1)

/-- The page that is the `n`-th block of the records after a cursor. -/
def pageBlock (snapshot : SessionSnapshot) (cursor : Option SessionSequence) (size n : Nat) :
    SessionSnapshotPage where
  sessionId := snapshot.state.sessionId
  afterSequence := if n = 0 then cursor else some (firstAfter cursor + n * size - 1)
  tailSequence := snapshot.state.tailSequence
  records := (snapshot.records.drop (firstAfter cursor + n * size)).take size
  hasMore := decide (firstAfter cursor + (n + 1) * size < snapshot.records.length)

/-- What `serde_json` prints is not empty and has no line breaks. -/
def Compact (toVec : Nat → SessionSnapshotPage → List UInt8) : Prop :=
  ∀ n page, toVec n page ≠ [] ∧ 10 ∉ toVec n page ∧ 13 ∉ toVec n page

section Paging

open SessionReducer

variable {log : List RecordEnvelope} {reducer : SessionReducer} {snapshot : SessionSnapshot}
  {toVec : Nat → SessionSnapshotPage → List UInt8} {cursor : Option SessionSequence}
  {limit n : Nat}

theorem pageLimit_pos : 0 < pageLimit limit := lt_of_lt_of_le one_pos (le_max_left 1 _)

theorem sequence_of_getElem? (accepted : Accepted log reducer) {index : Nat}
    {record : RecordEnvelope} (at_index : log[index]? = some record) :
    record.sequence = index := by
  have mapped := congrArg (·[index]?) accepted.sequence_eq
  have lt : index < log.length := (List.getElem?_eq_some_iff.mp at_index).1
  simp only [getElem?_map, at_index, Option.map_some, getElem?_range lt] at mapped
  exact Option.some.inj mapped

theorem filter_after (accepted : Accepted log reducer) :
    (log.filter fun record => cursor.all fun c => decide (c < record.sequence)) =
      log.drop (firstAfter cursor) := by
  cases cursor with
  | none => simp [firstAfter]
  | some c =>
    have front : ∀ record ∈ log.take (c + 1), ¬c < record.sequence := by
      intro record mem
      obtain ⟨index, lt, rfl⟩ := mem_take_iff_getElem.mp mem
      rw [sequence_of_getElem? accepted (getElem?_eq_getElem (by omega))]
      exact not_lt.mpr (le_of_lt_succ (by omega))
    have back : ∀ record ∈ log.drop (c + 1), c < record.sequence := by
      intro record mem
      obtain ⟨index, lt, rfl⟩ := mem_drop_iff_getElem.mp mem
      rw [sequence_of_getElem? accepted (getElem?_eq_getElem (by omega))]
      exact lt_of_lt_of_le (lt_succ_self c) (le_add_right _ _)
    conv_lhs => rw [← take_append_drop (c + 1) log]
    rw [filter_append, filter_eq_nil_iff.mpr (by simpa using front),
      filter_eq_self.mpr (by simpa using back), nil_append]
    rfl

theorem isSome_head?_drop {α : Type} (l : List α) (k : Nat) :
    (l.drop k).head?.isSome = decide (k < l.length) := by
  rw [head?_drop, Bool.eq_iff_iff]
  simp

theorem snapshotPage_eq (accepted : Accepted log reducer) (records : snapshot.records = log) :
    snapshotPage snapshot cursor limit = pageBlock snapshot cursor (pageLimit limit) 0 := by
  simp only [snapshotPage, pageBlock, records, filter_after accepted, drop_drop,
    isSome_head?_drop, zero_mul, add_zero, zero_add, one_mul, if_pos]

variable {size fuel : Nat} {pages : List SessionSnapshotPage}

theorem firstAfter_last (pos : 0 < size) :
    firstAfter (some (firstAfter cursor + size - 1)) = firstAfter cursor + size := by
  rw [firstAfter, Option.elim_some]
  omega

theorem add_succ_mul (a k size : Nat) : a + size + k * size = a + (k + 1) * size := by
  rw [succ_mul]
  omega

theorem hasMore_pageBlock : (pageBlock snapshot cursor size 0).hasMore = true ↔
    firstAfter cursor + size < snapshot.records.length := by
  simp [pageBlock]

theorem pageBlock_succ (pos : 0 < size) :
    pageBlock snapshot (some (firstAfter cursor + size - 1)) size n =
      pageBlock snapshot cursor size (n + 1) := by
  have after : (if n = 0 then some (firstAfter cursor + size - 1)
      else some (firstAfter cursor + (n + 1) * size - 1)) =
      some (firstAfter cursor + (n + 1) * size - 1) := by
    split_ifs with first
    · rw [first, zero_add, one_mul]
    · rfl
  simp only [pageBlock, firstAfter_last pos, add_succ_mul, after, add_one_ne_zero, if_false]

theorem getLast?_pageBlock (accepted : Accepted log reducer) (records : snapshot.records = log)
    (pos : 0 < size) (more : (pageBlock snapshot cursor size 0).hasMore = true) :
    (pageBlock snapshot cursor size 0).records.getLast?.map (·.sequence) =
      some (firstAfter cursor + size - 1) := by
  simp only [pageBlock, records, zero_mul, add_zero, zero_add, one_mul,
    decide_eq_true_eq] at more ⊢
  rw [getLast?_eq_getElem?, length_take_of_le (by rw [length_drop]; omega),
    getElem?_take_of_lt (by omega), getElem?_drop,
    getElem?_eq_getElem (by omega), Option.map_some,
    sequence_of_getElem? accepted (getElem?_eq_getElem (by omega)), Nat.add_sub_assoc pos]

theorem querySnapshot_eq (accepted : Accepted log reducer) (records : snapshot.records = log)
    (compact : Compact toVec) (positive : limit ≠ 0) :
    querySnapshot (toVec n) snapshot cursor limit =
      if (toVec n (pageBlock snapshot cursor (pageLimit limit) 0)).length ≤ maxRpcFrameBytes then
        .ok (.ok (pageBlock snapshot cursor (pageLimit limit) 0))
      else .error .invalidValue := by
  obtain ⟨nonempty, feed, carriage⟩ := compact n (pageBlock snapshot cursor (pageLimit limit) 0)
  simp only [querySnapshot, if_neg positive, snapshotPage_eq accepted records, encodeLine,
    nonempty, feed, carriage, false_or, or_false, ← not_le]
  split_ifs <;> rfl

/-- The frames of the blocks of the records after a cursor fit, the requests being counted from
`n` on. -/
def FramesFit (toVec : Nat → SessionSnapshotPage → List UInt8) (snapshot : SessionSnapshot)
    (cursor : Option SessionSequence) (size n : Nat) : Prop :=
  ∀ k, k = 0 ∨ firstAfter cursor + k * size < snapshot.records.length →
    (toVec (n + k) (pageBlock snapshot cursor size k)).length ≤ maxRpcFrameBytes

theorem framesFit_iff (pos : 0 < size) : FramesFit toVec snapshot cursor size n ↔
      (toVec n (pageBlock snapshot cursor size 0)).length ≤ maxRpcFrameBytes ∧
      ((pageBlock snapshot cursor size 0).hasMore = true →
        FramesFit toVec snapshot (some (firstAfter cursor + size - 1)) size (n + 1)) := by
  simp only [FramesFit, firstAfter_last pos, pageBlock_succ pos, hasMore_pageBlock]
  constructor
  · refine fun fits => ⟨fits 0 (.inl rfl), fun rest k inside => ?_⟩
    have fit := fits (k + 1) (.inr ?_)
    · rwa [← add_assoc, add_right_comm] at fit
    · rcases inside with rfl | inside
      · simpa using rest
      · rwa [← add_succ_mul]
  · rintro ⟨first, later⟩ (_ | k) inside
    · exact first
    · rw [← add_succ_mul] at inside
      have inside := inside.resolve_left (succ_ne_zero k)
      have fit := later (by omega) k (.inr inside)
      rwa [add_right_comm, add_assoc] at fit

section

variable (accepted : Accepted log reducer) (records : snapshot.records = log)
  (compact : Compact toVec) (positive : limit ≠ 0)

include accepted records compact positive

theorem download_succ : download toVec snapshot limit (fuel + 1) n cursor = some pages ↔
      (toVec n (pageBlock snapshot cursor (pageLimit limit) 0)).length ≤ maxRpcFrameBytes ∧
      ∃ rest, pages = pageBlock snapshot cursor (pageLimit limit) 0 :: rest ∧
        if (pageBlock snapshot cursor (pageLimit limit) 0).hasMore = true then
          download toVec snapshot limit fuel (n + 1)
            (some (firstAfter cursor + pageLimit limit - 1)) = some rest
        else rest = [] := by
  rw [download, querySnapshot_eq accepted records compact positive]
  by_cases fits :
      (toVec n (pageBlock snapshot cursor (pageLimit limit) 0)).length ≤ maxRpcFrameBytes
  · simp only [fits, if_true, true_and]
    by_cases more : (pageBlock snapshot cursor (pageLimit limit) 0).hasMore = true
    · rw [getLast?_pageBlock accepted records pageLimit_pos more]
      simp only [more, if_true, Option.map_eq_some_iff]
      exact exists_congr fun rest => and_comm.trans (and_congr_left' eq_comm)
    · simp [more, eq_comm]
  · simp [fits]

/-- A client that gets pages got frames that fit, and all records. -/
theorem of_download (loaded : download toVec snapshot limit fuel n cursor = some pages) :
    FramesFit toVec snapshot cursor (pageLimit limit) n ∧
      pages.flatMap (·.records) = log.drop (firstAfter cursor) := by
  have pos : 0 < pageLimit limit := pageLimit_pos
  induction fuel generalizing n cursor pages with
  | zero => cases loaded
  | succ fuel ih =>
    obtain ⟨fits, rest, rfl, later⟩ := (download_succ accepted records compact positive).mp loaded
    have block : (pageBlock snapshot cursor (pageLimit limit) 0).records =
        (log.drop (firstAfter cursor)).take (pageLimit limit) := by
      simp [pageBlock, records]
    rw [framesFit_iff pos, flatMap_cons, block]
    split_ifs at later with more
    · obtain ⟨fit, rest_eq⟩ := ih later
      refine ⟨⟨fits, fun _ => fit⟩, ?_⟩
      rw [rest_eq, firstAfter_last pos, ← drop_drop, take_append_drop]
    · refine ⟨⟨fits, fun h => absurd h more⟩, ?_⟩
      rw [hasMore_pageBlock, records] at more
      rw [later, flatMap_nil, append_nil, take_of_length_le]
      rw [length_drop]
      omega

/-- Where the frames fit, a client gets pages. -/
theorem exists_download
    (fit : FramesFit toVec snapshot cursor (pageLimit limit) n) :
    ∃ fuel pages, download toVec snapshot limit fuel n cursor = some pages := by
  have pos : 0 < pageLimit limit := pageLimit_pos
  induction h : log.length - firstAfter cursor using Nat.strong_induction_on
    generalizing n cursor with
  | _ d ih =>
    rw [framesFit_iff pos, hasMore_pageBlock, records] at fit
    by_cases more : firstAfter cursor + pageLimit limit < log.length
    · obtain ⟨fuel, rest, loaded⟩ := ih _ (by rw [firstAfter_last pos]; omega) (fit.2 more) rfl
      refine ⟨fuel + 1, _, (download_succ accepted records compact positive).mpr
        ⟨fit.1, rest, rfl, ?_⟩⟩
      rwa [if_pos (hasMore_pageBlock.mpr (records ▸ more))]
    · refine ⟨1, _, (download_succ accepted records compact positive).mpr ⟨fit.1, [], rfl, ?_⟩⟩
      rw [if_neg (mt hasMore_pageBlock.mp (records ▸ more))]

end

/-- A client that asks for pages of any size from any cursor on gets an answer to every request and
exactly the records after the cursor, if and only if the frame of every block of that many records
fits. -/
theorem snapshot_download_iff (accepted : Accepted log reducer) (records : snapshot.records = log)
    (compact : Compact toVec) (cursor : Option SessionSequence) (positive : limit ≠ 0) :
    (∃ fuel pages, download toVec snapshot limit fuel 0 cursor = some pages ∧
      pages.flatMap (·.records) = log.filter fun record =>
        cursor.all fun c => decide (c < record.sequence)) ↔
      FramesFit toVec snapshot cursor (pageLimit limit) 0 := by
  rw [filter_after accepted]
  constructor
  · rintro ⟨fuel, pages, loaded, -⟩
    exact (of_download accepted records compact positive loaded).1
  · intro fit
    obtain ⟨fuel, pages, loaded⟩ := exists_download accepted records compact positive fit
    exact ⟨fuel, pages, loaded, (of_download accepted records compact positive loaded).2⟩

end Paging

/-! ### A long prompt -/

open SessionReducer

/-- A session as the service creates it. -/
def createdLog : List RecordEnvelope :=
  [numberedCreation,
    numbered 1 (some ⟨0⟩) (.configurationChanged (some ⟨"provider", "model"⟩) none none) rfl]

theorem accepted_createdLog : Accepted createdLog (reducerOf createdLog) :=
  accepted_reducerOf (by decide +kernel)

theorem snapshot_download_iff_created :
    ∃ state, (reducerOf createdLog).state = some state ∧ ∃ fuel pages,
      download (fun _ _ => [0]) ⟨createdLog, state, [], [], [], 0⟩ 1 fuel 0 none = some pages ∧
      pages.flatMap (·.records) = createdLog := by
  obtain ⟨state, hs⟩ := Option.isSome_iff_exists.mp
    (by decide +kernel : (reducerOf createdLog).state.isSome = true)
  exact ⟨state, hs, (snapshot_download_iff accepted_createdLog rfl (fun _ _ => by decide) none
    one_ne_zero).mpr fun _ _ => by decide⟩

/-- The message of a prompt, as the third record of a session. -/
def promptRecord (text : String) : RecordEnvelope :=
  numbered 2 (some ⟨0⟩) (.messageCommitted (.user ⟨0⟩ [.text text] 2)) rfl

theorem exists_accepted_prompt (text : String) :
    ∃ reducer state, Accepted (createdLog ++ [promptRecord text]) reducer ∧
      reducer.state = some state := by
  have facts : (reducerOf createdLog).state.map (fun state =>
      (state.sessionId, state.activeBranchId, state.tailSequence)) = some (⟨0⟩, some ⟨0⟩, 1) ∧
      ⟨0⟩ ∉ (reducerOf createdLog).messageIds := by
    decide +kernel
  obtain ⟨state, hs, same⟩ := Option.map_eq_some_iff.mp facts.1
  simp only [Prod.mk.injEq] at same
  have fresh : (⟨2⟩ : RecordId) ∉ createdLog.map (·.recordId) := by decide +kernel
  obtain ⟨reducer, state', accepted, grown, -⟩ := accepted_createdLog.snoc_of_recordStep hs
    (e := promptRecord text) ⟨same.1.symm, same.2.1.symm, by rw [same.2.2]; rfl, trivial⟩ fresh
    (.message rfl facts.2 ⟨nodup_nil, nofun, nofun⟩ rfl)
  exact ⟨reducer, state', accepted, grown.state⟩

/-- What `serde_json` prints of a page holds the texts of its messages in quotes. -/
def Quotes (toVec : Nat → SessionSnapshotPage → List UInt8) : Prop :=
  ∀ n (page : SessionSnapshotPage) text, promptRecord text ∈ page.records →
    text.utf8ByteSize + 2 ≤ (toVec n page).length

/-- A prompt of one mebibyte is a valid message, and no page with its record can be sent. -/
theorem long_prompt_undelivered : ∃ text, validateText text = .ok () ∧ ∃ reducer state,
      Accepted (createdLog ++ [promptRecord text]) reducer ∧ reducer.state = some state ∧
      ∀ toVec limit fuel, Compact toVec → Quotes toVec → limit ≠ 0 →
        download toVec ⟨createdLog ++ [promptRecord text], state, [], [], [], 0⟩ limit fuel 0
          (some 1) = none := by
  obtain ⟨text, text_eq⟩ : ∃ text, text = String.ofList (replicate maxTextBlockBytes 'a') :=
    ⟨_, rfl⟩
  have size : text.utf8ByteSize = maxTextBlockBytes := by
    rw [utf8ByteSize_eq_sum, text_eq, String.toList_ofList, map_replicate,
      sum_replicate_nat]
    rfl
  have plain : '\x00' ∉ text.toList := by
    rw [text_eq, String.toList_ofList, mem_replicate]
    exact fun h => absurd h.2 (by decide)
  have nonempty : text.isEmpty = false := by
    rw [String.isEmpty, size]
    rfl
  obtain ⟨reducer, state, accepted, hs⟩ := exists_accepted_prompt text
  refine ⟨text, ?_, reducer, state, accepted, hs,
    fun toVec limit fuel compact quotes positive => ?_⟩
  · rw [validateText, isBoundedText, nonempty, size]
    simp [plain]
  · refine Option.eq_none_iff_forall_ne_some.mpr fun pages loaded => ?_
    have fits := (of_download accepted rfl compact positive loaded).1 0 (.inl rfl)
    have inside : promptRecord text ∈ (pageBlock
        ⟨createdLog ++ [promptRecord text], state, [], [], [], 0⟩ (some 1) (pageLimit limit)
          0).records := by
      have rest : (createdLog ++ [promptRecord text]).drop
          (firstAfter (some 1) + 0 * pageLimit limit) = [promptRecord text] := by
        rw [zero_mul]
        rfl
      rw [pageBlock, rest, take_of_length_le pageLimit_pos]
      exact mem_singleton_self _
    have long := quotes (0 + 0) _ text inside
    rw [size, maxTextBlockBytes] at long
    rw [maxRpcFrameBytes] at fits
    omega

end TeaRs.Cli
