import TeaRs.ProviderHttp.ErrorText

/-!
# The scan for sensitive words

The scan looks for the first occurrence of each sensitive word and gives a word up when that
occurrence is part of a larger one. So a value is replaced when no such occurrence before it stands
alone, and when its word is not itself in the value of an earlier one.

## Main definitions

* `ValueParts`: the parts of a text around the value of a sensitive word.
* `EndsInValue`: a text that ends in the value of a sensitive word.

## Main results

* `redactMarkers_cases`: what one round of the scan does.
* `redactMarkers_hides`: the value of a sensitive word that the scan comes to is gone.
-/

namespace TeaRs.ProviderHttp

open Scan Symbol List

variable {α : Type} [Symbol α]

/-! ### Classes of characters -/

variable {c : Char} {index start : Nat} {previous : Option Char} {pattern marker : List Char}
  {word scheme : List α}

theorem isWord_iff : isWord c = true ↔ (48 ≤ c.toNat ∧ c.toNat ≤ 57) ∨
    (65 ≤ c.toNat ∧ c.toNat ≤ 90) ∨ (97 ≤ c.toNat ∧ c.toNat ≤ 122) ∨ c.toNat = 95 := by
  have underscore : c = '_' ↔ c.toNat = 95 := (Char.toNat_inj (d := '_')).symm
  have limits : 'A'.val.toNat = 65 ∧ 'Z'.val.toNat = 90 ∧ 'a'.val.toNat = 97 ∧
    'z'.val.toNat = 122 ∧ '0'.val.toNat = 48 ∧ '9'.val.toNat = 57 := by decide
  simp only [isWord, Char.isAlphanum, Char.isAlpha, Char.isUpper, Char.isLower, Char.isDigit,
    Bool.or_eq_true, Bool.and_eq_true, decide_eq_true_eq, ge_iff_le, UInt32.le_iff_toNat_le,
    underscore]
  simp only [Char.toNat]
  omega

theorem isSeparator_iff : isSeparator c = true ↔ c.toNat = 58 ∨ c.toNat = 61 := by
  have colon : c = ':' ↔ c.toNat = 58 := (Char.toNat_inj (d := ':')).symm
  have equals : c = '=' ↔ c.toNat = 61 := (Char.toNat_inj (d := '=')).symm
  simp [isSeparator, colon, equals]

theorem isStop_iff : isStop c = true ↔ isWhitespace c = true ∨ c.toNat = 44 ∨
    c.toNat = 125 ∨ c.toNat = 93 ∨ c.toNat = 59 ∨ c.toNat = 34 ∨ c.toNat = 39 := by
  have comma : c = ',' ↔ c.toNat = 44 := (Char.toNat_inj (d := ',')).symm
  have bracket : c = ']' ↔ c.toNat = 93 := (Char.toNat_inj (d := ']')).symm
  have semicolon : c = ';' ↔ c.toNat = 59 := (Char.toNat_inj (d := ';')).symm
  simp [isStop, comma, bracket, semicolon, or_assoc]

theorem isWhitespace_iff : isWhitespace c = true ↔
    (9 ≤ c.toNat ∧ c.toNat ≤ 13) ∨ c.toNat = 32 ∨ c.toNat = 133 ∨ c.toNat = 160 ∨ 5760 ≤ c.toNat ∧
      (c.toNat = 5760 ∨ (8192 ≤ c.toNat ∧ c.toNat ≤ 8202) ∨ c.toNat = 8232 ∨ c.toNat = 8233 ∨
        c.toNat = 8239 ∨ c.toNat = 8287 ∨ c.toNat = 12288) := by
  simp only [isWhitespace, Bool.or_eq_true, Bool.and_eq_true, beq_iff_eq, decide_eq_true_eq]
  omega

theorem isSpacing_iff : isSpacing c = true ↔ c.toNat = 32 ∨ c.toNat = 9 ∨ c.toNat = 10 ∨
    c.toNat = 12 ∨ c.toNat = 13 ∨ c.toNat = 34 ∨ c.toNat = 39 := by
  simp [isSpacing, or_assoc]

theorem isStop_of_isSpacing (h : isSpacing c = true) : isStop c = true := by
  rw [isSpacing_iff] at h
  rw [isStop_iff, isWhitespace_iff]
  omega

theorem not_isStop_of_isWord (h : isWord c = true) : isStop c = false := by
  rw [← Bool.not_eq_true, isStop_iff, isWhitespace_iff]
  rw [isWord_iff] at h
  omega

theorem not_isSeparator_of_isWord (h : isWord c = true) : isSeparator c = false := by
  rw [← Bool.not_eq_true, isSeparator_iff]
  rw [isWord_iff] at h
  omega

theorem not_isStop_of_isSeparator (h : isSeparator c = true) : isStop c = false := by
  rw [← Bool.not_eq_true, isStop_iff, isWhitespace_iff]
  rw [isSeparator_iff] at h
  omega

theorem not_isWord_of_isSpacing (h : isSpacing c = true) : isWord c = false := by
  cases word : isWord c with
  | false => rfl
  | true => rw [← isStop_of_isSpacing h, not_isStop_of_isWord word]

theorem not_isSpacing_of_not_isStop (h : isStop c = false) : isSpacing c = false := by
  cases spacing : isSpacing c with
  | false => rfl
  | true => rw [← h, isStop_of_isSpacing spacing]

theorem not_isSeparator_of_isSpacing (h : isSpacing c = true) : isSeparator c = false := by
  cases separator : isSeparator c with
  | false => rfl
  | true => rw [← isStop_of_isSpacing h, not_isStop_of_isSeparator separator]

theorem not_isWord_of_isSeparator (h : isSeparator c = true) : isWord c = false := by
  cases word : isWord c with
  | false => rfl
  | true => rw [← h, not_isSeparator_of_isWord word]

theorem toNat_toLower (c : Char) :
    c.toLower.toNat = if 65 ≤ c.toNat ∧ c.toNat ≤ 90 then c.toNat + 32 else c.toNat := by
  have limits : 'A'.val.toNat = 65 ∧ 'Z'.val.toNat = 90 := by decide
  simp only [Char.toLower, ge_iff_le, UInt32.le_iff_toNat_le, limits.1, limits.2, Char.toNat]
  split
  · next upper =>
    change (c.val + ('a'.val - 'A'.val)).toNat = _
    rw [UInt32.toNat_add]
    have : ('a'.val - 'A'.val).toNat = 32 := by decide
    omega
  · rfl

theorem isWord_toLower (c : Char) : isWord c.toLower = isWord c := by
  rw [Bool.eq_iff_iff, isWord_iff, isWord_iff, toNat_toLower]
  split <;> omega

theorem isStop_toLower (c : Char) : isStop c.toLower = isStop c := by
  rw [Bool.eq_iff_iff, isStop_iff, isStop_iff, isWhitespace_iff, isWhitespace_iff, toNat_toLower]
  split <;> omega

/-! ### Reading a text -/

theorem charBefore_append (previous : Option Char) (front back : List Char) (index : Nat) :
    charBefore previous (front ++ back) (front.length + index) =
      charBefore (charBefore previous (front ++ back) front.length) back index := by
  cases index with
  | zero => rfl
  | succ index =>
    change (front ++ back)[front.length + index]? = back[index]?
    rw [getElem?_append_right (by omega), Nat.add_sub_cancel_left]

theorem charBefore_append_left (previous : Option Char) (front back : List Char)
    (le : index ≤ front.length) :
    charBefore previous (front ++ back) index = charBefore previous front index := by
  cases index with
  | zero => rfl
  | succ index => exact getElem?_append_left (by omega)

theorem charBefore_length {front : List α} (back : List α) {x : α} (last : x ∈ front.getLast?) :
    charBefore previous (lower (front ++ back)) front.length = some (char x).toLower := by
  obtain ⟨front, rfl⟩ := getLast?_eq_some_iff.mp last
  rw [length_append, length_singleton]
  change (lower (front ++ [x] ++ back))[front.length]? = _
  rw [lower_append, lower_append, append_assoc, getElem?_append_right (by simp),
    length_lower, Nat.sub_self]
  rfl

theorem wordStart_append (previous : Option Char) (front back : List Char) (index : Nat)
    (pattern : List Char) :
    wordStart previous (front ++ back) (front.length + index) pattern =
      wordStart (charBefore previous (front ++ back) front.length) back index pattern := by
  rw [wordStart, wordStart, charBefore_append]

theorem wholeWord_append (previous : Option Char) (front back : List Char) (index : Nat)
    (pattern : List Char) :
    wholeWord previous (front ++ back) (front.length + index) pattern =
      wholeWord (charBefore previous (front ++ back) front.length) back index pattern := by
  rw [wholeWord, wholeWord, charBefore_append, getElem?_append_right (by omega),
    Nat.add_assoc, Nat.add_sub_cancel_left]

/-- Behind the first character of a part it does not matter what comes before the part. -/
theorem wordStart_behind (previous' : Option Char) {front back : List Char} (pos : 0 < index) :
    wordStart previous (front ++ back) (front.length + index) pattern =
      wordStart previous' back index pattern := by
  rw [wordStart_append]
  obtain ⟨index, rfl⟩ := Nat.exists_eq_add_of_le' pos
  rfl

theorem wholeWord_behind (previous' : Option Char) {front back : List Char} (pos : 0 < index) :
    wholeWord previous (front ++ back) (front.length + index) pattern =
      wholeWord previous' back index pattern := by
  rw [wholeWord_append]
  obtain ⟨index, rfl⟩ := Nat.exists_eq_add_of_le' pos
  rfl

/-- A scan comes to this place of a text: a word may start there, and no occurrence of a pattern
before it stands alone inside a larger word. -/
structure Comes (accepts : Option Char → List Char → Nat → List Char → Bool)
    (patterns : List (List Char)) (previous : Option Char) (text : List Char) (place : Nat) :
    Prop where
  boundary : isBoundary (charBefore previous text place) = true
  covered : Covered (accepts previous text) patterns isStop text place

/-- A scan that starts at a stop comes to the same places. -/
theorem Comes.cut {accepts : Option Char → List Char → Nat → List Char → Bool}
    {patterns : List (List Char)} {previous' : Option Char} {front back : List Char}
    {place : Nat} (comes : Comes accepts patterns previous (front ++ back) (front.length + place))
    (behind : ∀ index pattern, 0 < index →
      accepts previous (front ++ back) (front.length + index) pattern =
        accepts previous' back index pattern)
    (head : ∀ c ∈ back.head?, isStop c = true)
    (clean : ∀ pattern ∈ patterns, pattern ≠ [] ∧ ∀ c ∈ pattern, isStop c = false)
    (start : place = 0 → isBoundary previous' = true) :
    Comes accepts patterns previous' back place := by
  constructor
  · cases place with
    | zero => exact start rfl
    | succ place =>
      have boundary := comes.boundary
      rw [charBefore_append] at boundary
      exact boundary
  · have passed := comes.covered.suffix _ behind head clean
    rwa [Nat.add_sub_cancel_left] at passed

theorem marker_isWord : ∀ marker ∈ markers, ∀ c ∈ marker, isWord c = true := by
  decide

theorem marker_clean : ∀ marker ∈ markers, marker ≠ [] ∧ ∀ c ∈ marker, isStop c = false :=
  fun marker listed => ⟨marker_ne_nil marker listed,
    fun c member => not_isStop_of_isWord (marker_isWord marker listed c member)⟩

theorem isWord_of_lower_mem (listed : lower word ∈ markers) :
    ∀ x ∈ word, isWord (char x) = true := by
  intro x member
  rw [← isWord_toLower]
  exact marker_isWord _ listed _ (mem_map_of_mem (mem_map_of_mem member))

/-! ### One round of the scan for sensitive words -/

theorem redactMarkers_of_no_separator (previous : Option Char) (text : List α)
    (none : ∀ x ∈ text, isSeparator (char x) = false) : redactMarkers previous text = text :=
    by
  induction h : text.length using Nat.strong_induction_on generalizing previous text with
  | _ n ih =>
    cases found : nextMatch (wholeWord previous (lower text)) markers (lower text) with
    | none => exact redactMarkers_of_none found
    | some candidate =>
      obtain ⟨start, marker⟩ := candidate
      have rest : ∀ x ∈ text.drop (start + marker.length), isSeparator (char x) = false :=
        fun x member => none x (mem_of_mem_drop member)
      have le := marker_le found
      rw [redactMarkers_of_some found, findIdx?_eq_none_iff.mpr rest]
      simp only
      rw [ih _ (by rw [length_drop]; omega) _ _ rest rfl, take_append_drop]

/-- What one round does: it stops, or it replaces the value behind the first separator that follows
the sensitive word it found. -/
theorem redactMarkers_cases (previous : Option Char) (text : List α) :
    (redactMarkers previous text = text ∧
      ∀ start marker, nextMatch (wholeWord previous (lower text)) markers (lower text) =
        some (start, marker) →
        ∀ x ∈ text.drop (start + marker.length), isSeparator (char x) = false) ∨
    ∃ start marker gap separator tail,
      nextMatch (wholeWord previous (lower text)) markers (lower text) = some (start, marker) ∧
      text.drop (start + marker.length) = gap ++ separator :: tail ∧
      (∀ x ∈ gap, isSeparator (char x) = false) ∧
      isSeparator (char separator) = true ∧
      redactMarkers previous text = text.take (start + marker.length) ++ gap ++ separator ::
        spacingOf tail ++ literal "[redacted]" ++
        redactMarkers (charBefore previous (lower text) (text.length - (behindValue tail).length))
          (behindValue tail) := by
  cases found : nextMatch (wholeWord previous (lower text)) markers (lower text) with
  | none =>
    exact .inl ⟨redactMarkers_of_none found, nofun⟩
  | some candidate =>
    obtain ⟨start, marker⟩ := candidate
    have le := marker_le found
    cases search : (text.drop (start + marker.length)).findIdx?
        (fun x => isSeparator (char x)) with
    | none =>
      have rest := findIdx?_eq_none_iff.mp search
      refine .inl ⟨?_, ?_⟩
      · rw [redactMarkers_of_some found, search]
        simp only
        rw [redactMarkers_of_no_separator _ _ rest, take_append_drop]
      · rintro _ _ ⟨⟩
        exact rest
    | some index =>
      obtain ⟨lt, separates, earlier⟩ := findIdx?_eq_some_iff_getElem.mp search
      refine .inr ⟨start, marker, (text.drop (start + marker.length)).take index,
        (text.drop (start + marker.length))[index],
        (text.drop (start + marker.length)).drop (index + 1), rfl, ?_, ?_, separates, ?_⟩
      · rw [getElem_cons_drop, take_append_drop]
      · intro x member
        obtain ⟨k, k_lt, rfl⟩ := mem_take_iff_getElem.mp member
        exact Bool.eq_false_iff.mpr (by simpa using earlier k (by omega))
      · have tail_eq : (text.drop (start + marker.length)).drop (index + 1) =
            text.drop (start + marker.length + index + 1) :=
          drop_drop
        have head_eq : text.take (start + marker.length + index + 1) =
            text.take (start + marker.length) ++
              ((text.drop (start + marker.length)).take index ++
                [(text.drop (start + marker.length))[index]]) := by
          rw [take_append_getElem, Nat.add_assoc, ← take_add]
        rw [redactMarkers_of_some found, search, tail_eq]
        simp only
        rw [head_eq]
        simp only [append_assoc, cons_append, nil_append]

/-- What the scan makes of a text: it keeps a part that ends in a separator or in spacing, takes away
what follows up to a stop, and goes on there. -/
inductive Redacted : List α → List α → Prop where
  | same (text : List α) : Redacted text text
  | round (kept secret : List α) {remaining out : List α} {last : α}
      (ends : isSeparator (char last) = true ∨ isSpacing (char last) = true)
      (head : ∀ x ∈ remaining.head?, isStop (char x) = true)
      (later : Redacted remaining out) :
      Redacted (kept ++ last :: (secret ++ remaining))
        (kept ++ last :: (literal "[redacted]" ++ out))

theorem redacted_redactMarkers (previous : Option Char) (text : List α) :
    Redacted text (redactMarkers previous text) := by
  induction h : text.length using Nat.strong_induction_on generalizing previous text with
  | _ n ih =>
    rcases redactMarkers_cases previous text with
      ⟨same, -⟩ | ⟨start, marker, gap, separator, tail, -, drop_eq, -, separates, out_eq⟩
    · rw [same]
      exact .same text
    have text_eq : text = text.take (start + marker.length) ++ (gap ++ separator :: tail) := by
      rw [← drop_eq, take_append_drop]
    have behind : behindValue tail <:+ tail.dropWhile fun x => isSpacing (char x) :=
      (afterSecret_suffix _).trans (dropBearer_suffix _)
    obtain ⟨secret, secret_eq⟩ := behind
    have tail_eq : tail = spacingOf tail ++ (secret ++ behindValue tail) := by
      rw [secret_eq, spacingOf, takeWhile_append_dropWhile]
    have head : ∀ x ∈ (behindValue tail).head?, isStop (char x) = true := by
      intro x first
      have stops := head?_dropWhile_not (fun y => !isStop (char y))
        (dropBearer (tail.dropWhile fun x => isSpacing (char x)))
      rw [← afterSecret, ← behindValue, Option.mem_def.mp first] at stops
      simpa using stops
    have spaced : ∀ x ∈ spacingOf tail, isSpacing (char x) = true := fun x member =>
      mem_takeWhile_imp (p := fun y => isSpacing (char y)) member
    have shorter : (behindValue tail).length < n := by
      have le := (behindValue_suffix tail).length_le
      rw [← h, text_eq]
      simp only [length_append, length_cons]
      omega
    have later := ih _ shorter
      (charBefore previous (lower text) (text.length - (behindValue tail).length)) _ rfl
    rw [out_eq]
    generalize redactMarkers (charBefore previous (lower text)
      (text.length - (behindValue tail).length)) (behindValue tail) = out at later ⊢
    generalize text.take (start + marker.length) = front at text_eq ⊢
    generalize spacingOf tail = spacing at tail_eq spaced ⊢
    generalize behindValue tail = remaining at tail_eq head later
    rw [text_eq, tail_eq]
    rcases spacing.eq_nil_or_concat with rfl | ⟨spacing, last, rfl⟩
    · simpa using Redacted.round (front ++ gap) secret (.inl separates) head later
    · simpa using Redacted.round (front ++ (gap ++ separator :: spacing)) secret
        (.inr (spaced last (by simp))) head later

/-- Nothing new comes into the text but the replacement. -/
theorem Redacted.mem {text out : List α} (redacted : Redacted text out) {x : α} (member : x ∈ out) :
    x ∈ text ∨ x ∈ literal (α := α) "[redacted]" := by
  induction redacted with
  | same => exact .inl member
  | round _ _ _ _ _ ih =>
    simp only [mem_append, mem_cons] at member ⊢
    rcases member with inside | rfl | mark | inside
    · exact .inl (.inl inside)
    · exact .inl (.inr (.inl rfl))
    · exact .inr mark
    · exact (ih inside).imp_left fun inside => .inr (.inr (.inr inside))

theorem mem_redactMarkers {text : List α} {x : α}
    (member : x ∈ redactMarkers previous text) : x ∈ text ∨ x ∈ literal (α := α) "[redacted]" :=
  (redacted_redactMarkers previous text).mem member

/-! ### The value after a sensitive word -/

theorem append_cons_inj_of_first {β : Type} {p : β → Bool} {a a' : List β} {x x' : β}
    {b b' : List β} (eq : a ++ x :: b = a' ++ x' :: b') (ha : ∀ y ∈ a, p y = false)
    (hx : p x = true) (ha' : ∀ y ∈ a', p y = false) (hx' : p x' = true) :
    a = a' ∧ x = x' ∧ b = b' := by
  induction a generalizing a' with
  | nil =>
    cases a' with
    | nil => exact ⟨rfl, cons.inj eq⟩
    | cons y a' =>
      rw [(cons.inj eq).1, ha' y mem_cons_self] at hx
      cases hx
  | cons y a ih =>
    cases a' with
    | nil =>
      rw [← (cons.inj eq).1, ha y mem_cons_self] at hx'
      cases hx'
    | cons y' a' =>
      obtain ⟨rfl, eq'⟩ := cons.inj eq
      obtain ⟨rfl, rest⟩ := ih eq' (fun z hz => ha z (mem_cons_of_mem _ hz))
        fun z hz => ha' z (mem_cons_of_mem _ hz)
      exact ⟨rfl, rest⟩

/-- The parts of a text around the value of a sensitive word. -/
structure ValueParts (word gap : List α) (separator : α) (spacing scheme value : List α) :
    Prop where
  word : lower word ∈ markers
  gap : ∀ x ∈ gap, isSpacing (char x) = true
  separator : isSeparator (char separator) = true
  spacing : ∀ x ∈ spacing, isSpacing (char x) = true
  scheme : scheme = [] ∨ isBearer (chars scheme) = true
  value : ∀ x ∈ value, isStop (char x) = false

/-- The text so far ends in the value of a sensitive word. -/
def EndsInValue (previous : Option Char) (text : List α) : Prop :=
  ∃ front word gap separator spacing scheme value,
    text = front ++ (word ++ (gap ++ separator :: (spacing ++ (scheme ++ value)))) ∧
    lower word ∈ markers ∧
    wholeWord previous (lower text) front.length (lower word) = true ∧
    (∀ x ∈ gap, isSeparator (char x) = false) ∧
    isSeparator (char separator) = true ∧
    (∀ x ∈ spacing, isSpacing (char x) = true) ∧
    (scheme = [] ∨ isBearer (chars scheme) = true) ∧
    ∀ x ∈ value, isStop (char x) = false

theorem length_of_isBearer (h : isBearer (chars scheme) = true) : scheme.length = 7 := by
  have length := congrArg length (beq_iff_eq.mp h)
  simpa using length

theorem getElem?_of_isBearer (h : isBearer (chars scheme) = true) (index : Nat) :
    (scheme[index]?).map (fun x => (char x).toLower) = "bearer ".toList[index]? := by
  rw [← beq_iff_eq.mp h, chars, map_map, getElem?_map]
  rfl

theorem behindValue_append {spacing value : List α} (rest : List α)
    (hspacing : ∀ x ∈ spacing, isSpacing (char x) = true)
    (hscheme : scheme = [] ∨ isBearer (chars scheme) = true)
    (hvalue : ∀ x ∈ value, isStop (char x) = false) :
    behindValue (spacing ++ (scheme ++ (value ++ rest))) <:+ rest := by
  have skip : afterSecret (value ++ rest) <:+ rest := by
    rw [afterSecret, dropWhile_append_of_pos (by simpa using hvalue)]
    exact dropWhile_suffix _
  rw [behindValue, dropWhile_append_of_pos hspacing]
  rcases hscheme with rfl | bearer
  · rw [nil_append]
    cases value with
    | nil =>
      exact (afterSecret_suffix _).trans ((dropBearer_suffix _).trans (dropWhile_suffix _))
    | cons x value =>
      have x_not := not_isSpacing_of_not_isStop (hvalue x mem_cons_self)
      rw [cons_append, dropWhile_cons_of_neg (by simp [x_not]), ← cons_append,
        dropBearer]
      split
      · next bearer =>
        -- The blank of the scheme ends the value, so the value is in front of it.
        have short : (x :: value).length ≤ 6 := by
          refine Nat.le_of_not_lt fun long => ?_
          have blank := getElem?_of_isBearer bearer 6
          rw [getElem?_take_of_lt (by decide), getElem?_append_left (by omega),
            getElem?_eq_getElem (by omega), Option.map_some] at blank
          have stops := hvalue _ (getElem_mem (by omega : 6 < (x :: value).length))
          have lower_blank : ((char (x :: value)[6]).toLower).toNat = 32 :=
            congrArg Char.toNat (Option.some.inj blank)
          rw [toNat_toLower] at lower_blank
          rw [← Bool.not_eq_true, isStop_iff, isWhitespace_iff] at stops
          split at lower_blank <;> omega
        rw [drop_append, drop_eq_nil_of_le (by omega), nil_append]
        exact (afterSecret_suffix _).trans (drop_suffix _ _)
      · exact skip
  · have length := length_of_isBearer bearer
    have head : (scheme ++ (value ++ rest)).dropWhile (fun x => isSpacing (char x)) =
        scheme ++ (value ++ rest) := by
      have first := getElem?_of_isBearer bearer 0
      cases scheme with
      | nil => cases length
      | cons y scheme =>
        have lower_b : ((char y).toLower).toNat = 98 :=
          congrArg Char.toNat (Option.some.inj first)
        have y_not : isSpacing (char y) = false := by
          rw [toNat_toLower] at lower_b
          rw [← Bool.not_eq_true, isSpacing_iff]
          split at lower_b <;> omega
        rw [cons_append, dropWhile_cons_of_neg (by simp [y_not])]
    rw [head, dropBearer, take_append_of_le_length (by omega), take_of_length_le (by omega),
      if_pos bearer, drop_append, drop_eq_nil_of_le (by omega), length]
    exact skip


theorem marker_head : ∀ marker ∈ markers, ∀ c ∈ marker.head?, c ≠ 'b' := by
  decide

theorem le_length_of_isBearer {front back : List α} {first : α}
    (bearer : isBearer (chars ((front ++ first :: back).take 7)) = true)
    (not_b : (char first).toLower ≠ 'b')
    (boundary : ∀ x ∈ front.getLast?, isWord (char x) = false) : 7 ≤ front.length := by
  have letters : ∀ index < 6, ∀ c ∈ "bearer ".toList[index]?, isWord c = true := by decide
  have read := getElem?_of_isBearer bearer
  refine Nat.le_of_not_lt fun short => ?_
  rcases front.eq_nil_or_concat with rfl | ⟨front, last, rfl⟩
  · exact not_b (Option.some.inj (read 0))
  · have length : (front.concat last).length = front.length + 1 := length_concat
    have lower_last := read front.length
    rw [getElem?_take_of_lt (by omega), getElem?_append_left (by omega),
      concat_eq_append, getElem?_append_right le_rfl, Nat.sub_self] at lower_last
    have word := letters front.length (by omega) _ lower_last.symm
    rw [isWord_toLower, boundary last (by simp)] at word
    cases word

/-- What is skipped behind a separator ends before the next sensitive word, or in a value that the
word belongs to. -/
theorem behindValue_word {before : List α} (back : List α) (listed : lower word ∈ markers)
    (boundary : ∀ x ∈ before.getLast?, isWord (char x) = false) :
    ∃ spacing scheme value, before = spacing ++ (scheme ++ value) ∧
      (∀ x ∈ spacing, isSpacing (char x) = true) ∧
      (scheme = [] ∨ isBearer (chars scheme) = true) ∧
      spacingOf (before ++ (word ++ back)) = spacing ∧
      behindValue (before ++ (word ++ back)) = afterSecret (value ++ (word ++ back)) := by
  obtain ⟨first, word', word_eq⟩ : ∃ first word', word = first :: word' := by
    cases word with
    | nil => exact absurd rfl (marker_ne_nil _ listed)
    | cons first word' => exact ⟨first, word', rfl⟩
  have first_word : isWord (char first) = true :=
    isWord_of_lower_mem listed first (word_eq ▸ mem_cons_self)
  have first_not := not_isSpacing_of_not_isStop (not_isStop_of_isWord first_word)
  have stay : (word ++ back).dropWhile (fun x => isSpacing (char x)) = word ++ back := by
    rw [word_eq, cons_append, dropWhile_cons_of_neg (by simp [first_not])]
  have none : (word ++ back).takeWhile (fun x => isSpacing (char x)) = [] := by
    rw [word_eq, cons_append, takeWhile_cons_of_neg (by simp [first_not])]
  set spacing := before.takeWhile fun x => isSpacing (char x) with spacing_eq
  set later := before.dropWhile fun x => isSpacing (char x) with later_eq
  have split : before = spacing ++ later := (takeWhile_append_dropWhile).symm
  have hspacing : ∀ x ∈ spacing, isSpacing (char x) = true := fun x member =>
    mem_takeWhile_imp (p := fun x => isSpacing (char x)) member
  have dropped : (before ++ (word ++ back)).dropWhile (fun x => isSpacing (char x)) =
      later ++ (word ++ back) := by
    rw [dropWhile_append, stay]
    split
    · next empty => rw [later_eq, isEmpty_iff.mp empty, nil_append]
    · rfl
  have taken : spacingOf (before ++ (word ++ back)) = spacing := by
    rw [spacingOf, takeWhile_append, none, append_nil]
    split
    · next all => exact ((List.takeWhile_prefix _).eq_of_length all).symm
    · rfl
  by_cases bearer : isBearer (chars ((later ++ (word ++ back)).take 7)) = true
  · -- A sensitive word neither starts like the scheme nor stands in it.
    have long : 7 ≤ later.length := by
      rw [word_eq, cons_append] at bearer
      refine le_length_of_isBearer bearer (fun lower_b => ?_) fun x last => ?_
      · exact marker_head _ listed ((char first).toLower) (by rw [word_eq]; rfl) lower_b
      · exact boundary x (by rw [split, getLast?_append, Option.mem_def.mp last]; rfl)
    refine ⟨spacing, later.take 7, later.drop 7, ?_, hspacing, .inr ?_, taken, ?_⟩
    · rw [take_append_drop, ← split]
    · rwa [take_append_of_le_length long] at bearer
    · rw [behindValue, dropped, dropBearer, if_pos bearer, drop_append_of_le_length long]
  · refine ⟨spacing, [], later, split, hspacing, .inl rfl, taken, ?_⟩
    rw [behindValue, dropped, dropBearer, if_neg bearer]

theorem not_isBoundary_of_occurs {text : List Char}
    (listed : marker ∈ markers) (occurs : Occurs marker text start) (le : start ≤ index)
    (lt : index < start + marker.length) : isBoundary text[index]? = false := by
  obtain ⟨back, drop_eq⟩ := occurs
  obtain ⟨offset, rfl⟩ := Nat.exists_eq_add_of_le le
  have inside : offset < marker.length := by omega
  have read : text[start + offset]? = some marker[offset] := by
    rw [← getElem?_drop, ← drop_eq, getElem?_append_left inside,
      getElem?_eq_getElem inside]
  rw [read, isBoundary, Option.any_some, marker_isWord _ listed _ (getElem_mem inside)]
  rfl

theorem end_of_wholeWord {text other : List Char} (listed : marker ∈ markers)
    (occurs : Occurs marker text start)
    (whole : wholeWord previous text start marker = true) (listed' : other ∈ markers)
    (occurs' : Occurs other text index) (whole' : wholeWord previous text index other = true)
    (le : start ≤ index) :
    start + marker.length ≤ index ∨ start + marker.length = index + other.length := by
  rw [wholeWord, Bool.and_eq_true] at whole whole'
  rcases Nat.lt_or_eq_of_le le with lt | rfl
  · refine .inl (Nat.le_of_not_lt fun overlap => ?_)
    obtain ⟨index, rfl⟩ := Nat.exists_eq_add_of_le' (Nat.lt_of_le_of_lt (Nat.zero_le _) lt)
    have inside : isBoundary text[index]? = false :=
      not_isBoundary_of_occurs listed occurs (by omega) (by omega)
    rw [show charBefore previous text (index + 1) = text[index]? from rfl, inside] at whole'
    cases whole'.1
  · refine .inr ?_
    rcases Nat.lt_trichotomy marker.length other.length with shorter | same | longer
    · rw [not_isBoundary_of_occurs listed' occurs' (by omega) (by omega)] at whole
      cases whole.2
    · rw [same]
    · rw [not_isBoundary_of_occurs listed occurs (by omega) (by omega)] at whole'
      cases whole'.2

section Hides

variable {before gap : List α} {separator : α} {spacing value rest text : List α}

/-- The word of the parts is a whole word of the text. -/
theorem ValueParts.occurs (parts : ValueParts word gap separator spacing scheme value)
    (text_eq : text = before ++ (word ++ (gap ++ separator ::
      (spacing ++ (scheme ++ (value ++ rest))))))
    (boundary : isBoundary (charBefore previous (lower text) before.length) = true) :
    Occurs (lower word) (lower text) before.length ∧
      wholeWord previous (lower text) before.length (lower word) = true := by
  constructor
  · have at_end : Occurs (lower word) (lower before ++ lower (word ++ (gap ++ separator ::
        (spacing ++ (scheme ++ (value ++ rest)))))) ((lower before).length + 0) := by
      rw [occurs_append_iff, lower_append]
      exact prefix_append _ _
    rwa [length_lower, Nat.add_zero, ← lower_append, ← text_eq] at at_end
  · rw [wholeWord, boundary, Bool.true_and, text_eq, lower_append,
      getElem?_append_right (by simp), length_lower, length_lower, Nat.add_sub_cancel_left,
      lower_append, getElem?_append_right (by simp), length_lower, Nat.sub_self]
    cases gap with
    | nil =>
      rw [nil_append, lower_cons, getElem?_cons_zero, isBoundary, Option.any_some,
        isWord_toLower, not_isWord_of_isSeparator parts.separator]
      rfl
    | cons x gap =>
      rw [cons_append, lower_cons, getElem?_cons_zero, isBoundary, Option.any_some,
        isWord_toLower, not_isWord_of_isSpacing (parts.gap x mem_cons_self)]
      rfl

variable {front back : List α} {x : α}

/-- The first separator behind a word that ends before the parts, or is their word, is the separator
of the parts or stands before them. -/
theorem ValueParts.first_separator (parts : ValueParts word gap separator spacing scheme value)
    (text_eq : text = before ++ (word ++ (gap ++ separator ::
      (spacing ++ (scheme ++ (value ++ rest))))))
    {index : Nat} (ends : index ≤ before.length ∨ index = before.length + word.length)
    {tail : List α} {first : α} (drop_eq : text.drop index = front ++ first :: tail)
    (front_clear : ∀ x ∈ front, isSeparator (char x) = false)
    (first_separator : isSeparator (char first) = true) :
    (text.take index ++ (front ++ [first]) = before ++ (word ++ (gap ++ [separator])) ∧
      tail = spacing ++ (scheme ++ (value ++ rest))) ∨
    ∃ later, before = text.take index ++ (front ++ first :: later) ∧
      tail = later ++ (word ++ (gap ++ separator :: (spacing ++ (scheme ++ (value ++ rest))))) := by
  have gap_clear : ∀ y ∈ gap, isSeparator (char y) = false :=
    fun y inside => not_isSeparator_of_isSpacing (parts.gap y inside)
  have word_clear : ∀ y ∈ word, isSeparator (char y) = false :=
    fun y inside => not_isSeparator_of_isWord (isWord_of_lower_mem parts.word y inside)
  have clear : ∀ y ∈ word ++ gap, isSeparator (char y) = false := by
    intro y inside
    rcases mem_append.mp inside with inside | inside
    · exact word_clear y inside
    · exact gap_clear y inside
  have whole : text = text.take index ++ (front ++ first :: tail) := by
    rw [← drop_eq, take_append_drop]
  -- The separator of the parts is the first one wherever none stands before the word.
  have same : tail = spacing ++ (scheme ++ (value ++ rest)) → first = separator →
      text.take index ++ (front ++ [first]) = before ++ (word ++ (gap ++ [separator])) := by
    rintro tail_eq -
    have twice := whole.symm.trans text_eq
    rw [tail_eq] at twice
    have cut : (text.take index ++ (front ++ [first])) ++ (spacing ++ (scheme ++ (value ++ rest))) =
        (before ++ (word ++ (gap ++ [separator]))) ++ (spacing ++ (scheme ++ (value ++ rest))) := by
      simpa using twice
    exact append_cancel_right cut
  rcases ends with le | rfl
  · have drop_before : text.drop index = before.drop index ++ (word ++ (gap ++ separator ::
        (spacing ++ (scheme ++ (value ++ rest))))) := by
      rw [text_eq, drop_append_of_le_length le]
    have take_before : text.take index = before.take index := by
      rw [text_eq, take_append_of_le_length le]
    rcases append_eq_append_iff.mp (drop_eq.symm.trans drop_before) with
      ⟨later, before_eq, tail_eq⟩ | ⟨later, front_eq, tail_eq⟩
    · cases later with
      | nil =>
        rw [nil_append, ← nil_append (first :: tail), ← append_assoc word] at tail_eq
        obtain ⟨empty, -⟩ := append_cons_inj_of_first tail_eq nofun first_separator clear
          parts.separator
        exact absurd (append_eq_nil_iff.mp empty.symm).1
          fun empty => marker_ne_nil _ parts.word (by rw [empty]; rfl)
      | cons y later =>
        obtain ⟨rfl, later_eq⟩ := cons.inj tail_eq
        refine .inr ⟨later, ?_, later_eq⟩
        rw [take_before, ← before_eq, take_append_drop]
    · have later_clear : ∀ y ∈ later, isSeparator (char y) = false := fun y inside =>
        front_clear y (front_eq ▸ mem_append_right _ inside)
      rw [← append_assoc] at tail_eq
      obtain ⟨-, first_eq, rest_eq⟩ := append_cons_inj_of_first tail_eq clear parts.separator
        later_clear first_separator
      exact .inl ⟨same rest_eq.symm first_eq.symm, rest_eq.symm⟩
  · have drop_word : text.drop (before.length + word.length) = gap ++ separator ::
        (spacing ++ (scheme ++ (value ++ rest))) := by
      rw [text_eq, drop_length_add_append, drop_left]
    obtain ⟨-, first_eq, rest_eq⟩ := append_cons_inj_of_first (drop_eq.symm.trans drop_word)
      front_clear first_separator gap_clear parts.separator
    exact .inl ⟨same rest_eq first_eq, rest_eq⟩

/-- A text ends in a value if what follows its first part does. -/
theorem EndsInValue.append
    (h : EndsInValue (charBefore previous (lower (front ++ back)) front.length) back) :
    EndsInValue previous (front ++ back) := by
  obtain ⟨first, word, gap, separator, spacing, scheme, value, text_eq, listed, whole, rest⟩ := h
  refine ⟨front ++ first, word, gap, separator, spacing, scheme, value,
    by rw [append_assoc, ← text_eq], listed, ?_, rest⟩
  have moved := wholeWord_append previous (lower front) (lower back) first.length (lower word)
  rw [length_lower, ← lower_append, whole] at moved
  rw [length_append, moved]

theorem endsInValue_of_occurs {marker : List Char} {start : Nat} (listed : marker ∈ markers)
    (occurs : Occurs marker (lower text) start)
    (whole : wholeWord previous (lower text) start marker = true) (text_eq : text = before ++ back)
    (before_eq : before = text.take (start + marker.length) ++
      (gap ++ separator :: (spacing ++ (scheme ++ value))))
    (hgap : ∀ x ∈ gap, isSeparator (char x) = false)
    (hseparator : isSeparator (char separator) = true)
    (hspacing : ∀ x ∈ spacing, isSpacing (char x) = true)
    (hscheme : scheme = [] ∨ isBearer (chars scheme) = true)
    (hvalue : ∀ x ∈ value, isStop (char x) = false) : EndsInValue previous before := by
  have le := occurs.length_le (marker_ne_nil _ listed)
  rw [length_lower] at le
  have lower_eq : lower ((text.drop start).take marker.length) = marker := by
    rw [lower, chars, map_take, map_take, map_drop, map_drop]
    exact (prefix_iff_eq_take.mp occurs).symm
  refine ⟨text.take start, (text.drop start).take marker.length, gap, separator, spacing, scheme,
    value, ?_, by rwa [lower_eq], ?_, hgap, hseparator, hspacing, hscheme, hvalue⟩
  · rw [before_eq, take_add, append_assoc]
  · have short : start + marker.length < before.length := by
      rw [before_eq, length_append, length_take_of_le le, length_append,
        length_cons]
      omega
    rw [length_take_of_le (by omega), lower_eq]
    rw [text_eq, lower_append, wholeWord, charBefore_append_left _ _ _ (by simp; omega),
      getElem?_append_left (by simpa using short)] at whole
    exact whole

theorem ValueParts.mem_behind (parts : ValueParts word gap separator spacing scheme value)
    (previous : Option Char) (member : x ∈ spacingOf (spacing ++ (scheme ++ (value ++ rest))) ∨
      x ∈ redactMarkers previous (behindValue (spacing ++ (scheme ++ (value ++ rest))))) :
    x ∈ spacing ++ scheme ∨ x ∈ rest ∨ x ∈ literal (α := α) "[redacted]" := by
  rcases member with inside | later
  · have spaced := mem_takeWhile_imp (p := fun y => isSpacing (char y)) inside
    have inside := takeWhile_subset _ inside
    simp only [mem_append] at inside ⊢
    rcases inside with inside | inside | inside | inside
    · exact .inl (.inl inside)
    · exact .inl (.inr inside)
    · have stops := isStop_of_isSpacing spaced
      rw [parts.value x inside] at stops
      cases stops
    · exact .inr (.inl inside)
  · rcases mem_redactMarkers later with inside | mark
    · have behind := behindValue_append rest parts.spacing parts.scheme parts.value
      exact .inr (.inl (behind.subset inside))
    · exact .inr (.inr mark)

/-- The end of a value that the word of the parts belongs to, with a value right behind the
separator. -/
theorem ValueParts.afterSecret_suffix (parts : ValueParts word [] separator [] [] value)
    (hfront : ∀ x ∈ front, isStop (char x) = false) :
    afterSecret (front ++ (word ++ separator :: (value ++ rest))) <:+ rest := by
  have run : ∀ x ∈ front ++ (word ++ separator :: value), (!isStop (char x)) = true := by
    intro x member
    rw [Bool.not_eq_true']
    simp only [mem_append, mem_cons] at member
    rcases member with inside | inside | rfl | inside
    · exact hfront x inside
    · exact not_isStop_of_isWord (isWord_of_lower_mem parts.word x inside)
    · exact not_isStop_of_isSeparator parts.separator
    · exact parts.value x inside
  have assoc : front ++ (word ++ separator :: (value ++ rest)) =
      (front ++ (word ++ separator :: value)) ++ rest := by
    simp
  rw [afterSecret, assoc, dropWhile_append_of_pos run]
  exact dropWhile_suffix _

/-- What one round does to a text with a sensitive word that it comes to: the value is gone, or the
round ends at a stop before the word. -/
theorem ValueParts.round (parts : ValueParts word gap separator spacing scheme value)
    (text_eq : text = before ++ (word ++ (gap ++ separator ::
      (spacing ++ (scheme ++ (value ++ rest))))))
    (comes : Comes wholeWord markers previous (lower text) before.length)
    (free : EndsInValue previous before → gap = [] ∧ spacing = [] ∧ scheme = []) :
    (∀ x ∈ redactMarkers previous text,
      x ∈ before ++ (word ++ (gap ++ separator :: (spacing ++ scheme))) ∨ x ∈ rest ∨
        x ∈ literal (α := α) "[redacted]") ∨
    ∃ cut stop later, before = cut ++ stop :: later ∧ cut ≠ [] ∧
      isStop (char stop) = true ∧
      ∀ x ∈ redactMarkers previous text, x ∈ before ∨ x ∈ literal (α := α) "[redacted]" ∨
        x ∈ redactMarkers (charBefore previous (lower text) cut.length)
          (stop :: later ++ (word ++ (gap ++ separator ::
            (spacing ++ (scheme ++ (value ++ rest)))))) := by
  obtain ⟨occurs, whole⟩ := parts.occurs text_eq comes.boundary
  obtain ⟨start, marker, found, start_le⟩ :=
    comes.covered.exists_nextMatch marker_ne_nil parts.word occurs whole le_rfl
  obtain ⟨listed', occurs', whole'⟩ := of_nextMatch_eq_some found
  have ends := end_of_wholeWord listed' occurs' whole' parts.word occurs whole start_le
  rw [length_lower] at ends
  rcases redactMarkers_cases previous text with
    ⟨-, none⟩ | ⟨start', marker', front, first, tail, found', drop_eq, clear, separates, out_eq⟩
  · have inside : separator ∈ text.drop (start + marker.length) := by
      rw [text_eq, ← append_assoc, ← append_assoc,
        drop_append_of_le_length (by simp only [length_append]; omega)]
      simp
    have separates := parts.separator
    rw [none start marker found separator inside] at separates
    cases separates
  rw [found] at found'
  cases found'
  have out : ∀ x ∈ redactMarkers previous text,
      x ∈ text.take (start + marker.length) ++ (front ++ [first]) ∨
        x ∈ spacingOf tail ∨ x ∈ literal (α := α) "[redacted]" ∨
        x ∈ redactMarkers (charBefore previous (lower text)
          (text.length - (behindValue tail).length)) (behindValue tail) := by
    intro x member
    rw [out_eq] at member
    simpa [or_assoc] using member
  rcases parts.first_separator text_eq ends drop_eq clear separates with
    ⟨kept, rfl⟩ | ⟨later, before_eq, tail_eq⟩
  · refine .inl fun x member => ?_
    have front_mem : x ∈ text.take (start + marker.length) ++ (front ++ [first]) ∨
        x ∈ spacing ++ scheme → x ∈ before ++ (word ++ (gap ++ separator :: (spacing ++ scheme))) := by
      rw [kept]
      simp only [mem_append, mem_cons, not_mem_nil, or_false]
      grind
    rcases out x member with inside | inside | mark | inside
    · exact .inl (front_mem (.inl inside))
    · exact (parts.mem_behind previous (.inl inside)).imp (front_mem ∘ .inr) id
    · exact .inr (.inr mark)
    · exact (parts.mem_behind _ (.inr inside)).imp (front_mem ∘ .inr) id
  · have later_boundary : ∀ y ∈ later.getLast?, isWord (char y) = false := by
      intro y last
      have last' : y ∈ before.getLast? := by
        rw [before_eq]
        simp [getLast?_append, getLast?_cons, Option.mem_def.mp last]
      have boundary := comes.boundary
      rw [text_eq, charBefore_length _ last', isBoundary, Option.any_some, isWord_toLower,
        Bool.not_eq_true'] at boundary
      exact boundary
    obtain ⟨spacing', scheme', value', later_eq, hspacing, hscheme, spacingOf_eq, behind_eq⟩ :=
      behindValue_word (gap ++ separator :: (spacing ++ (scheme ++ (value ++ rest))))
        parts.word later_boundary
    rw [← tail_eq] at spacingOf_eq behind_eq
    rw [later_eq] at before_eq
    rw [spacingOf_eq] at out
    have front_mem : ∀ x, x ∈ text.take (start + marker.length) ++ (front ++ [first]) ∨
        x ∈ spacing' → x ∈ before := by
      intro x
      rw [before_eq]
      simp only [mem_append, mem_cons, not_mem_nil, or_false]
      grind
    cases rest_eq : value'.dropWhile fun y => !isStop (char y) with
    | nil =>
      -- The word is in the value of an earlier one, and so is its own value.
      have hvalue : ∀ y ∈ value', isStop (char y) = false := by
        simpa using dropWhile_eq_nil_iff.mp rest_eq
      obtain ⟨rfl, rfl, rfl⟩ := free (endsInValue_of_occurs listed' occurs' whole' text_eq
        before_eq clear separates hspacing hscheme hvalue)
      have behind : behindValue tail <:+ rest := by
        rw [behind_eq]
        exact parts.afterSecret_suffix hvalue
      refine .inl fun x member => ?_
      rcases out x member with inside | inside | mark | inside
      · exact .inl (mem_append_left _ (front_mem x (.inl inside)))
      · exact .inl (mem_append_left _ (front_mem x (.inr inside)))
      · exact .inr (.inr mark)
      · rcases mem_redactMarkers inside with inside | mark
        · exact .inr (.inl (behind.subset inside))
        · exact .inr (.inr mark)
    | cons stop later' =>
      set cut := text.take (start + marker.length) ++ (front ++ first :: (spacing' ++ (scheme' ++
        value'.takeWhile fun y => !isStop (char y)))) with cut_eq
      have before_cut : before = cut ++ stop :: later' := by
        rw [before_eq, cut_eq, ← rest_eq]
        simp only [append_assoc, cons_append, takeWhile_append_dropWhile]
      have behind : behindValue tail = stop :: later' ++ (word ++ (gap ++ separator ::
          (spacing ++ (scheme ++ (value ++ rest))))) := by
        rw [behind_eq, afterSecret, dropWhile_append, rest_eq]
        rfl
      have length : text.length - (behindValue tail).length = cut.length := by
        rw [text_eq, before_cut, behind]
        simp only [length_append, length_cons]
        omega
      have stops : isStop (char stop) = true := by
        have head := head?_dropWhile_not (fun y => !isStop (char y)) value'
        rw [rest_eq] at head
        simpa using head
      refine .inr ⟨cut, stop, later', before_cut, by simp [cut_eq], stops, fun x member => ?_⟩
      rw [← behind, ← length]
      rcases out x member with inside | inside | mark | inside
      · exact .inl (front_mem x (.inl inside))
      · exact .inl (front_mem x (.inr inside))
      · exact .inr (.inl mark)
      · exact .inr (.inr inside)

/-- The value of a sensitive word that the scan comes to is not in its result. -/
theorem redactMarkers_hides (parts : ValueParts word gap separator spacing scheme value)
    (text_eq : text = before ++ (word ++ (gap ++ separator ::
      (spacing ++ (scheme ++ (value ++ rest))))))
    (comes : Comes wholeWord markers previous (lower text) before.length)
    (free : EndsInValue previous before → gap = [] ∧ spacing = [] ∧ scheme = [])
    (member : x ∈ redactMarkers previous text) :
    x ∈ before ++ (word ++ (gap ++ separator :: (spacing ++ scheme))) ∨ x ∈ rest ∨
      x ∈ literal (α := α) "[redacted]" := by
  induction h : before.length using Nat.strong_induction_on generalizing previous before text with
  | _ n ih =>
    rcases parts.round text_eq comes free with
      gone | ⟨cut, stop, later, before_eq, cut_ne, stops, out⟩
    · exact gone x member
    have text_cut : text = cut ++ (stop :: later ++ (word ++ (gap ++ separator ::
        (spacing ++ (scheme ++ (value ++ rest)))))) := by
      rw [text_eq, before_eq, append_assoc]
    have length : before.length = cut.length + (stop :: later).length := by
      rw [before_eq, length_append]
    rcases out x member with inside | mark | inside
    · exact .inl (mem_append_left _ inside)
    · exact .inr (.inr mark)
    have shorter : (stop :: later).length < n := by
      have := length_pos_iff.mpr cut_ne
      omega
    have later_mem := ih _ shorter rfl ?_ ?_ inside rfl
    · rcases later_mem with inside | inside
      · refine .inl ?_
        rw [before_eq, append_assoc]
        exact mem_append_right _ inside
      · exact .inr inside
    · rw [text_cut, lower_append, length, ← length_lower cut] at comes
      refine comes.cut (fun _ _ => wholeWord_behind _) ?_ marker_clean (by simp)
      rintro c ⟨⟩
      rw [isStop_toLower, stops]
    · intro ended
      refine free ?_
      rw [before_eq]
      refine EndsInValue.append ?_
      rw [text_cut, ← append_assoc, lower_append (cut ++ _),
        charBefore_append_left _ _ _ (by simp)] at ended
      exact ended

end Hides

end TeaRs.ProviderHttp
