import TeaRs.ProviderHttp.SecretPrefixes

/-!
# Secrets in provider error lines

A value after a sensitive word, or a token with a secret prefix, is withheld when no character of
the line comes from it. It is withheld for each error body in which the scan comes to it. An
occurrence of the same word, or of the same prefix, inside a larger word can keep the scan from it.

## Main definitions

* `SensitiveValue`, `SecretToken`: the secrets of a reason.
* `SensitiveValue.Reached`, `SecretToken.Reached`: the scan comes to the secret.
* `Withheld`: a place of the reason from which no character of the line comes.

## Main results

* `normalizeProviderError_redacts`: a secret that the scan comes to is withheld.
* `normalizeProviderError_leaks`: secrets that the scan does not come to.
-/

namespace TeaRs.ProviderHttp

open Scan Symbol EscapeState

variable {α : Type} [Symbol α]

/-! ### The text without control sequences -/

@[simp]
theorem sanitizeFrom_append (state : EscapeState) (front back : List α) :
    sanitizeFrom state (front ++ back) =
      sanitizeFrom state front ++ sanitizeFrom (state.after (chars front)) back := by
  induction front generalizing state with
  | nil => rfl
  | cons x front ih =>
    rw [List.cons_append, sanitizeFrom, sanitizeFrom, ih, List.append_assoc]
    rfl

variable {state : EscapeState} {x : α} {c : Char}

theorem mem_sanitizeFrom {text : List α} (member : x ∈ sanitizeFrom state text) :
    x ∈ text ∨ x = lit ' ' ∧ ∃ y ∈ text, isStop (char y) = true := by
  induction text generalizing state with
  | nil => cases member
  | cons y text ih =>
    rw [sanitizeFrom, List.mem_append] at member
    rcases member with first | later
    · simp only [write] at first
      split at first
      · cases first
      · split at first
        · split at first
          · next space =>
            refine .inr ⟨List.mem_singleton.mp first, y, List.mem_cons_self, ?_⟩
            rw [isStop_iff, isWhitespace_iff]
            simp only [Bool.or_eq_true, decide_eq_true_eq] at space
            rcases space with (h | h) | h <;> simp [h]
          · cases first
        · exact .inl (List.mem_singleton.mp first ▸ List.mem_cons_self)
    · rcases ih later with inside | ⟨blank, z, inside, stops⟩
      · exact .inl (List.mem_cons_of_mem _ inside)
      · exact .inr ⟨blank, z, List.mem_cons_of_mem _ inside, stops⟩

theorem sanitizeFrom_cons_plain (text : List α) (plain : isControl (char x) = false) :
    sanitizeFrom .outside (x :: text) = x :: sanitizeFrom .outside text ∧
      outside.next (char x) = .outside := by
  have not_escape : (char x).toNat ≠ 0x1b := by
    intro escape
    rw [isControl, escape] at plain
    cases plain
  have next : outside.next (char x) = .outside := by
    simp [next, outside, not_escape]
  refine ⟨?_, next⟩
  rw [sanitizeFrom, next]
  simp [write, outside, not_escape, plain]

theorem sanitizeFrom_plain {text : List α} (plain : ∀ x ∈ text, isControl (char x) = false) :
    sanitizeFrom .outside text = text ∧ outside.after (chars text) = .outside := by
  induction text with
  | nil => exact ⟨rfl, rfl⟩
  | cons x text ih =>
    obtain ⟨cons_eq, next⟩ := sanitizeFrom_cons_plain text (plain x List.mem_cons_self)
    obtain ⟨text_eq, after⟩ := ih fun y member => plain y (List.mem_cons_of_mem _ member)
    rw [chars_cons, EscapeState.after, List.foldl_cons, next]
    exact ⟨by rw [cons_eq, text_eq], after⟩

theorem sanitizeFrom_spacing {text : List α}
    (spacing : ∀ x ∈ text, isSpacing (char x) = true) :
    (∀ x ∈ sanitizeFrom .outside text, isSpacing (char x) = true) ∧
      outside.after (chars text) = .outside := by
  constructor
  · intro x member
    rcases mem_sanitizeFrom member with inside | ⟨rfl, -⟩
    · exact spacing x inside
    · rw [char_lit]
      decide
  · induction text with
    | nil => rfl
    | cons x text ih =>
      have space := spacing x List.mem_cons_self
      rw [isSpacing_iff] at space
      have next : outside.next (char x) = .outside := by
        have not_escape : (char x).toNat ≠ 0x1b := by omega
        simp [next, outside, not_escape]
      rw [chars_cons, after, List.foldl_cons, next]
      exact ih fun y member => spacing y (List.mem_cons_of_mem _ member)

theorem not_isControl_of_isWord (h : isWord c = true) : isControl c = false := by
  rw [isWord_iff] at h
  rw [← Bool.not_eq_true, isControl]
  simp only [Bool.or_eq_true, Bool.and_eq_true, decide_eq_true_eq]
  omega

theorem not_isControl_of_isSeparator (h : isSeparator c = true) : isControl c = false := by
  rw [isSeparator_iff] at h
  rw [← Bool.not_eq_true, isControl]
  simp only [Bool.or_eq_true, Bool.and_eq_true, decide_eq_true_eq]
  omega

theorem not_isControl_of_isBearer {scheme : List α} (bearer : isBearer (chars scheme) = true) :
    ∀ x ∈ scheme, isControl (char x) = false := by
  intro x member
  have listed : (char x).toLower ∈ "bearer ".toList := by
    rw [← beq_iff_eq.mp bearer]
    exact List.mem_map_of_mem (List.mem_map_of_mem member)
  have range : ∀ c ∈ "bearer ".toList, 32 ≤ c.toNat ∧ c.toNat ≤ 114 := by decide
  have bounds := range _ listed
  rw [toNat_toLower] at bounds
  rw [← Bool.not_eq_true, isControl]
  simp only [Bool.or_eq_true, Bool.and_eq_true, decide_eq_true_eq]
  split at bounds <;> omega

theorem not_isControl_of_secretPrefix :
    ∀ pattern ∈ secretPrefixes, ∀ c ∈ pattern, isControl c = false := by
  decide

/-! ### The whole line -/

theorem mem_charIndices {text : List α} {start : Nat}
    (member : x ∈ (charIndices text start).map Prod.snd) : x ∈ text := by
  induction text generalizing start with
  | nil => cases member
  | cons y text ih =>
    rw [charIndices, List.map_cons, List.mem_cons] at member
    rcases member with rfl | later
    · exact List.mem_cons_self
    · exact List.mem_cons_of_mem _ (ih later)

theorem exists_lit_of_mem_literal {text : String} (member : x ∈ literal (α := α) text) :
    ∃ c, x = lit c := by
  obtain ⟨c, -, rfl⟩ := List.mem_map.mp member
  exact ⟨c, rfl⟩

theorem mem_normalizeReason {status : Option Nat} {reason : List α}
    (member : x ∈ normalizeReason status reason) :
    x ∈ redactSensitiveText (sanitizeReason reason) ∨ ∃ c, x = lit c := by
  have of_truncate : x ∈ truncateReason (redactSensitiveText (sanitizeReason reason)) →
      x ∈ redactSensitiveText (sanitizeReason reason) ∨ ∃ c, x = lit c := by
    intro inside
    rw [truncateReason] at inside
    split at inside
    · exact .inl inside
    · rcases List.mem_append.mp inside with kept | suffix
      · exact .inl (mem_charIndices ((List.map_subset _ (List.takeWhile_subset _)) kept))
      · exact .inr (exists_lit_of_mem_literal suffix)
  have of_reason : x ∈ (if (truncateReason (redactSensitiveText
      (sanitizeReason reason))).isEmpty then literal "provider returned no error details"
      else truncateReason (redactSensitiveText (sanitizeReason reason))) →
      x ∈ redactSensitiveText (sanitizeReason reason) ∨ ∃ c, x = lit c := by
    intro inside
    split at inside
    · exact .inr (exists_lit_of_mem_literal inside)
    · exact of_truncate inside
  cases status with
  | none => exact of_reason member
  | some status =>
    rcases List.mem_append.mp member with prefix_mem | inside
    · exact .inr (exists_lit_of_mem_literal prefix_mem)
    · exact of_reason inside

theorem mem_or_lit_of_mem_sanitizeFrom {text : List α}
    (member : x ∈ sanitizeFrom state text) : x ∈ text ∨ ∃ c, x = lit c := by
  rcases mem_sanitizeFrom member with inside | ⟨rfl, -⟩
  · exact .inl inside
  · exact .inr ⟨' ', rfl⟩

section Line

variable {before word gap : List α} {separator : α} {spacing scheme value rest : List α}

theorem ValueParts.sanitize (parts : ValueParts word gap separator spacing scheme value)
    (outside : outside.after (chars before) = .outside) (rest : List α) :
    ∃ gap' spacing' value' rest',
      sanitizeReason (before ++ (word ++ (gap ++ separator ::
        (spacing ++ (scheme ++ (value ++ rest)))))) =
        sanitizeReason before ++ (word ++ (gap' ++ separator ::
          (spacing' ++ (scheme ++ (value' ++ rest'))))) ∧
      ValueParts word gap' separator spacing' scheme value' ∧
      (gap = [] → gap' = []) ∧ (spacing = [] → spacing' = []) ∧
      (∀ x ∈ gap', x ∈ gap ∨ ∃ c, x = lit c) ∧
      (∀ x ∈ spacing', x ∈ spacing ∨ ∃ c, x = lit c) ∧
      ∀ x ∈ rest', x ∈ rest ∨ ∃ c, x = lit c := by
  have word_plain : ∀ x ∈ word, isControl (char x) = false := fun x member =>
    not_isControl_of_isWord (isWord_of_lower_mem parts.word x member)
  obtain ⟨word_eq, word_after⟩ := sanitizeFrom_plain word_plain
  obtain ⟨gap_spacing, gap_after⟩ := sanitizeFrom_spacing parts.gap
  obtain ⟨spacing_spacing, spacing_after⟩ := sanitizeFrom_spacing parts.spacing
  have separator_plain := not_isControl_of_isSeparator parts.separator
  obtain ⟨scheme_eq, scheme_after⟩ : sanitizeFrom .outside scheme = scheme ∧
      EscapeState.outside.after (chars scheme) = .outside := by
    rcases parts.scheme with rfl | bearer
    · exact ⟨rfl, rfl⟩
    · exact sanitizeFrom_plain (not_isControl_of_isBearer bearer)
  refine ⟨sanitizeFrom .outside gap, sanitizeFrom .outside spacing, sanitizeFrom .outside value,
    sanitizeFrom (EscapeState.outside.after (chars value)) rest, ?_, ?_, ?_, ?_,
    fun x => mem_or_lit_of_mem_sanitizeFrom, fun x => mem_or_lit_of_mem_sanitizeFrom,
    fun x => mem_or_lit_of_mem_sanitizeFrom⟩
  · rw [sanitizeReason, sanitizeFrom_append, outside, sanitizeFrom_append, word_eq, word_after,
      sanitizeFrom_append, gap_after, (sanitizeFrom_cons_plain _ separator_plain).1,
      sanitizeFrom_append, spacing_after, sanitizeFrom_append, scheme_eq, scheme_after,
      sanitizeFrom_append, sanitizeReason]
  · refine ⟨parts.word, gap_spacing, parts.separator, spacing_spacing, parts.scheme, ?_⟩
    intro x member
    rcases mem_sanitizeFrom member with inside | ⟨-, y, inside, stops⟩
    · exact parts.value x inside
    · rw [parts.value y inside] at stops
      cases stops
  · rintro rfl
    rfl
  · rintro rfl
    rfl

variable {reason : List α}

/-- The value of a sensitive word that the scan comes to is not in the line. -/
theorem normalizeReason_hides_value (status : Option Nat)
    (parts : ValueParts word gap separator spacing scheme value)
    (outside : outside.after (chars before) = .outside)
    (reason_eq : reason = before ++ (word ++ (gap ++ separator ::
        (spacing ++ (scheme ++ (value ++ rest))))))
    (comes : Comes wholeWord markers none (lower (sanitizeReason reason))
      (sanitizeReason before).length)
    (free : EndsInValue none (sanitizeReason before) → gap = [] ∧ spacing = [] ∧ scheme = [])
    (member : x ∈ normalizeReason status reason) :
    x ∈ before ++ (word ++ (gap ++ separator :: (spacing ++ scheme))) ∨ x ∈ rest ∨
      ∃ c, x = lit c := by
  obtain ⟨gap', spacing', value', rest', clean_eq, parts', gap_nil, spacing_nil, gap_mem,
    spacing_mem, rest_mem⟩ := parts.sanitize outside rest
  rw [← reason_eq] at clean_eq
  rcases mem_normalizeReason member with inside | lit
  · rcases mem_redactSecretPrefixes inside with inside | mark
    · rcases redactMarkers_hides parts' clean_eq comes (fun ended =>
        have ⟨h₁, h₂, h₃⟩ := free ended
        ⟨gap_nil h₁, spacing_nil h₂, h₃⟩) inside with front | later | mark
      · simp only [List.mem_append, List.mem_cons] at front ⊢
        rcases front with front | front | front | rfl | front | front
        · rcases mem_or_lit_of_mem_sanitizeFrom front with front | lit
          · exact .inl (.inl front)
          · exact .inr (.inr lit)
        · exact .inl (.inr (.inl front))
        · rcases gap_mem x front with front | lit
          · exact .inl (.inr (.inr (.inl front)))
          · exact .inr (.inr lit)
        · exact .inl (.inr (.inr (.inr (.inl rfl))))
        · rcases spacing_mem x front with front | lit
          · exact .inl (.inr (.inr (.inr (.inr (.inl front)))))
          · exact .inr (.inr lit)
        · exact .inl (.inr (.inr (.inr (.inr (.inr front)))))
      · exact .inr (rest_mem x later)
      · exact .inr (.inr (exists_lit_of_mem_literal mark))
    · exact .inr (.inr (exists_lit_of_mem_literal mark))
  · exact .inr (.inr lit)

/-- A token with a secret prefix that the scan comes to is not in the line. -/
theorem normalizeReason_hides_token (status : Option Nat) {start token : List α}
    (listed : chars start ∈ secretPrefixes) (htoken : ∀ x ∈ token, isStop (char x) = false)
    (outside : EscapeState.outside.after (chars before) = .outside)
    (reason_eq : reason = before ++ (start ++ (token ++ rest)))
    (comes : Comes wordStart secretPrefixes none (chars (sanitizeReason reason))
      (sanitizeReason before).length) (member : x ∈ normalizeReason status reason) :
    x ∈ before ∨ x ∈ rest ∨ ∃ c, x = lit c := by
  have start_plain : ∀ y ∈ start, isControl (char y) = false := fun y inside =>
    not_isControl_of_secretPrefix _ listed _ (List.mem_map_of_mem inside)
  obtain ⟨start_eq, start_after⟩ := sanitizeFrom_plain start_plain
  have clean_eq : sanitizeReason reason = sanitizeReason before ++ (start ++
      (sanitizeFrom .outside token ++
        sanitizeFrom (EscapeState.outside.after (chars token)) rest)) := by
    rw [reason_eq, sanitizeReason, sanitizeFrom_append, outside, sanitizeFrom_append, start_eq,
      start_after, sanitizeFrom_append, sanitizeReason]
  have token_clear : ∀ y ∈ sanitizeFrom .outside token, isStop (char y) = false := by
    intro y inside
    rcases mem_sanitizeFrom inside with inside | ⟨-, z, inside, stops⟩
    · exact htoken y inside
    · rw [htoken z inside] at stops
      cases stops
  -- What is left of the text comes from before the token, from behind it or from the program.
  have sides : x ∈ sanitizeReason before ∨
      x ∈ sanitizeFrom (EscapeState.outside.after (chars token)) rest ∨
        x ∈ literal (α := α) "[redacted]" →
      x ∈ before ∨ x ∈ rest ∨ ∃ c, x = lit c := by
    rintro (inside | inside | mark)
    · exact (mem_or_lit_of_mem_sanitizeFrom inside).imp_right .inr
    · exact .inr (mem_or_lit_of_mem_sanitizeFrom inside)
    · exact .inr (.inr (exists_lit_of_mem_literal mark))
  rcases mem_normalizeReason member with inside | lit
  · rcases (redacted_redactMarkers none _).token clean_eq listed token_clear comes with
      gone | ⟨before', token', rest', out_eq, htoken', comes', before_mem, rest_mem⟩
    · rcases mem_redactSecretPrefixes inside with inside | mark
      · exact sides (gone x inside)
      · exact sides (.inr (.inr mark))
    · rcases redactSecretPrefixes_hides out_eq listed htoken' comes' inside with
        inside | inside | mark
      · exact sides ((before_mem x inside).imp_right .inr)
      · exact sides (.inr (rest_mem x inside))
      · exact sides (.inr (.inr mark))
  · exact .inr (.inr lit)

end Line

/-! ### The secrets of a reason -/

/-- A value in a reason that follows a sensitive word and a separator. -/
structure SensitiveValue (reason : List Char) where
  before : List Char
  word : List Char
  gap : List Char
  separator : Char
  spacing : List Char
  scheme : List Char
  value : List Char
  rest : List Char
  reason_eq : reason =
    before ++ (word ++ (gap ++ separator :: (spacing ++ (scheme ++ (value ++ rest)))))
  parts : ValueParts word gap separator spacing scheme value
  boundary : isBoundary before.getLast? = true

/-- A token in a reason that starts like a known secret. -/
structure SecretToken (reason : List Char) where
  before : List Char
  start : List Char
  token : List Char
  rest : List Char
  reason_eq : reason = before ++ (start ++ (token ++ rest))
  listed : start ∈ secretPrefixes
  clear : ∀ c ∈ token, isStop c = false
  boundary : isBoundary before.getLast? = true

/-- The scan comes to the sensitive word. No control sequence is open where it starts, and it still
starts as a word when the text before it is sanitized. No occurrence of a sensitive word before it
stands alone inside a larger word. And if it belongs to the value of an earlier sensitive word, its
own value follows it without a space. -/
structure SensitiveValue.Reached {reason : List Char} (secret : SensitiveValue reason) : Prop where
  outside : outside.after secret.before = .outside
  boundary : isBoundary (sanitizeReason secret.before).getLast? = true
  covered : Covered (wholeWord none (lower (sanitizeReason reason))) markers isStop
    (lower (sanitizeReason reason)) (sanitizeReason secret.before).length
  free : EndsInValue none (sanitizeReason secret.before) →
    secret.gap = [] ∧ secret.spacing = [] ∧ secret.scheme = []

/-- The scan comes to the secret prefix. No control sequence is open where it starts, and it still
starts as a word when the text before it is sanitized. No occurrence of a secret prefix before it
stands alone inside a word. -/
structure SecretToken.Reached {reason : List Char} (secret : SecretToken reason) : Prop where
  outside : outside.after secret.before = .outside
  boundary : isBoundary (sanitizeReason secret.before).getLast? = true
  covered : Covered (wordStart none (sanitizeReason reason)) secretPrefixes isStop
    (sanitizeReason reason) (sanitizeReason secret.before).length

/-- No character of the line comes from this place of the reason. -/
def Withheld (status : Option Nat) (reason : List Char) (place : Nat) : Prop :=
  ∀ x ∈ normalizeReason status (trace reason), x.origin ≠ some place

/-! ### Places of a reason -/

theorem chars_eq (text : List Char) : chars text = text :=
  List.map_id text

theorem chars_trace (text : List Char) : chars (trace text) = text := by
  rw [chars, trace, List.map_map]
  exact List.zipIdx_map_fst 0 text

theorem origin_of_getElem? {text : List Char} {place : Nat} {x : Traced}
    (read : (trace text)[place]? = some x) : x.origin = some place := by
  rw [trace, List.getElem?_map, List.getElem?_zipIdx, Option.map_map] at read
  obtain ⟨c, -, rfl⟩ := Option.map_eq_some_iff.mp read
  simp

theorem origin_ne {text : List Char} {front part back : List Traced}
    (trace_eq : trace text = front ++ (part ++ back)) {x : Traced} (member : x ∈ front ∨ x ∈ back)
    {offset : Nat} (lt : offset < part.length) : x.origin ≠ some (front.length + offset) := by
  intro origin
  rcases member with member | member
  · obtain ⟨place, place_lt, rfl⟩ := List.mem_iff_getElem.mp member
    have read : (trace text)[place]? = some front[place] := by
      rw [trace_eq, List.getElem?_append_left place_lt, List.getElem?_eq_getElem place_lt]
    have := (origin_of_getElem? read).symm.trans origin
    simp only [Option.some.injEq] at this
    omega
  · obtain ⟨place, place_lt, rfl⟩ := List.mem_iff_getElem.mp member
    have read : (trace text)[front.length + part.length + place]? = some back[place] := by
      rw [trace_eq, ← List.append_assoc, List.getElem?_append_right (by simp),
        List.getElem?_eq_getElem (by simpa using place_lt)]
      simp
    have := (origin_of_getElem? read).symm.trans origin
    simp only [Option.some.injEq] at this
    omega

theorem exists_of_chars_eq_append {text : List α} {front back : List Char}
    (eq : chars text = front ++ back) :
    ∃ front' back', text = front' ++ back' ∧ chars front' = front ∧ chars back' = back := by
  obtain ⟨front', back', rfl, front_eq, back_eq⟩ := List.map_eq_append_iff.mp eq
  exact ⟨front', back', rfl, front_eq, back_eq⟩

theorem ValueParts.of_chars {word gap spacing scheme value : List α} {separator : α}
    (parts : ValueParts (chars word) (chars gap) (char separator) (chars spacing)
      (chars scheme) (chars value)) : ValueParts word gap separator spacing scheme value where
  word := by
    have listed := parts.word
    rwa [lower_chars] at listed
  gap x member := parts.gap _ (List.mem_map_of_mem member)
  separator := parts.separator
  spacing x member := parts.spacing _ (List.mem_map_of_mem member)
  scheme := by
    have listed := parts.scheme
    rw [chars_chars] at listed
    exact listed.imp_left List.map_eq_nil_iff.mp
  value x member := parts.value _ (List.mem_map_of_mem member)

theorem EndsInValue.chars {previous : Option Char} {text : List α} (h : EndsInValue previous text) :
    EndsInValue previous (ProviderHttp.chars text) := by
  obtain ⟨front, word, gap, separator, spacing, scheme, value, text_eq, listed, whole, hgap,
    hseparator, hspacing, hscheme, hvalue⟩ := h
  have kept : ∀ {part : List α} {p : Char → Bool} {b : Bool},
      (∀ x ∈ part, p (char x) = b) → ∀ c ∈ ProviderHttp.chars part, p c = b := by
    intro part p b all c member
    obtain ⟨x, inside, rfl⟩ := List.mem_map.mp member
    exact all x inside
  refine ⟨ProviderHttp.chars front, ProviderHttp.chars word, ProviderHttp.chars gap,
    char separator, ProviderHttp.chars spacing, ProviderHttp.chars scheme,
    ProviderHttp.chars value, ?_, by rwa [lower_chars], ?_, kept hgap, hseparator, kept hspacing,
    ?_, kept hvalue⟩
  · simp only [text_eq, chars_append, chars_cons]
  · rwa [lower_chars, lower_chars, length_chars]
  · rw [chars_chars]
    exact hscheme.imp_left fun empty => by rw [empty]; rfl

theorem charBefore_none_length (front back : List Char) :
    charBefore none (front ++ back) front.length = front.getLast? := by
  rcases front.eq_nil_or_concat with rfl | ⟨front, c, rfl⟩
  · rfl
  · rw [List.concat_eq_append, List.length_append, List.getLast?_concat]
    change (front ++ [c] ++ back)[front.length]? = some c
    rw [List.append_assoc, List.getElem?_append_right le_rfl, Nat.sub_self]
    rfl

theorem isBoundary_map_toLower (c : Option Char) :
    isBoundary (c.map Char.toLower) = isBoundary c := by
  cases c with
  | none => rfl
  | some c => rw [isBoundary, isBoundary, Option.map_some, Option.any_some, Option.any_some,
      isWord_toLower]

theorem chars_sanitizeReason (text : List α) :
    chars (sanitizeReason text) = sanitizeReason (chars text) :=
  chars_sanitizeFrom .outside text

theorem lower_sanitizeReason (text : List α) :
    lower (sanitizeReason text) = lower (sanitizeReason (chars text)) := by
  rw [← chars_sanitizeReason, lower_chars]

theorem length_sanitizeReason (text : List α) :
    (sanitizeReason text).length = (sanitizeReason (chars text)).length := by
  rw [← chars_sanitizeReason, length_chars]

theorem sanitizeReason_append (front back : List α) :
    ∃ later, sanitizeReason (front ++ back) = sanitizeReason front ++ later :=
  ⟨_, sanitizeFrom_append _ front back⟩

variable {reason : List Char}

namespace SensitiveValue

/-- The place of the value in the reason. -/
def place (secret : SensitiveValue reason) : Nat :=
  (secret.before ++ (secret.word ++ (secret.gap ++ secret.separator ::
    (secret.spacing ++ secret.scheme)))).length

/-- A value whose word the scan comes to is withheld. -/
theorem Reached.withheld {secret : SensitiveValue reason} (reached : secret.Reached)
    (status : Option Nat) {offset : Nat} (lt : offset < secret.value.length) :
    Withheld status reason (secret.place + offset) := by
  obtain ⟨before, later, trace_eq, before_eq, later_eq⟩ :=
    exists_of_chars_eq_append ((chars_trace reason).trans secret.reason_eq)
  obtain ⟨word, later, rfl, word_eq, later_eq⟩ := exists_of_chars_eq_append later_eq
  obtain ⟨gap, later, rfl, gap_eq, later_eq⟩ := exists_of_chars_eq_append later_eq
  obtain ⟨separator, later, rfl, separator_eq, later_eq⟩ := List.map_eq_cons_iff.mp later_eq
  obtain ⟨spacing, later, rfl, spacing_eq, later_eq⟩ := exists_of_chars_eq_append later_eq
  obtain ⟨scheme, later, rfl, scheme_eq, later_eq⟩ := exists_of_chars_eq_append later_eq
  obtain ⟨value, rest, rfl, value_eq, rest_eq⟩ := exists_of_chars_eq_append later_eq
  have parts : ValueParts word gap separator spacing scheme value := by
    refine .of_chars ?_
    rw [word_eq, gap_eq, separator_eq, spacing_eq, scheme_eq, value_eq]
    exact secret.parts
  have place_eq : secret.place =
      (before ++ (word ++ (gap ++ separator :: (spacing ++ scheme)))).length := by
    rw [place, ← before_eq, ← word_eq, ← gap_eq, ← spacing_eq, ← scheme_eq]
    simp only [List.length_append, List.length_cons, length_chars]
  have split : trace reason = (before ++ (word ++ (gap ++ separator :: (spacing ++ scheme)))) ++
      (value ++ rest) := by
    rw [trace_eq]
    simp only [List.append_assoc, List.cons_append]
  have comes : Comes wholeWord markers none (lower (sanitizeReason (trace reason)))
      (sanitizeReason before).length := by
    constructor
    · obtain ⟨later, later_eq⟩ := sanitizeReason_append before (word ++ (gap ++ separator ::
        (spacing ++ (scheme ++ (value ++ rest)))))
      rw [trace_eq, later_eq, lower_append, ← length_lower, charBefore_none_length,
        lower_sanitizeReason, before_eq, lower, List.getLast?_map, isBoundary_map_toLower,
        chars_eq]
      exact reached.boundary
    · rw [lower_sanitizeReason, chars_trace, length_sanitizeReason, before_eq]
      exact reached.covered
  have free : EndsInValue none (sanitizeReason before) → gap = [] ∧ spacing = [] ∧ scheme = [] := by
    intro ended
    have ended := ended.chars
    rw [chars_sanitizeReason, before_eq] at ended
    obtain ⟨gap_nil, spacing_nil, scheme_nil⟩ := reached.free ended
    exact ⟨List.map_eq_nil_iff.mp (gap_eq.trans gap_nil),
      List.map_eq_nil_iff.mp (spacing_eq.trans spacing_nil),
      List.map_eq_nil_iff.mp (scheme_eq.trans scheme_nil)⟩
  intro x member
  rw [place_eq]
  rcases normalizeReason_hides_value status parts (by rw [before_eq]; exact reached.outside)
      trace_eq comes free member with front | behind | ⟨c, rfl⟩
  · exact origin_ne split (.inl front) (by rwa [← value_eq, length_chars] at lt)
  · exact origin_ne split (.inr behind) (by rwa [← value_eq, length_chars] at lt)
  · exact Option.some_ne_none _ ∘ Eq.symm

end SensitiveValue

namespace SecretToken

/-- A token whose prefix the scan comes to is withheld. -/
theorem Reached.withheld {secret : SecretToken reason} (reached : secret.Reached)
    (status : Option Nat) {offset : Nat} (lt : offset < (secret.start ++ secret.token).length) :
    Withheld status reason (secret.before.length + offset) := by
  obtain ⟨before, later, trace_eq, before_eq, later_eq⟩ :=
    exists_of_chars_eq_append ((chars_trace reason).trans secret.reason_eq)
  obtain ⟨start, later, rfl, start_eq, later_eq⟩ := exists_of_chars_eq_append later_eq
  obtain ⟨token, rest, rfl, token_eq, rest_eq⟩ := exists_of_chars_eq_append later_eq
  have split : trace reason = before ++ ((start ++ token) ++ rest) := by
    rw [trace_eq, List.append_assoc]
  have lt' : offset < (start ++ token).length := by
    rwa [← start_eq, ← token_eq, ← chars_append, length_chars] at lt
  have clear : ∀ x ∈ token, isStop (char x) = false := fun x member =>
    secret.clear _ (token_eq ▸ List.mem_map_of_mem member)
  have comes : Comes wordStart secretPrefixes none (chars (sanitizeReason (trace reason)))
      (sanitizeReason before).length := by
    constructor
    · obtain ⟨later, later_eq⟩ := sanitizeReason_append before (start ++ (token ++ rest))
      rw [trace_eq, later_eq, chars_append, ← length_chars, charBefore_none_length,
        chars_sanitizeReason, before_eq]
      exact reached.boundary
    · rw [chars_sanitizeReason, chars_trace, length_sanitizeReason, before_eq]
      exact reached.covered
  intro x member
  rw [← before_eq, length_chars]
  rcases normalizeReason_hides_token status (by rw [start_eq]; exact secret.listed) clear
      (by rw [before_eq]; exact reached.outside) trace_eq comes member with
    front | behind | ⟨c, rfl⟩
  · exact origin_ne split (.inl front) lt'
  · exact origin_ne split (.inr behind) lt'
  · exact Option.some_ne_none _ ∘ Eq.symm

end SecretToken

def sampleReason : String := "bad request, token=abc123 near sk-live42"

def sampleValue : SensitiveValue sampleReason.toList where
  before := "bad request, ".toList
  word := "token".toList
  gap := []
  separator := '='
  spacing := []
  scheme := []
  value := "abc123".toList
  rest := " near sk-live42".toList
  reason_eq := by decide +kernel
  parts := ⟨by decide +kernel, nofun, by decide, nofun, .inl rfl, by decide +kernel⟩
  boundary := by decide +kernel

def sampleToken : SecretToken sampleReason.toList where
  before := "bad request, token=abc123 near ".toList
  start := "sk-".toList
  token := "live42".toList
  rest := []
  reason_eq := by decide +kernel
  listed := by decide +kernel
  clear := by decide +kernel
  boundary := by decide +kernel

theorem normalizeReason_eq_self (ne : reason ≠ []) (plain : ∀ c ∈ reason, isControl c = false)
    (no_word : nextMatch (wholeWord none (lower reason)) markers (lower reason) = none)
    (no_token : nextMatch (wordStart none reason) secretPrefixes reason = none)
    (short : byteLength reason ≤ maxProviderErrorReasonBytes) :
    normalizeReason none (trace reason) = trace reason := by
  have lower_eq : lower (trace reason) = lower reason := by
    rw [← lower_chars, chars_trace]
  have clean : sanitizeReason (trace reason) = trace reason :=
    (sanitizeFrom_plain fun x member => plain _
      (by rw [← chars_trace reason]; exact List.mem_map_of_mem member)).1
  have redacted : redactSensitiveText (trace reason) = trace reason := by
    rw [redactSensitiveText, redactMarkers_of_none (by rwa [lower_eq]),
      redactSecretPrefixes_of_none (by rwa [chars_trace])]
  have kept : truncateReason (trace reason) = trace reason := by
    rw [truncateReason, if_pos]
    rwa [byteLength, chars_trace, ← chars_eq reason, ← byteLength]
  have not_empty : (trace reason).isEmpty = false := by
    cases reason with
    | nil => exact absurd rfl ne
    | cons c reason => rfl
  rw [normalizeReason, clean, redacted, kept, not_empty]
  rfl

/-- What is shown as it is withholds nothing. -/
theorem not_withheld {status : Option Nat}
    (shown : normalizeReason status (trace reason) = trace reason) {place : Nat}
    (lt : place < reason.length) : ¬ Withheld status reason place := by
  have length : (trace reason).length = reason.length := by
    rw [← length_chars, chars_trace]
  intro withheld
  rw [Withheld, shown] at withheld
  exact withheld _ (List.getElem_mem (length.symm ▸ lt))
    (origin_of_getElem? (List.getElem?_eq_getElem (length.symm ▸ lt)))

end TeaRs.ProviderHttp
