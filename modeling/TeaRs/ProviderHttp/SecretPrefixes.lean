import TeaRs.ProviderHttp.Markers

/-!
# The scan for secret prefixes

Like the scan for sensitive words, this one gives a prefix up when its first occurrence is part of a
larger word. It works on what the scan for sensitive words leaves, in which a token with a secret
prefix is gone, or is still a token with that prefix.

## Main results

* `redactSecretPrefixes_hides`: a token with a secret prefix that the scan comes to is gone.
* `Redacted.token`: what the scan for sensitive words leaves of a token with a secret prefix.
-/

namespace TeaRs.ProviderHttp

open Scan Symbol List

variable {α : Type} [Symbol α]

/-! ### Tokens with a secret prefix -/

theorem secretPrefix_clean :
    ∀ pattern ∈ secretPrefixes, pattern ≠ [] ∧ ∀ c ∈ pattern, isStop c = false := by
  decide

variable {text before rest : List α} {pattern kept back : List Char}
  {previous earlier : Option Char} {x : α} {limit : Nat}

theorem afterSecret_drop {start : Nat}
    (listed : pattern ∈ secretPrefixes) (occurs : Occurs pattern (chars text) start) :
    afterSecret (text.drop start) = afterSecret (text.drop (start + pattern.length)) := by
  have chars_eq : chars ((text.drop start).take pattern.length) = pattern := by
    rw [chars, map_take, map_drop]
    exact (prefix_iff_eq_take.mp occurs).symm
  have clean : ∀ x ∈ (text.drop start).take pattern.length, (!isStop (char x)) = true := by
    intro x member
    have inside : char x ∈ pattern := chars_eq ▸ mem_map_of_mem member
    rw [(secretPrefix_clean pattern listed).2 _ inside]
    rfl
  rw [← drop_drop]
  conv_lhs => rw [← take_append_drop pattern.length (text.drop start)]
  exact dropWhile_append_of_pos clean

/-- What one round of the scan for secret prefixes does: it stops, or it replaces the token that
starts with the prefix it found. -/
theorem redactSecretPrefixes_cases (previous : Option Char) (text : List α) :
    (redactSecretPrefixes previous text = text ∧
      nextMatch (wordStart previous (chars text)) secretPrefixes (chars text) = none) ∨
    ∃ start pattern,
      nextMatch (wordStart previous (chars text)) secretPrefixes (chars text) =
        some (start, pattern) ∧
      (afterSecret (text.drop start)).length < text.length ∧
      redactSecretPrefixes previous text = text.take start ++ (literal "[redacted]" ++
        redactSecretPrefixes (charBefore previous (chars text)
          (text.length - (afterSecret (text.drop start)).length))
            (afterSecret (text.drop start))) := by
  cases found : nextMatch (wordStart previous (chars text)) secretPrefixes (chars text) with
  | none =>
    exact .inl ⟨redactSecretPrefixes_of_none found, rfl⟩
  | some candidate =>
    obtain ⟨start, pattern⟩ := candidate
    obtain ⟨listed, occurs, -⟩ := of_nextMatch_eq_some found
    refine .inr ⟨start, pattern, rfl, ?_, ?_⟩
    · have le := secretPrefix_le found
      have suffix_le := (afterSecret_suffix (text.drop (start + pattern.length))).length_le
      rw [length_drop] at suffix_le
      rw [afterSecret_drop listed occurs]
      omega
    · rw [redactSecretPrefixes_of_some found, afterSecret_drop listed occurs, append_assoc]

theorem mem_redactSecretPrefixes (member : x ∈ redactSecretPrefixes previous text) :
    x ∈ text ∨ x ∈ literal (α := α) "[redacted]" := by
  induction h : text.length using Nat.strong_induction_on generalizing previous text with
  | _ n ih =>
    rcases redactSecretPrefixes_cases previous text with
      ⟨same, -⟩ | ⟨start, pattern, -, shorter, out_eq⟩
    · exact .inl (same ▸ member)
    · rw [out_eq, mem_append, mem_append] at member
      rcases member with first | mark | later
      · exact .inl (mem_of_mem_take first)
      · exact .inr mark
      · rcases ih _ (h ▸ shorter) later rfl with inside | mark
        · exact .inl (mem_of_mem_drop ((afterSecret_suffix _).subset inside))
        · exact .inr mark

/-- A token with a secret prefix that the scan comes to is not in its result. -/
theorem redactSecretPrefixes_hides {start token : List α}
    (text_eq : text = before ++ (start ++ (token ++ rest))) (listed : chars start ∈ secretPrefixes)
    (htoken : ∀ x ∈ token, isStop (char x) = false)
    (comes : Comes wordStart secretPrefixes previous (chars text) before.length)
    (member : x ∈ redactSecretPrefixes previous text) :
    x ∈ before ∨ x ∈ rest ∨ x ∈ literal (α := α) "[redacted]" := by
  induction h : text.length using Nat.strong_induction_on generalizing previous before text with
  | _ n ih =>
    have occurs : Occurs (chars start) (chars text) before.length := by
      have at_end : Occurs (chars start) (chars before ++ chars (start ++ (token ++ rest)))
          ((chars before).length + 0) := by
        rw [occurs_append_iff, chars_append]
        exact prefix_append _ _
      rwa [length_chars, Nat.add_zero, ← chars_append, ← text_eq] at at_end
    obtain ⟨index, pattern, found, index_le⟩ :=
      comes.covered.exists_nextMatch secretPrefix_ne_nil listed occurs comes.boundary le_rfl
    rcases redactSecretPrefixes_cases previous text with
      ⟨-, none⟩ | ⟨index', pattern', found', shorter, out_eq⟩
    · rw [found] at none
      cases none
    rw [found] at found'
    cases found'
    rw [out_eq, mem_append, mem_append] at member
    have drop_eq : text.drop index = before.drop index ++ (start ++ (token ++ rest)) := by
      rw [text_eq, drop_append_of_le_length index_le]
    rcases member with first | mark | later
    · rw [text_eq, take_append_of_le_length index_le] at first
      exact .inl (mem_of_mem_take first)
    · exact .inr (.inr mark)
    cases rest_eq : (before.drop index).dropWhile fun y => !isStop (char y) with
    | nil =>
      have run : ∀ y ∈ before.drop index ++ (start ++ token), (!isStop (char y)) = true := by
        intro y inside
        rw [mem_append, mem_append] at inside
        rcases inside with inside | inside | inside
        · exact dropWhile_eq_nil_iff.mp rest_eq y inside
        · rw [(secretPrefix_clean _ listed).2 _ (mem_map_of_mem inside)]
          rfl
        · rw [htoken y inside]
          rfl
      have behind : afterSecret (text.drop index) <:+ rest := by
        rw [drop_eq, ← append_assoc start, ← append_assoc, afterSecret,
          dropWhile_append_of_pos run]
        exact dropWhile_suffix _
      rcases mem_redactSecretPrefixes later with inside | mark
      · exact .inr (.inl (behind.subset inside))
      · exact .inr (.inr mark)
    | cons stop later' =>
      set cut := before.take index ++ (before.drop index).takeWhile fun y => !isStop (char y)
        with cut_eq
      have before_eq : before = cut ++ stop :: later' := by
        rw [cut_eq, ← rest_eq, append_assoc, takeWhile_append_dropWhile,
          take_append_drop]
      have behind : afterSecret (text.drop index) = stop :: later' ++ (start ++ (token ++ rest)) := by
        rw [drop_eq, afterSecret, dropWhile_append, rest_eq]
        rfl
      have text_cut : text = cut ++ (stop :: later' ++ (start ++ (token ++ rest))) := by
        rw [text_eq, before_eq, append_assoc]
      have before_length : before.length = cut.length + (stop :: later').length := by
        rw [before_eq, length_append]
      have stops : isStop (char stop) = true := by
        have head := head?_dropWhile_not (fun y => !isStop (char y)) (before.drop index)
        rw [rest_eq] at head
        simpa using head
      have later_mem := ih _ (h ▸ shorter) behind ?_ later rfl
      · rcases later_mem with inside | inside
        · refine .inl ?_
          rw [before_eq]
          exact mem_append_right _ inside
        · exact .inr inside
      · rw [text_cut, chars_append, before_length, ← length_chars cut, ← behind] at comes
        refine comes.cut (fun _ _ => wordStart_behind _) ?_ secretPrefix_clean (by simp)
        rw [behind]
        rintro c ⟨⟩
        exact stops

/-! ### Tokens through the scan for sensitive words -/

theorem suffix_of_run {run front remaining : List α} (eq : run ++ rest = front ++ remaining)
    (hrun : ∀ x ∈ run, isStop (char x) = false)
    (head : ∀ x ∈ remaining.head?, isStop (char x) = true) : remaining <:+ rest := by
  rcases append_eq_append_iff.mp eq with ⟨later, -, rest_eq⟩ | ⟨later, run_eq, rem_eq⟩
  · exact ⟨later, rest_eq.symm⟩
  · cases later with
    | nil => exact rem_eq ▸ suffix_refl rest
    | cons x later =>
      have stops := head x (by rw [rem_eq]; rfl)
      rw [hrun x (by simp [run_eq])] at stops
      cases stops

theorem secretPrefix_head :
    ∀ pattern ∈ secretPrefixes, ∀ c ∈ pattern.head?, c ∉ "[redacted]".toList := by
  decide

theorem secretPrefix_not_isSeparator :
    ∀ pattern ∈ secretPrefixes, ∀ c ∈ pattern, isSeparator c = false := by
  decide

/-- What a round keeps last is in no secret prefix. -/
theorem notMem_secretPrefix {last : α} (listed : pattern ∈ secretPrefixes)
    (ends : isSeparator (char last) = true ∨ isSpacing (char last) = true) :
    char last ∉ pattern := by
  intro member
  rcases ends with separates | spaced
  · rw [secretPrefix_not_isSeparator pattern listed _ member] at separates
    cases separates
  · have stops := isStop_of_isSpacing spaced
    rw [(secretPrefix_clean pattern listed).2 _ member] at stops
    cases stops

/-- Whether a secret prefix stands in what a round keeps does not depend on what follows. -/
theorem occurs_kept {last : Char} {index : Nat} (back back' : List Char)
    (lacks : last ∉ pattern) (le : index ≤ kept.length)
    (occurs : Occurs pattern (kept ++ last :: back) index) :
    Occurs pattern (kept ++ last :: back') index := by
  rw [Occurs, drop_append_of_le_length le] at occurs ⊢
  exact (prefix_of_prefix_append_cons occurs lacks).trans (prefix_append _ _)

/-- Whether a secret prefix stands alone in what a round keeps does not depend on what follows. -/
theorem covered_kept {last : Char}
    (covered : Covered (wordStart earlier (kept ++ last :: back)) secretPrefixes isStop
      (kept ++ last :: back) limit)
    (lacks : ∀ pattern ∈ secretPrefixes, last ∉ pattern) (le : limit ≤ kept.length + 1)
    (back' : List Char) :
    Covered (wordStart earlier (kept ++ last :: back')) secretPrefixes isStop
      (kept ++ last :: back') limit := by
  have start_eq : ∀ {k} (other : List Char), k ≤ kept.length →
      wordStart earlier (kept ++ last :: back') k other =
        wordStart earlier (kept ++ last :: back) k other := by
    intro k other k_le
    rw [wordStart, wordStart, charBefore_append_left _ _ _ k_le, charBefore_append_left _ _ _ k_le]
  intro index pattern index_lt listed occurs rejected
  have inside : index ≤ kept.length := by omega
  obtain ⟨first, other, first_le, other_listed, other_occurs, accepted, between⟩ :=
    covered index pattern index_lt listed (occurs_kept _ back (lacks _ listed) inside occurs)
      (by rw [← start_eq _ inside, rejected])
  refine ⟨first, other, first_le, other_listed,
    occurs_kept _ _ (lacks _ other_listed) (first_le.trans inside) other_occurs,
    by rw [start_eq _ (first_le.trans inside), accepted], fun k le lt => ?_⟩
  have clear := between k le lt
  rw [getElem?_append_left (by omega)] at clear ⊢
  exact clear

theorem charBefore_replacement (earlier : Option Char) (kept later : List Char) (last : Char) :
    charBefore earlier ((kept ++ last :: "[redacted]".toList) ++ later)
      (kept ++ last :: "[redacted]".toList).length = some ']' := by
  rw [charBefore_append_left _ _ _ le_rfl, length_append]
  change (kept ++ last :: "[redacted]".toList)[kept.length + 10]? = _
  rw [getElem?_append_right (by omega), Nat.add_sub_cancel_left]
  rfl

theorem covered_of_round {later : List Char} {last : Char} {limit' : Nat}
    (covered : Covered (wordStart earlier (kept ++ last :: back)) secretPrefixes isStop
      (kept ++ last :: back) limit)
    (lt : kept.length < limit) (lacks : ∀ pattern ∈ secretPrefixes, last ∉ pattern)
    (covered' : Covered (wordStart (some ']') later) secretPrefixes isStop later limit') :
    Covered (wordStart earlier ((kept ++ last :: "[redacted]".toList) ++ later)) secretPrefixes
      isStop ((kept ++ last :: "[redacted]".toList) ++ later)
      ((kept ++ last :: "[redacted]".toList).length + limit') := by
  have length : (kept ++ last :: "[redacted]".toList).length = kept.length + 11 := by
    rw [length_append]
    rfl
  have text_eq : (kept ++ last :: "[redacted]".toList) ++ later =
      kept ++ last :: ("[redacted]".toList ++ later) := by
    rw [append_assoc, cons_append]
  intro index pattern index_lt listed occurs rejected
  by_cases inside : index < kept.length + 1
  · have shorter : Covered (wordStart earlier (kept ++ last :: back)) secretPrefixes isStop
        (kept ++ last :: back) (kept.length + 1) :=
      fun index pattern lt' => covered index pattern (by omega)
    have front := covered_kept shorter lacks le_rfl ("[redacted]".toList ++ later)
    rw [text_eq] at occurs rejected ⊢
    exact front index pattern inside listed occurs rejected
  by_cases short : index < kept.length + 11
  · -- No secret prefix starts in the replacement.
    obtain ⟨offset, rfl⟩ : ∃ offset, index = kept.length + (offset + 1) :=
      ⟨index - kept.length - 1, by omega⟩
    have in_mark : offset < "[redacted]".toList.length := by
      change offset < 10
      omega
    rw [text_eq, occurs_append_iff, Occurs, drop_succ_cons,
      drop_append_of_le_length in_mark.le, drop_eq_getElem_cons in_mark] at occurs
    cases pattern with
    | nil => exact absurd rfl (secretPrefix_ne_nil _ listed)
    | cons c pattern =>
      refine absurd ?_ (secretPrefix_head _ listed c rfl)
      rw [(cons_prefix_cons.mp occurs).1]
      exact getElem_mem in_mark
  · obtain ⟨offset, rfl⟩ : ∃ offset, index = (kept ++ last :: "[redacted]".toList).length + offset :=
      ⟨index - (kept.length + 11), by omega⟩
    rw [wordStart_append, charBefore_replacement] at rejected
    obtain ⟨first, other, first_le, other_listed, other_occurs, accepted, between⟩ :=
      covered' offset pattern (by omega) listed (occurs_append_iff.mp occurs) rejected
    refine ⟨_ + first, other, Nat.add_le_add_left first_le _, other_listed,
      occurs_append_iff.mpr other_occurs,
      by rw [wordStart_append, charBefore_replacement, accepted], fun k le lt => ?_⟩
    rw [getElem?_append_right (by omega)]
    exact between _ (by omega) (by omega)

/-- A token with a secret prefix is gone after the scan for sensitive words, or what is left of it is
still a token with that prefix, and the scan for secret prefixes comes to it. -/
theorem Redacted.token {start token out : List α}
    (redacted : Redacted text out) (text_eq : text = before ++ (start ++ (token ++ rest)))
    (listed : chars start ∈ secretPrefixes) (htoken : ∀ x ∈ token, isStop (char x) = false)
    (comes : Comes wordStart secretPrefixes earlier (chars text) before.length) :
    (∀ x ∈ out, x ∈ before ∨ x ∈ rest ∨ x ∈ literal (α := α) "[redacted]") ∨
    ∃ before' token' rest', out = before' ++ (start ++ (token' ++ rest')) ∧
      (∀ x ∈ token', isStop (char x) = false) ∧
      Comes wordStart secretPrefixes earlier (chars out) before'.length ∧
      (∀ x ∈ before', x ∈ before ∨ x ∈ literal (α := α) "[redacted]") ∧
      ∀ x ∈ rest', x ∈ rest ∨ x ∈ literal (α := α) "[redacted]" := by
  induction redacted generalizing earlier before with
  | same text =>
    exact .inr ⟨before, token, rest, text_eq, htoken, comes, fun x member => .inl member,
      fun x member => .inl member⟩
  | @round kept secret remaining out last ends head later ih =>
    have lacks : ∀ pattern ∈ secretPrefixes, char last ∉ pattern := fun pattern listed =>
      notMem_secretPrefix listed ends
    have run : ∀ x ∈ start ++ token, isStop (char x) = false := by
      intro x member
      rcases mem_append.mp member with member | member
      · exact (secretPrefix_clean _ listed).2 _ (mem_map_of_mem member)
      · exact htoken x member
    have split : before ++ (start ++ (token ++ rest)) =
        (kept ++ [last]) ++ (secret ++ remaining) := by
      rw [← text_eq, append_assoc, singleton_append]
    -- Where what is kept is in front of the token, and the token does not follow the replacement.
    have gone : remaining <:+ rest → (∀ x ∈ kept ++ [last], x ∈ before) →
        ∀ x ∈ kept ++ last :: (literal "[redacted]" ++ out),
          x ∈ before ∨ x ∈ rest ∨ x ∈ literal (α := α) "[redacted]" := by
      intro suffix front x member
      simp only [mem_append, mem_cons] at member
      rcases member with inside | rfl | mark | inside
      · exact .inl (front x (by simp [inside]))
      · exact .inl (front x (by simp))
      · exact .inr (.inr mark)
      · exact .inr ((later.mem inside).imp_left fun inside => suffix.subset inside)
    rcases append_eq_append_iff.mp split with
      ⟨inside, kept_eq, token_eq⟩ | ⟨inside, before_eq, secret_eq⟩
    · rcases append_eq_append_iff.mp token_eq with
        ⟨inside, start_eq, token_eq'⟩ | ⟨inside', start_eq, -⟩
      · -- The prefix is kept.
        subst start_eq
        have front_eq : kept ++ last :: (literal "[redacted]" ++ out) =
            before ++ (start ++ (inside ++ (literal "[redacted]" ++ out))) := by
          rw [← singleton_append, ← append_assoc, kept_eq]
          simp only [append_assoc]
        have le : before.length ≤ kept.length := by
          have length := congrArg length kept_eq
          have pos := length_pos_iff.mpr (secretPrefix_ne_nil _ listed)
          simp only [length_append, length_singleton, length_chars] at length pos
          omega
        have comes' : Comes wordStart secretPrefixes earlier
            (chars (kept ++ last :: (literal "[redacted]" ++ out))) before.length := by
          obtain ⟨boundary, covered⟩ := comes
          rw [chars_append] at boundary covered ⊢
          rw [charBefore_append_left _ _ _ (by simpa using le)] at boundary
          refine ⟨?_, covered_kept covered lacks (by rw [length_chars]; omega) _⟩
          rwa [charBefore_append_left _ _ _ (by simpa using le)]
        rcases append_eq_append_iff.mp token_eq' with
          ⟨later', inside_eq, rest_eq⟩ | ⟨later', parts_eq, secret_eq⟩
        · refine .inr ⟨before, token, later' ++ (literal "[redacted]" ++ out), ?_, htoken, comes',
            fun x member => .inl member, fun x member => ?_⟩
          · rw [front_eq, inside_eq, append_assoc]
          · rw [mem_append, mem_append] at member
            rw [rest_eq, mem_append, mem_append]
            rcases member with inside | mark | inside
            · exact .inl (.inl inside)
            · exact .inr mark
            · exact (later.mem inside).imp_left fun inside => .inr (.inr inside)
        · have suffix := suffix_of_run secret_eq.symm
            (fun x member => htoken x (by simp [parts_eq, member])) head
          refine .inr ⟨before, inside, literal "[redacted]" ++ out, front_eq,
            fun x member => htoken x (by simp [parts_eq, member]), comes',
            fun x member => .inl member, fun x member => ?_⟩
          rcases mem_append.mp member with mark | inside
          · exact .inr mark
          · exact (later.mem inside).imp_left fun inside => suffix.subset inside
      · rcases inside.eq_nil_or_concat with rfl | ⟨front, x, rfl⟩
        · rw [nil_append] at token_eq
          rw [append_nil] at kept_eq
          refine .inl (gone ?_ fun x member => kept_eq ▸ member)
          rw [← append_assoc] at token_eq
          exact suffix_of_run token_eq run head
        · -- A part of the prefix would end in a symbol that no prefix has.
          have same : last = x := by
            have lasts := congrArg getLast? kept_eq
            simpa using lasts
          refine absurd ?_ (lacks _ listed)
          rw [start_eq, same]
          exact mem_map_of_mem (by simp)
    · rcases append_eq_append_iff.mp secret_eq with
        ⟨later', inside_eq, remaining_eq⟩ | ⟨later', -, token_eq⟩
      · -- The token follows the replacement.
        subst inside_eq
        have before_length : before.length = (chars (kept ++ last :: secret)).length +
            later'.length := by
          rw [before_eq, length_chars]
          simp only [length_append, length_cons, length_nil]
          omega
        have cut := comes
        rw [← cons_append, ← append_assoc, chars_append, before_length] at cut
        have comes' : Comes wordStart secretPrefixes (some ']') (chars remaining) later'.length := by
          refine cut.cut (fun _ _ => wordStart_behind _) ?_ secretPrefix_clean fun _ => rfl
          intro c first
          rw [chars, head?_map] at first
          obtain ⟨x, first', rfl⟩ := Option.map_eq_some_iff.mp first
          exact head x first'
        have front_mem : ∀ x, x ∈ kept ∨ x = last ∨ x ∈ later' → x ∈ before := by
          intro x
          rw [before_eq]
          simp only [mem_append, mem_cons, not_mem_nil, or_false]
          tauto
        rcases ih remaining_eq comes' with
          hidden | ⟨before', token', rest', later_eq, htoken', comes'', before_mem, rest_mem⟩
        · refine .inl fun x member => ?_
          rw [mem_append, mem_cons, mem_append] at member
          rcases member with inside | rfl | mark | inside
          · exact .inl (front_mem x (.inl inside))
          · exact .inl (front_mem x (.inr (.inl rfl)))
          · exact .inr (.inr mark)
          · exact (hidden x inside).imp_left fun inside => front_mem x (.inr (.inr inside))
        · have out_cut : chars (kept ++ last :: (literal "[redacted]" ++ out)) =
              (chars kept ++ char last :: "[redacted]".toList) ++ chars out := by
            rw [chars_append, chars_cons, chars_append, chars_literal, append_assoc,
              cons_append]
          have length : (kept ++ last :: (literal "[redacted]" ++ before')).length =
              (chars kept ++ char last :: "[redacted]".toList).length + before'.length := by
            simp only [length_append, length_cons, length_chars, length_literal]
            omega
          refine .inr ⟨kept ++ last :: (literal "[redacted]" ++ before'), token', rest', ?_,
            htoken', ⟨?_, ?_⟩, fun x member => ?_, rest_mem⟩
          · rw [later_eq]
            simp only [append_assoc, cons_append]
          · rw [length, out_cut, charBefore_append, charBefore_replacement]
            exact comes''.boundary
          · rw [length, out_cut]
            have covered := comes.covered
            rw [chars_append] at covered
            refine covered_of_round covered ?_ lacks comes''.covered
            rw [before_eq]
            simp only [length_append, length_cons, length_nil, length_chars]
            omega
          · rw [mem_append, mem_cons, mem_append] at member
            rcases member with inside | rfl | mark | inside
            · exact .inl (front_mem x (.inl inside))
            · exact .inl (front_mem x (.inr (.inl rfl)))
            · exact .inr mark
            · exact (before_mem x inside).imp_left fun inside => front_mem x (.inr (.inr inside))
      · refine .inl (gone ?_ fun x member => ?_)
        · rw [← append_assoc] at token_eq
          exact suffix_of_run token_eq run head
        · rw [before_eq]
          exact mem_append_left _ member

end TeaRs.ProviderHttp
