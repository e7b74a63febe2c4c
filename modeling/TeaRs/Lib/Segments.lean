import Mathlib

/-!
# Segments of a text

A text with separators, such as a path, names the list of its nonempty segments. One text can be a
prefix of another without naming one of its ancestors: it may stop inside a segment. For texts in
normal form this is the only difference.

## Main definitions

* `segments sep text`: the nonempty parts between separators.
* `SplitsSegment sep p q`: `p` names all but the last of its segments as `q` does, and stops inside
  the next segment of `q`.
* `IsNormal sep text`: every segment has one separator in front of it.

## Main results

* `IsNormal.prefix_of_splitsSegment`: a text in normal form that splits a segment is a prefix.
-/

namespace TeaRs

open List

variable {α : Type} [DecidableEq α] {sep : α} {p q : List α}

/-- The nonempty parts of a text between separators. -/
def segments (sep : α) (text : List α) : List (List α) :=
  (text.splitOn sep).filter fun part => !part.isEmpty

/-- The text `p` stops inside a segment of `q`. -/
def SplitsSegment (sep : α) (p q : List α) : Prop :=
  ∃ front last extended back, segments sep p = front ++ [last] ∧
    segments sep q = front ++ extended :: back ∧ last <+: extended ∧ last ≠ extended

/-- A text in normal form is its segments, each with one separator in front of it. -/
def IsNormal (sep : α) (text : List α) : Prop :=
  (segments sep text).flatMap (fun part => sep :: part) = text

instance (text : List α) : Decidable (IsNormal sep text) :=
  inferInstanceAs (Decidable (_ = _))

/-- Where two texts meet, the last part of the first and the first part of the second become one
part. -/
theorem splitOn_append (sep : α) (xs ys : List α) : ∃ front last first back,
    xs.splitOn sep = front ++ [last] ∧ ys.splitOn sep = first :: back ∧
    (xs ++ ys).splitOn sep = front ++ (last ++ first) :: back := by
  simp only [splitOn_eq_splitOnP]
  induction xs with
  | nil =>
    obtain ⟨first, back, hys⟩ := exists_cons_of_ne_nil (splitOnP_ne_nil (· == sep) ys)
    exact ⟨[], [], first, back, by simp, hys, by simpa using hys⟩
  | cons x xs ih =>
    obtain ⟨front, last, first, back, hxs, hys, hboth⟩ := ih
    rw [cons_append, splitOnP_cons_eq_if_modifyHead,
      splitOnP_cons_eq_if_modifyHead, hxs, hboth]
    by_cases hx : (x == sep) = true
    · exact ⟨[] :: front, last, first, back, by simp [hx], hys, by simp [hx]⟩
    · cases front with
      | nil => exact ⟨[], x :: last, first, back, by simp [hx], hys, by simp [hx]⟩
      | cons part front =>
        exact ⟨(x :: part) :: front, last, first, back, by simp [hx], hys, by simp [hx]⟩

omit [DecidableEq α] in
theorem intercalate_sublist {parts parts' : List (List α)} (sublist : parts.Sublist parts') :
    ([sep].intercalate parts).Sublist ([sep].intercalate parts') := by
  have front (part : List α) (rest : List (List α)) :
      part.Sublist ([sep].intercalate (part :: rest)) ∧
        ([sep].intercalate rest).Sublist ([sep].intercalate (part :: rest)) := by
    cases rest with
    | nil => simp [intercalate]
    | cons next rest =>
      simp only [intercalate, intersperse_cons_cons, flatten_cons]
      exact ⟨sublist_append_left _ _,
        (sublist_append_right [sep] _).trans (sublist_append_right part _)⟩
  induction sublist with
  | slnil => exact List.Sublist.refl _
  | cons part _ ih => exact ih.trans (front part _).2
  | @cons_cons kept kept' part sublist ih =>
    cases kept with
    | nil =>
      rw [show [sep].intercalate [part] = part by simp [intercalate]]
      exact (front part kept').1
    | cons next kept =>
      cases kept' with
      | nil => cases sublist
      | cons next' kept' =>
        simp only [intercalate, intersperse_cons_cons, flatten_cons] at ih ⊢
        exact (List.Sublist.refl part).append ((List.Sublist.refl [sep]).append ih)

omit [DecidableEq α] in
theorem intercalate_cons (part : List α) (parts : List (List α)) :
    [sep].intercalate (part :: parts) = part ++ parts.flatMap fun part => sep :: part := by
  induction parts generalizing part with
  | nil => simp [intercalate]
  | cons next parts ih =>
    rw [flatMap_cons, cons_append, ← ih next]
    simp [intercalate]

/-- The segments of a text that is built of segments. -/
theorem segments_flatMap {parts : List (List α)}
    (proper : ∀ part ∈ parts, part ≠ [] ∧ sep ∉ part) :
    segments sep (parts.flatMap fun part => sep :: part) = parts := by
  have free : ∀ part ∈ [] :: parts, sep ∉ part := by
    simpa using fun part mem => (proper part mem).2
  rw [← nil_append (flatMap _ _), ← intercalate_cons, segments,
    splitOn_intercalate sep free (by simp)]
  simpa [filter_eq_self] using fun part mem => (proper part mem).1

/-- A prefix names an ancestor or splits a segment. -/
theorem segments_prefix_or_splitsSegment (h : p <+: q) :
    segments sep p <+: segments sep q ∨ SplitsSegment sep p q := by
  obtain ⟨rest, rfl⟩ := h
  obtain ⟨front, last, first, back, hp, -, hboth⟩ := splitOn_append sep p rest
  rw [SplitsSegment, segments, segments, hp, hboth]
  cases last with
  | nil =>
    left
    exact ⟨(first :: back).filter fun part => !part.isEmpty, by simp⟩
  | cons x last =>
    cases first with
    | nil =>
      left
      exact ⟨back.filter fun part => !part.isEmpty, by simp⟩
    | cons y first =>
      right
      refine ⟨front.filter fun part => !part.isEmpty, x :: last, x :: last ++ y :: first,
        back.filter fun part => !part.isEmpty, by simp, by simp, prefix_append _ _, ?_⟩
      intro heq
      simpa using congrArg length heq

/-- A text in normal form that splits a segment of another is a prefix of it. -/
theorem IsNormal.prefix_of_splitsSegment (hp : IsNormal sep p) (hq : IsNormal sep q)
    (h : SplitsSegment sep p q) : p <+: q := by
  obtain ⟨front, last, extended, back, hsp, hsq, ⟨rest, rfl⟩, -⟩ := h
  rw [← hp, ← hq, hsp, hsq]
  refine ⟨rest ++ back.flatMap fun part => sep :: part, ?_⟩
  simp

theorem not_mem_of_mem_splitOn {text part : List α} (h : part ∈ text.splitOn sep) : sep ∉ part := by
  rw [splitOn_eq_splitOnP] at h
  induction text generalizing part with
  | nil =>
    rw [splitOnP_nil, mem_singleton] at h
    simp [h]
  | cons x text ih =>
    rw [splitOnP_cons_eq_if_modifyHead] at h
    by_cases hx : x = sep
    · rw [if_pos (by simpa using hx), mem_cons] at h
      rcases h with rfl | h
      · simp
      · exact ih h
    · rw [if_neg (by simpa using hx)] at h
      obtain ⟨first, back, split⟩ :=
        exists_cons_of_ne_nil (splitOnP_ne_nil (· == sep) text)
      rw [split, modifyHead_cons, mem_cons] at h
      rcases h with rfl | h
      · have free := ih (split ▸ mem_cons_self : first ∈ _)
        simpa [Ne.symm hx] using free
      · exact ih (split ▸ mem_cons_of_mem _ h)

theorem proper_of_mem_segments {text part : List α} (h : part ∈ segments sep text) :
    part ≠ [] ∧ sep ∉ part := by
  obtain ⟨hmem, nonempty⟩ := mem_filter.mp h
  exact ⟨by simpa using nonempty, not_mem_of_mem_splitOn hmem⟩

end TeaRs
