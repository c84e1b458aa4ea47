import EntitySchema.Text.Cut
import Mathlib.Data.List.Infix

/-! # Texts cut at marks

Cutting at the first arrow and splitting at every mark are undone by putting the parts together
again. The parts are told by what they lack: the text before the first arrow has no arrow, and no
part of a split has the mark. -/

namespace EntitySchema.Text

/-! ## The arrow -/

/-- The arrow that stands between a definition and its rules. -/
def arrow : Text := ['-', '>']

/-- A character that begins no arrow is passed over. -/
theorem cutAtArrow_cons {c : Char} {rest : Text} (h : ¬ arrow <+: c :: rest) :
    cutAtArrow (c :: rest) = (c :: (cutAtArrow rest).1, (cutAtArrow rest).2) := by
  rw [cutAtArrow]
  rintro tail rfl rfl
  exact h (List.prefix_append arrow tail)

/-- A text without an arrow is not cut. -/
theorem cutAtArrow_of_arrowless {text : Text} (h : ¬ arrow <:+: text) :
    cutAtArrow text = (text, none) := by
  induction text with
  | nil => rfl
  | cons c rest ih =>
    rw [List.infix_cons_iff, not_or] at h
    rw [cutAtArrow_cons h.1, ih h.2]

/-- A text is cut at an arrow before which it has none. -/
theorem cutAtArrow_append {before : Text} (h : ¬ arrow <:+: before) (after : Text) :
    cutAtArrow (before ++ arrow ++ after) = (before, some after) := by
  induction before with
  | nil => rfl
  | cons c rest ih =>
    rw [List.infix_cons_iff, not_or] at h
    have passed : ¬ arrow <+: c :: (rest ++ arrow ++ after) := by
      intro inside
      obtain ⟨rfl, next⟩ := List.cons_prefix_cons.1 inside
      -- the next character is an angle bracket, so it cannot be the hyphen of the arrow
      cases rest with
      | nil => simp [arrow] at next
      | cons d tail =>
        obtain ⟨rfl, -⟩ := List.cons_prefix_cons.1 next
        exact h.1 (List.prefix_append arrow tail)
    rw [List.cons_append, List.cons_append, cutAtArrow_cons passed, ih h.2]

/-- A text has no arrow and is not cut, or is cut at its first arrow. -/
theorem cutAtArrow_cases (text : Text) :
    (¬ arrow <:+: text ∧ cutAtArrow text = (text, none)) ∨
      ∃ before after, ¬ arrow <:+: before ∧ text = before ++ arrow ++ after ∧
        cutAtArrow text = (before, some after) := by
  induction text with
  | nil => exact .inl ⟨by decide, rfl⟩
  | cons c rest ih =>
    by_cases here : arrow <+: c :: rest
    · obtain ⟨after, same⟩ := here
      have noArrow : ¬ arrow <:+: ([] : Text) := by decide
      refine .inr ⟨[], after, noArrow, same.symm, ?_⟩
      rw [← same]
      exact cutAtArrow_append noArrow after
    · rw [cutAtArrow_cons here]
      rcases ih with ⟨none, cut⟩ | ⟨before, after, none, rfl, cut⟩
      · refine .inl ⟨?_, by rw [cut]⟩
        rw [List.infix_cons_iff, not_or]
        exact ⟨here, none⟩
      · refine .inr ⟨c :: before, after, ?_, rfl, by rw [cut]⟩
        rw [List.infix_cons_iff, not_or]
        refine ⟨fun inside => here ?_, none⟩
        rw [List.append_assoc, ← List.cons_append]
        exact inside.trans (List.prefix_append _ _)

/-- What stands before the first arrow is the front of the text. -/
theorem cutAtArrow_prefix_self (text : Text) : (cutAtArrow text).1 <+: text := by
  rcases cutAtArrow_cases text with ⟨-, cut⟩ | ⟨before, after, -, rfl, cut⟩
  · rw [cut]
  · rw [cut, List.append_assoc]
    exact List.prefix_append before _

/-- An arrow cannot begin on one side of another character and end on the other. -/
theorem arrow_infix_append_cons_iff {c : Char} (hyphen : c ≠ '-') (angle : c ≠ '>')
    {left right : Text} :
    arrow <:+: left ++ c :: right ↔ arrow <:+: left ∨ arrow <:+: right := by
  constructor
  · intro h
    obtain inside | inside | ⟨first, second, _, hs, parts, _, front⟩ :=
      List.infix_append_iff_ne_nil.1 h
    · exact .inl inside
    · rcases List.infix_cons_iff.1 inside with front | inside
      · exact absurd (List.cons_prefix_cons.1 front).1.symm hyphen
      · exact .inr inside
    · -- an arrow that began before the character would have it as one of its own
      obtain ⟨d, tail, rfl⟩ := List.exists_cons_of_ne_nil hs
      obtain ⟨rfl, -⟩ := List.cons_prefix_cons.1 front
      have member : d ∈ arrow := by rw [parts]; simp
      simp [arrow, hyphen, angle] at member
  · rintro (inside | inside)
    · exact List.infix_append_of_infix_left inside
    · exact List.infix_append_of_infix_right (List.infix_cons inside)

/-- Parts without an arrow have none either when another character stands before each of them. -/
theorem not_arrow_infix_append_flatMap {mark : Char} (hyphen : mark ≠ '-') (angle : mark ≠ '>')
    {text : Text} (h : ¬ arrow <:+: text) {parts : List Text}
    (hp : ∀ part ∈ parts, ¬ arrow <:+: part) :
    ¬ arrow <:+: text ++ parts.flatMap (mark :: ·) := by
  induction parts generalizing text with
  | nil => rwa [List.flatMap_nil, List.append_nil]
  | cons part rest ih =>
    rw [List.forall_mem_cons] at hp
    rw [List.flatMap_cons, ← List.append_assoc]
    refine ih ?_ hp.2
    rw [arrow_infix_append_cons_iff hyphen angle, not_or]
    exact ⟨h, hp.1⟩

/-! ## Splitting at a mark -/

/-- A text is cut at a mark before which it has none. -/
theorem cutAt_append {mark : Char} {before : Text} (h : mark ∉ before) (after : Text) :
    cutAt mark (before ++ mark :: after) = (before, some after) := by
  induction before with
  | nil => exact cutAt_self mark after
  | cons c rest ih =>
    rw [List.mem_cons, not_or] at h
    rw [List.cons_append, cutAt_of_ne (Ne.symm h.1), ih h.2]

/-- A text lacks the mark and is not cut, or is cut at the first one. -/
theorem cutAt_cases (mark : Char) (text : Text) :
    (mark ∉ text ∧ cutAt mark text = (text, none)) ∨
      ∃ before after, mark ∉ before ∧ text = before ++ mark :: after ∧
        cutAt mark text = (before, some after) := by
  induction text with
  | nil => exact .inl ⟨List.not_mem_nil, rfl⟩
  | cons c rest ih =>
    by_cases here : c = mark
    · subst here
      exact .inr ⟨[], rest, List.not_mem_nil, rfl, cutAt_self c rest⟩
    · rw [cutAt_of_ne here]
      rcases ih with ⟨none, cut⟩ | ⟨before, after, none, rfl, cut⟩
      · refine .inl ⟨?_, by rw [cut]⟩
        rw [List.mem_cons, not_or]
        exact ⟨Ne.symm here, none⟩
      · refine .inr ⟨c :: before, after, ?_, rfl, by rw [cut]⟩
        rw [List.mem_cons, not_or]
        exact ⟨Ne.symm here, none⟩

/-- Parts put together are the first part and the mark before every other part. -/
theorem intercalate_cons {α : Type} (mark : α) (first : List α) (others : List (List α)) :
    [mark].intercalate (first :: others) = first ++ others.flatMap (mark :: ·) := by
  induction others generalizing first with
  | nil => simp
  | cons second rest ih =>
    rw [List.intercalate_cons_cons, ih second, List.flatMap_cons]
    simp

/-- With one more mark at the end, the mark stands after every part. -/
theorem intercalate_append_singleton {mark : Char} {parts : List Text} (nonempty : parts ≠ []) :
    [mark].intercalate parts ++ [mark] = parts.flatMap (· ++ [mark]) := by
  obtain ⟨first, others, rfl⟩ := List.exists_cons_of_ne_nil nonempty
  induction others generalizing first with
  | nil => simp
  | cons second rest ih =>
    rw [List.intercalate_cons_cons, List.append_assoc, ih second (List.cons_ne_nil _ _)]
    rfl

/-- What is put together from parts has no other characters than they have and the mark. -/
theorem of_mem_intercalate {mark c : Char} {parts : List Text}
    (h : c ∈ [mark].intercalate parts) : c = mark ∨ ∃ part ∈ parts, c ∈ part := by
  cases parts with
  | nil => cases h
  | cons first others =>
    rw [intercalate_cons, List.mem_append, List.mem_flatMap] at h
    rcases h with inside | ⟨part, later, inside⟩
    · exact .inr ⟨first, List.mem_cons_self, inside⟩
    · rcases List.mem_cons.1 inside with rfl | inside
      · exact .inl rfl
      · exact .inr ⟨part, List.mem_cons_of_mem first later, inside⟩

/-- The parts put together hold each of them. -/
theorem infix_intercalate_of_mem (mark : Text) {part : Text} {parts : List Text}
    (h : part ∈ parts) : part <:+: mark.intercalate parts := by
  induction parts with
  | nil => simp at h
  | cons first rest ih =>
    cases rest with
    | nil =>
      obtain rfl := List.mem_singleton.1 h
      rw [List.intercalate_singleton]
    | cons second others =>
      rw [List.intercalate_cons_cons, List.append_assoc]
      rcases List.mem_cons.1 h with rfl | later
      · exact (List.prefix_append _ _).isInfix
      · exact List.infix_append_of_infix_right
          (List.infix_append_of_infix_right (ih later))

/-- The parts put together end in the last of them. -/
theorem suffix_intercalate_of_mem_getLast? (mark : Text) {part : Text} {parts : List Text}
    (h : part ∈ parts.getLast?) : part <:+ mark.intercalate parts := by
  induction parts with
  | nil => simp at h
  | cons first rest ih =>
    cases rest with
    | nil =>
      obtain rfl := List.mem_singleton.1 (List.mem_of_mem_getLast? h)
      rw [List.intercalate_singleton]
    | cons second others =>
      rw [List.getLast?_cons_cons] at h
      rw [List.intercalate_cons_cons]
      exact (ih h).trans (List.suffix_append _ _)

/-- A part of a split is a part of the text. -/
theorem infix_of_mem_splitOn (mark : Char) {text part : Text} (h : part ∈ text.splitOn mark) :
    part <:+: text := by
  have inside := infix_intercalate_of_mem [mark] h
  rwa [List.intercalate_splitOn] at inside

/-- The last part of a split is the end of the text. -/
theorem suffix_of_mem_getLast?_splitOn (mark : Char) {text part : Text}
    (h : part ∈ (text.splitOn mark).getLast?) : part <:+ text := by
  have ending := suffix_intercalate_of_mem_getLast? [mark] h
  rwa [List.intercalate_splitOn] at ending

/-- No part of a split has the mark. -/
theorem not_mem_of_mem_splitOn {mark : Char} {text part : Text} (h : part ∈ text.splitOn mark) :
    mark ∉ part := by
  induction text generalizing part with
  | nil =>
    obtain rfl : part = [] := by simpa using h
    exact List.not_mem_nil
  | cons c rest ih =>
    obtain ⟨first, others, parts⟩ := List.exists_cons_of_ne_nil (List.splitOn_ne_nil mark rest)
    rw [List.splitOn_cons_eq_if_modifyHead] at h
    split at h
    · rcases List.mem_cons.1 h with rfl | later
      · exact List.not_mem_nil
      · exact ih later
    · rename_i differs
      rw [parts, List.modifyHead_cons] at h
      rcases List.mem_cons.1 h with rfl | later
      · rw [List.mem_cons, not_or]
        refine ⟨fun same => differs (beq_iff_eq.2 same.symm), ih ?_⟩
        rw [parts]
        exact List.mem_cons_self
      · exact ih (by rw [parts]; exact List.mem_cons_of_mem first later)

/-- A text is split into one part more than it has marks. -/
theorem length_splitOn (mark : Char) (text : Text) :
    (text.splitOn mark).length = text.count mark + 1 := by
  induction text with
  | nil => rfl
  | cons c rest ih =>
    rw [List.splitOn_cons_eq_if_modifyHead, List.count_cons]
    split
    · rw [List.length_cons, ih]
    · rw [List.length_modifyHead, ih, Nat.add_zero]

/-- A front without the mark belongs to the first part. -/
theorem splitOn_append_of_not_mem {mark : Char} {front : Text} (h : mark ∉ front) (text : Text) :
    (front ++ text).splitOn mark = (text.splitOn mark).modifyHead (front ++ ·) := by
  induction front with
  | nil => exact (List.modifyHead_id ▸ rfl)
  | cons c rest ih =>
    rw [List.mem_cons, not_or] at h
    have differs : (c == mark) = false := beq_eq_false_iff_ne.2 (Ne.symm h.1)
    rw [List.cons_append, List.splitOn_cons_eq_if_modifyHead, differs, ih h.2]
    simp only [Bool.false_eq_true, if_false, List.modifyHead_modifyHead]
    rfl

/-- Parts that each end in the mark are split into these parts, and nothing after the last mark. -/
theorem splitOn_flatMap_append {mark : Char} {parts : List Text}
    (h : ∀ part ∈ parts, mark ∉ part) :
    (parts.flatMap (· ++ [mark])).splitOn mark = parts ++ [[]] := by
  induction parts with
  | nil => rfl
  | cons first rest ih =>
    rw [List.forall_mem_cons] at h
    rw [List.flatMap_cons, List.append_assoc, List.singleton_append,
      List.splitOn_append_cons_self_of_not_mem h.1, ih h.2, List.cons_append]

end EntitySchema.Text
