import EntitySchema.Proofs.Text.Cutting
import EntitySchema.Proofs.Text.Places
import EntitySchema.Proofs.Text.Trimming
import EntitySchema.Source.Line

/-! # Physical lines in their source

The lines of a source are numbered from one to the number of the last, and what stands on a line,
once it is trimmed, is found in the source at the place that the line tells. -/

namespace EntitySchema

open Text

/-- Parts put together are those before one of them, each ended by the mark, that one, and those
after it, the mark before each of them. -/
theorem Text.intercalate_append_cons (mark : Char) (front : List Text) (part : Text)
    (back : List Text) :
    [mark].intercalate (front ++ part :: back) =
      front.flatMap (· ++ [mark]) ++ (part ++ back.flatMap (mark :: ·)) := by
  induction front with
  | nil => exact intercalate_cons mark part back
  | cons first rest ih =>
    obtain ⟨second, others, parts⟩ : ∃ second others, rest ++ part :: back = second :: others :=
      List.exists_cons_of_ne_nil (by simp)
    rw [List.cons_append, parts, List.intercalate_cons_cons, ← parts, ih, List.flatMap_cons]
    simp only [List.append_assoc]

namespace SourceLine

variable {line : SourceLine} {source : Text}

/-! ## Lines and the parts between newlines -/

/-- What is left of a line without its carriage return is its front. -/
theorem dropReturn_prefix_self (raw : Text) : dropReturn raw <+: raw := by
  rw [dropReturn]
  split
  · exact List.dropLast_prefix raw
  · exact List.prefix_refl raw

/-- The texts of the lines are the parts between newlines, without their carriage returns. -/
theorem map_text_all (source : Text) :
    (all source).map (·.text) = (source.splitOn '\n').map dropReturn := by
  have located : ∀ (parts : List Text) (number offset : Nat),
      (locate number offset parts).map (·.text) = parts.map dropReturn := by
    intro parts
    induction parts with
    | nil => exact fun _ _ => rfl
    | cons first rest ih => exact fun _ _ => congrArg _ (ih _ _)
  exact located _ 1 0

/-- No line of a source has a newline. -/
theorem newline_not_mem (h : line ∈ all source) : '\n' ∉ line.text := by
  have inside : line.text ∈ (source.splitOn '\n').map dropReturn := by
    rw [← map_text_all]
    exact List.mem_map_of_mem h
  obtain ⟨part, member, same⟩ := List.mem_map.1 inside
  rw [← same]
  intro newline
  exact not_mem_of_mem_splitOn member ((dropReturn_prefix_self part).subset newline)

/-- A line that is located is one of the parts, with its number and its offset counted from those of
the first part. -/
theorem exists_of_mem_locate {parts : List Text} {number offset : Nat}
    (h : line ∈ locate number offset parts) :
    ∃ front raw back, parts = front ++ raw :: back ∧
      line.number = number + front.length ∧
      line.offset = offset + byteLength (front.flatMap (· ++ ['\n'])) ∧
      line.text = dropReturn raw := by
  induction parts generalizing number offset with
  | nil => exact absurd h List.not_mem_nil
  | cons first rest ih =>
    rw [locate] at h
    rcases List.mem_cons.1 h with rfl | later
    · exact ⟨[], first, rest, rfl, rfl, rfl, rfl⟩
    · obtain ⟨front, raw, back, rfl, numbered, placed, text⟩ := ih later
      have newline : byteLength ['\n'] = 1 := rfl
      refine ⟨first :: front, raw, back, rfl, ?_, ?_, text⟩
      · rw [numbered, List.length_cons]
        omega
      · rw [placed, List.flatMap_cons, byteLength_append, byteLength_append, newline]
        omega

/-- The lines of a source have the numbers from one to that of the last. -/
theorem number_bounds (h : line ∈ all source) :
    1 ≤ line.number ∧ line.number ≤ lastNumber source := by
  obtain ⟨front, raw, back, parts, numbered, -, -⟩ := exists_of_mem_locate h
  have count : lastNumber source = front.length + (back.length + 1) := by
    rw [lastNumber, parts, List.length_append, List.length_cons]
  omega

/-- The numbers of the lines increase. -/
theorem pairwise_number_all (source : Text) :
    (all source).Pairwise (·.number < ·.number) := by
  have located : ∀ (parts : List Text) (number offset : Nat),
      (locate number offset parts).Pairwise (·.number < ·.number) := by
    intro parts
    induction parts with
    | nil => exact fun _ _ => .nil
    | cons first rest ih =>
      refine fun number offset => .cons (fun line later => ?_) (ih _ _)
      obtain ⟨front, raw, back, -, numbered, -⟩ := exists_of_mem_locate later
      rw [numbered]
      exact Nat.lt_of_lt_of_le (Nat.lt_succ_self number) (Nat.le_add_right _ _)
  exact located _ 1 0

/-! ## The places of lines -/

/-- A line stands in its source where it begins. -/
theorem text_holds (h : line ∈ all source) :
    (Span.ofText line.offset line.text).Holds 0 source line.text := by
  obtain ⟨front, raw, back, parts, -, placed, text⟩ := exists_of_mem_locate h
  have whole : source =
      front.flatMap (· ++ ['\n']) ++ (raw ++ back.flatMap ('\n' :: ·)) := by
    rw [← intercalate_append_cons, ← parts, List.intercalate_splitOn]
  have inRaw : (Span.ofText line.offset line.text).Holds line.offset raw line.text :=
    Span.holds_of_prefix (text ▸ dropReturn_prefix_self raw)
  rw [placed] at inRaw
  rw [whole, placed]
  exact (inRaw.append_right _).append_left

/-- What stands on a line is found behind its leading blanks. -/
theorem content_holds_text (line : SourceLine) :
    line.contentSpan.Holds line.offset line.text line.content := by
  have trimmed : (Span.ofText line.contentStart line.content).Holds line.contentStart
      (trimStart line.text) line.content :=
    Span.holds_of_prefix (trimEnd_prefix_self _)
  have inText : line.contentSpan.Holds line.offset
      (line.text.takeWhile Text.isBlank ++ trimStart line.text) line.content :=
    trimmed.append_left
  rwa [takeWhile_append_trimStart] at inText

/-- What stands on a line of a source is found in the source. -/
theorem content_holds (h : line ∈ all source) : line.contentSpan.Holds 0 source line.content :=
  (text_holds h).trans line.content_holds_text

end SourceLine

end EntitySchema
