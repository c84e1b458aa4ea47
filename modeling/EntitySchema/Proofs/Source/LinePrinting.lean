import EntitySchema.Proofs.Source.FieldPrinting
import EntitySchema.Proofs.Source.HeaderPrinting
import EntitySchema.Proofs.Source.Lines

/-! # Lines as they are printed

A printed line is indented or it is not, and what stands on it is a trimmed text. It is found again
when the text of the schema is split into lines, since none of its characters ends a line. -/

namespace EntitySchema

open Text

/-! ## Physical lines -/

namespace SourceLine

variable {line : SourceLine} {text : Text}

/-- A text that ends in no blank ends in no carriage return. -/
theorem dropReturn_of_trimEnd (h : trimEnd text = text) : dropReturn text = text := by
  rw [dropReturn, if_neg]
  intro ending
  exact absurd (trimEnd_eq_self_iff.1 h '\r' ending) (by decide)

/-- A line is not blank when it has content. -/
theorem isBlank_of_content_ne_nil (h : line.content ≠ []) : line.isBlank = false := by
  rw [Bool.eq_false_iff]
  intro blank
  exact h (List.isEmpty_iff.1 blank)

/-- A trimmed text on an indented line is its content. -/
theorem content_of_indented (trimmed : trim text = text) (nonempty : text ≠ [])
    (h : line.text = indent.toList ++ text) :
    line.isBlank = false ∧ line.kind = .field ∧ line.content = text := by
  have blanks : indent.toList.all Text.isBlank = true := by decide
  have content : line.content = text := by
    rw [SourceLine.content, h, trim_append_of_isBlank (List.all_eq_true.1 blanks), trimmed]
  refine ⟨isBlank_of_content_ne_nil (content ▸ nonempty), ?_, content⟩
  rw [SourceLine.kind, h]
  rfl

/-- A trimmed text at the margin is the content of its line. -/
theorem content_of_margin (trimmed : trim text = text) (nonempty : text ≠ [])
    (h : line.text = text) :
    line.isBlank = false ∧ line.kind = .header ∧ line.content = text := by
  have content : line.content = text := by rw [SourceLine.content, h, trimmed]
  refine ⟨isBlank_of_content_ne_nil (content ▸ nonempty), ?_, content⟩
  obtain ⟨first, others, rfl⟩ := List.exists_cons_of_ne_nil nonempty
  have front := (trim_eq_self_iff.1 trimmed).1 first rfl
  simp only [SourceLine.kind, h, front, Bool.false_eq_true, if_false]

end SourceLine

/-! ## Lines of fields -/

/-- Whether no text of a field goes over the end of a line. -/
def Field.OnOneLine (field : Field) : Prop := ∀ text ∈ field.texts, '\n' ∉ text.toList

namespace Field

variable {field : Field}

/-- No identifier has a newline. -/
theorem newline_not_mem_of_isIdentifier {name : String} (h : isIdentifier name = true) :
    '\n' ∉ name.toList :=
  fun inside => absurd ((isIdentifier_iff.1 h).2 _ inside) (by decide)

/-- The definition of a field on one line is printed without a newline. -/
theorem OnOneLine.newline_not_mem_definitionText (h : field.OnOneLine) :
    '\n' ∉ field.definitionText := by
  intro inside
  rcases of_mem_intercalate inside with mark | ⟨part, member, inside⟩
  · cases mark
  · rw [List.mem_cons, List.mem_cons, keywordTexts, List.mem_map] at member
    rcases member with rfl | rfl | ⟨property, -, rfl⟩
    · exact newline_not_mem_of_isIdentifier field.name.valid inside
    · rcases of_mem_intercalate inside with mark | ⟨text, member, inside⟩
      · cases mark
      · rw [← List.map_cons (f := String.toList), List.mem_map] at member
        obtain ⟨text, member, rfl⟩ := member
        refine h text ?_ inside
        rw [texts, ← List.cons_append]
        exact List.mem_append_left _ member
    · exact newline_not_mem_of_isIdentifier (by cases property <;> decide) inside

/-- A field on one line is printed without a newline. -/
theorem OnOneLine.newline_not_mem_printed (h : field.OnOneLine) :
    '\n' ∉ field.printed.toList := by
  intro inside
  rw [toList_printed] at inside
  split at inside
  · exact h.newline_not_mem_definitionText inside
  · rw [List.mem_append, List.mem_append, List.mem_append] at inside
    rcases inside with ((definition | gap) | mark) | rules
    · exact h.newline_not_mem_definitionText definition
    · revert gap
      decide
    · revert mark
      decide
    · rw [rulesText] at rules
      rcases List.mem_cons.1 rules with gap | rules
      · cases gap
      rcases of_mem_intercalate rules with mark | ⟨_, member, inside⟩
      · cases mark
      · obtain ⟨rule, listed, rfl⟩ := List.mem_map.1 member
        exact h rule (List.mem_cons_of_mem _ (List.mem_append_right _ listed)) inside

end Field

/-- A field that is read from a line of a source is on one line. -/
theorem FieldLine.onOneLine_of_ofLine {source : Text} {line : SourceLine}
    (h : line ∈ SourceLine.all source) {field : Field} {span : Span}
    (read : ofLine line = .ok (.column field span)) : field.OnOneLine := by
  intro text member newline
  have inLine := (texts_infix_of_ofLine read text member).trans (trim_infix_self line.text)
  exact SourceLine.newline_not_mem h (inLine.subset newline)

/-- A printed field begins with its name. -/
theorem Field.printed_ne_nil (field : Field) : field.printed.toList ≠ [] := by
  rw [toList_printed, definitionText, intercalate_cons]
  split <;> simp [(isIdentifier_iff.1 field.name.valid).1]

/-- A field that can be written is read from its printed line. -/
theorem Field.Writable.ofLine_of_indented {field : Field} (h : field.Writable) {line : SourceLine}
    (printed : line.text = indent.toList ++ field.printed.toList) :
    line.isBlank = false ∧ line.kind = .field ∧
      ∃ span, FieldLine.ofLine line = .ok (.column field span) := by
  obtain ⟨blank, kind, content⟩ :=
    SourceLine.content_of_indented h.trim_printed field.printed_ne_nil printed
  exact ⟨blank, kind, _, h.ofLine_printed content⟩

/-- The fields that are read from lines are exactly the writable ones, and each of these is read
from the line that is printed for it, wherever it stands. -/
theorem Field.exists_ofLine_iff_writable (field : Field) :
    ((∃ line span, FieldLine.ofLine line = .ok (.column field span)) ↔ field.Writable) ∧
      (field.Writable → ∀ number offset, ∃ span,
        FieldLine.ofLine ⟨number, offset, indent.toList ++ field.printed.toList⟩ =
          .ok (.column field span)) := by
  have printed : field.Writable → ∀ number offset, ∃ span,
      FieldLine.ofLine ⟨number, offset, indent.toList ++ field.printed.toList⟩ =
        .ok (.column field span) := by
    intro writable number offset
    have shown : (⟨number, offset, indent.toList ++ field.printed.toList⟩ : SourceLine).text =
        indent.toList ++ field.printed.toList := rfl
    obtain ⟨-, -, read⟩ := writable.ofLine_of_indented shown
    exact read
  refine ⟨⟨?_, fun writable => ⟨_, printed writable 1 0⟩⟩, printed⟩
  rintro ⟨line, span, read⟩
  exact FieldLine.writable_of_ofLine read

/-- A field whose type ends in half an arrow, with a blank parameter before a property and marks in
its rules, is read from a line in another layout, so it can be written. -/
theorem Field.exists_ofLine_iff_writable_price :
    let field : Field :=
      { name := ⟨"price", by decide⟩, type := "dec -", params := ["", " "],
        properties := { unsigned := true }, rules := [">0", "a->b:c"] }
    field.Writable ∧ ∀ number offset, ∃ span,
      FieldLine.ofLine ⟨number, offset, indent.toList ++ field.printed.toList⟩ =
        .ok (.column field span) := by
  intro field
  have read :
      FieldLine.ofLine ⟨3, 10, "\tprice : dec -,, : unsigned:unsigned->>0||a->b:c|".toList⟩ =
        .ok (.column field ⟨11, 46⟩) := by decide +kernel
  have writable : field.Writable := (exists_ofLine_iff_writable field).1.1 ⟨_, _, read⟩
  exact ⟨writable, (exists_ofLine_iff_writable field).2 writable⟩

/-- The word for timestamps is read from its printed line. -/
theorem FieldLine.ofLine_timestamps_of_indented {line : SourceLine}
    (printed : line.text = indent.toList ++ timestampsWord.toList) :
    line.isBlank = false ∧ line.kind = .field ∧ ofLine line = .ok .timestamps := by
  have trimmed : trim timestampsWord.toList = timestampsWord.toList := by decide
  obtain ⟨blank, kind, content⟩ :=
    SourceLine.content_of_indented trimmed (by decide) printed
  exact ⟨blank, kind, ofLine_eq_timestamps_iff.2 content⟩

/-! ## Lines of headers -/

/-- A header is read from its printed line. -/
theorem Header.ofLine_of_margin {name : EntityName} {relations : List (RelationKind × EntityName)}
    {line : SourceLine} (printed : line.text = headerText name relations) :
    line.isBlank = false ∧ line.kind = .header ∧
      ∃ header, ofLine line = .ok header ∧ header.name = name ∧
        header.relations.map RelationWord.relation = relations := by
  have nonempty : headerText name relations ≠ [] :=
    List.append_ne_nil_of_left_ne_nil (isIdentifier_iff.1 name.valid).1 _
  obtain ⟨blank, kind, content⟩ := SourceLine.content_of_margin trim_headerText nonempty printed
  exact ⟨blank, kind, ofLine_of_content content⟩

end EntitySchema
