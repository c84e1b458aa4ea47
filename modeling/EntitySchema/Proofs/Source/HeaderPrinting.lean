import EntitySchema.Proofs.Source.HeaderReading
import EntitySchema.Proofs.Text.Trimming

/-! # Headers as they are printed

A header is printed as the name of its entity and a word for each relation, with a space before
each word. The words are found again, and each is read as the relation for which it stands. -/

namespace EntitySchema

open Text

/-! ## Relations -/

/-- No character of an identifier separates words. -/
theorem isSeparator_of_isIdentifierChar {c : Char} (h : isIdentifierChar c = true) :
    isSeparator c = false := by
  cases separator : isSeparator c with
  | false => rfl
  | true =>
    simp only [isSeparator, Bool.or_eq_true, beq_iff_eq] at separator
    rcases separator with ((rfl | rfl) | rfl) | rfl <;> cases h

/-- The characters of a printed relation are those of identifiers, and a colon. -/
theorem isIdentifierChar_or_of_mem_relationText {relation : RelationKind × EntityName} {c : Char}
    (h : c ∈ relationText relation) : isIdentifierChar c = true ∨ c = ':' := by
  have code : isIdentifier relation.1.code = true := by cases relation.1 <;> decide
  rw [relationText, List.mem_append, List.mem_cons] at h
  rcases h with name | colon | inCode
  · exact .inl ((isIdentifier_iff.1 relation.2.valid).2 c name)
  · exact .inr colon
  · exact .inl ((isIdentifier_iff.1 code).2 c inCode)

/-! ## Headers -/

/-- The header of a named entity with relations, as printed. -/
def headerText (name : EntityName) (relations : List (RelationKind × EntityName)) : Text :=
  name.text.toList ++ relations.flatMap (' ' :: relationText ·)

variable {name : EntityName} {relations : List (RelationKind × EntityName)}

/-- The words of a printed header are the name and the relations. -/
theorem words_headerText :
    (headerText name relations).words = name.text.toList :: relations.map relationText := by
  have letters : ∀ c ∈ name.text.toList, isSeparator c = false := fun c hc =>
    isSeparator_of_isIdentifierChar ((isIdentifier_iff.1 name.valid).2 c hc)
  rw [headerText, ← List.flatMap_map relationText (' ' :: ·)]
  apply words_append_flatMap
  rw [List.forall_mem_cons, List.forall_mem_map]
  refine ⟨⟨(isIdentifier_iff.1 name.valid).1, letters⟩, fun relation _ => ⟨by simp [relationText],
    fun c hc => ?_⟩⟩
  rcases isIdentifierChar_or_of_mem_relationText hc with identifier | rfl
  · exact isSeparator_of_isIdentifierChar identifier
  · decide

/-- The characters of a printed header are those of identifiers, colons and spaces. -/
theorem isIdentifierChar_or_of_mem_headerText {c : Char} (h : c ∈ headerText name relations) :
    isIdentifierChar c = true ∨ c = ':' ∨ c = ' ' := by
  rw [headerText, List.mem_append, List.mem_flatMap] at h
  rcases h with inName | ⟨relation, -, inside⟩
  · exact .inl ((isIdentifier_iff.1 name.valid).2 c inName)
  · rcases List.mem_cons.1 inside with rfl | inWord
    · exact .inr (.inr rfl)
    · exact (isIdentifierChar_or_of_mem_relationText inWord).imp_right .inl

/-- A printed header is a trimmed text. -/
theorem trim_headerText : Text.trim (headerText name relations) = headerText name relations := by
  rw [trim_eq_self_iff, ← trimEnd_eq_self_iff]
  constructor
  · exact isBlank_head_of_isIdentifier name.valid _
  · rw [headerText]
    rcases List.eq_nil_or_concat' relations with rfl | ⟨front, last, rfl⟩
    · rw [List.flatMap_nil, List.append_nil]
      exact trimEnd_of_trim (trim_of_isIdentifier name.valid)
    · have code : isIdentifier last.1.code = true := by cases last.1 <;> decide
      rw [List.flatMap_append, List.flatMap_singleton, ← List.append_assoc]
      refine trimEnd_append_of_ne_nil (List.cons_ne_nil _ _) ?_ _
      exact trimEnd_append_cons (by decide) (trimEnd_of_trim (trim_of_isIdentifier code))
        (' ' :: last.2.text.toList)

/-- A header is read from the line that is printed for it. -/
theorem Header.ofLine_of_content {line : SourceLine}
    (h : line.content = headerText name relations) :
    ∃ header, ofLine line = .ok header ∧ header.name = name ∧
      header.relations.map RelationWord.relation = relations :=
  ofLine_of_words (by rw [h, words_headerText])

end EntitySchema
