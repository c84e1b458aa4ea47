import EntitySchema.Proofs.Source.FieldReading
import EntitySchema.Proofs.Source.HeaderReading
import EntitySchema.Proofs.Source.TokenPlaces

/-! # The errors of a line and where they point

A line is refused for what stands on it: for its whole definition, for one part of the definition
between colons, or for one word of a header. The error tells the number of the line, its span holds
that text, and its cause names it. -/

namespace EntitySchema

open Text

/-- The parts of the definition on a field line between its colons. -/
def SourceLine.parts (line : SourceLine) : List Text := line.definition.splitOn ':'

/-- Whether a cause is about a text that stands on a line. -/
def Cause.IsAbout (line : SourceLine) (text : Text) : Cause → Prop
  | .unknownToken => False
  | .orphanField => text = line.content
  | .missingType field =>
    (text = line.definition ∨ line.parts[1]? = some text) ∧
      line.parts.head?.map trim = some field.toList
  | .unknownProperty property => text ∈ line.parts.drop 2 ∧ text.trim = property.toList
  | .unknownRelation target code =>
    text ∈ line.content.words.tail ∧ ':' ∉ target.toList ∧
      (text = target.toList ++ ':' :: code.toList ∨ text = target.toList ∧ code = "")
  | .unresolvedReference _ _ => False
  | .duplicateField _ field =>
    text = line.definition ∧ line.parts.head?.map trim = some field.toList
  | .duplicateEntity name => line.content.words.head? = some text ∧ text = name.toList
  | .refused (.fieldName name) => line.parts.head? = some text ∧ text.trim = name.toList
  | .refused (.entityName name) =>
    line.content.words.head? = some text ∧ text = name.toList ∨
      text ∈ line.content.words.tail ∧
        ∃ kind : RelationKind, text = name.toList ++ ':' :: kind.code.toList
  | .refused _ => False

/-- Whether an error has the number of a line and points to the text on it that it is about. -/
def SourceError.PointsAt (error : SourceError) (line : SourceLine) : Prop :=
  error.line = line.number ∧ ∃ text, error.span.Holds line.contentStart line.content text ∧
    error.cause.IsAbout line text

/-- Whether a cause lies in what stands on a line, whatever was declared on the lines before. -/
def Cause.IsGrammatical : Cause → Prop
  | .unknownToken | .missingType _ | .unknownProperty _ | .unknownRelation _ _ | .refused _ => True
  | .orphanField | .duplicateField _ _ | .duplicateEntity _ | .unresolvedReference _ _ => False

/-! ## Field lines -/

/-- The definition stands at the front of a line. -/
theorem SourceLine.definition_prefix_content (line : SourceLine) :
    line.definition <+: line.content :=
  (trimEnd_prefix_self _).trans (cutAtArrow_prefix_self _)

/-- A name is refused when the text is no identifier, and then it is the text that is refused. -/
theorem FieldName.eq_of_ofString_eq_error {text : String} {defect : Defect}
    (h : ofString text = .error defect) : defect = .fieldName text := by
  rw [ofString] at h
  split at h
  · cases h
  · exact (Except.error.inj h).symm

namespace FieldLine

variable {number : Nat} {error : SourceError}

/-- A segment that names no property is refused as it stands. -/
theorem eq_of_addProperty_eq_error {properties : PropertySet} {segment : Segment}
    (h : addProperty number properties segment = .error error) :
    error = ⟨.unknownProperty (String.ofList segment.text.trim), number, segment.span⟩ := by
  rw [addProperty] at h
  split at h
  · cases h
  · exact (Except.error.inj h).symm

/-- Segments are refused for want of a type, for the name in the first of them, for an empty type in
the second, or for one of the others. -/
theorem fieldOfSegments_eq_error {span : Span} {rules : List String} {first : Segment}
    {others : List Segment} (h : fieldOfSegments number span rules (first, others) = .error error) :
    let name := String.ofList first.text.trim
    (others = [] ∧ error = ⟨.missingType name, number, span⟩) ∨
      error = ⟨.refused (.fieldName name), number, first.span⟩ ∨
      (∃ typed rest, others = typed :: rest ∧ error = ⟨.missingType name, number, typed.span⟩) ∨
      ∃ segment ∈ others.drop 1,
        error = ⟨.unknownProperty (String.ofList segment.text.trim), number, segment.span⟩ := by
  cases others with
  | nil => exact .inl ⟨rfl, (Except.error.inj h).symm⟩
  | cons typed properties =>
    simp only [fieldOfSegments, Outcome.bind_eq_error_iff, Outcome.mapError_eq_error_iff] at h
    rcases h with ⟨defect, refused, rfl⟩ | ⟨name, -, h⟩
    · rw [FieldName.eq_of_ofString_eq_error refused]
      exact .inr (.inl rfl)
    · by_cases empty : (String.ofList typed.pieces.1.trim).isEmpty = true
      · rw [if_pos empty] at h
        exact .inr (.inr (.inl ⟨typed, properties, rfl, (Except.error.inj h).symm⟩))
      · rw [if_neg empty] at h
        simp only [Outcome.bind_eq_error_iff, Outcome.mapError_eq_error_iff] at h
        rcases h with ⟨defect, refused, -⟩ | ⟨field, -, failed | ⟨set, -, absurd⟩⟩
        · -- the type is not empty, so the field can be declared
          rw [Field.declare, if_neg empty] at refused
          cases refused
        · obtain ⟨segment, inside, properties, unknown⟩ :=
            Outcome.exists_of_foldlM_eq_error failed
          exact .inr (.inr (.inr ⟨segment, inside, eq_of_addProperty_eq_error unknown⟩))
        · cases absurd

/-- A field line that is refused is refused for its segments, whose texts are the parts of its
definition between colons. -/
theorem exists_segments_of_ofLine_eq_error {line : SourceLine} (h : ofLine line = .error error) :
    ∃ tokens first others,
      definitionTokens line.definition line.contentStart line.number = .ok tokens ∧
        Segment.group line.contentStart tokens = (first, others) ∧
        line.parts = first.text :: others.map Segment.text ∧
        fieldOfSegments line.number (.ofText line.contentStart line.definition) line.rules
          (first, others) = .error error := by
  have word : line.content ≠ timestampsWord.toList := by
    intro word
    rw [ofLine_eq_timestamps_iff.2 word] at h
    cases h
  obtain ⟨tokens, first, others, found, grouped, texts, -⟩ :=
    exists_segments line.definition line.contentStart line.number
  have parts : line.parts = first.text :: others.map Segment.text := by
    rw [SourceLine.parts, ← texts, List.map_cons]
  refine ⟨tokens, first, others, found, grouped, parts, ?_⟩
  rw [ofLine_of_ne word, found] at h
  rcases Outcome.bind_eq_error_iff.1 h with absurd | ⟨_, same, h⟩
  · cases absurd
  · cases same
    rcases Outcome.bind_eq_error_iff.1 h with failed | ⟨field, -, absurd⟩
    · rwa [grouped] at failed
    · cases absurd

/-- A field line that is refused is refused for its definition or for one part of it. -/
theorem pointsAt_of_ofLine {line : SourceLine} (h : ofLine line = .error error) :
    error.PointsAt line := by
  obtain ⟨tokens, first, others, found, grouped, parts, refused⟩ :=
    exists_segments_of_ofLine_eq_error h
  -- every segment is held in the definition
  have held : ∀ segment ∈ first :: others,
      segment.span.Holds line.contentStart line.content segment.text := by
    intro segment inside
    have places := span_holds_of_definitionTokens found
    rw [grouped] at places
    obtain ⟨rest, whole⟩ := line.definition_prefix_content
    rw [← whole]
    exact (places segment inside).append_right rest
  rcases fieldOfSegments_eq_error refused with
    ⟨-, rfl⟩ | rfl | ⟨typed, rest, rfl, rfl⟩ | ⟨segment, inside, rfl⟩
  · refine ⟨rfl, line.definition, Span.holds_of_prefix line.definition_prefix_content, ?_⟩
    exact ⟨.inl rfl, by rw [parts, String.toList_ofList]; rfl⟩
  · refine ⟨rfl, first.text, held first List.mem_cons_self, ?_⟩
    exact ⟨by rw [parts]; rfl, String.toList_ofList.symm⟩
  · refine ⟨rfl, typed.text, held typed (List.mem_cons_of_mem _ List.mem_cons_self), ?_⟩
    exact ⟨.inr (by rw [parts]; rfl), by rw [parts, String.toList_ofList]; rfl⟩
  · have member : segment ∈ first :: others :=
      List.mem_cons_of_mem _ (List.mem_of_mem_drop inside)
    refine ⟨rfl, segment.text, held segment member, ?_, String.toList_ofList.symm⟩
    rw [parts, List.drop_succ_cons, ← List.map_drop]
    exact List.mem_map_of_mem inside

/-- A field line is read or refused whatever was declared before it. -/
theorem isGrammatical_of_ofLine {line : SourceLine} (h : ofLine line = .error error) :
    error.cause.IsGrammatical := by
  obtain ⟨tokens, first, others, -, -, -, refused⟩ := exists_segments_of_ofLine_eq_error h
  rcases fieldOfSegments_eq_error refused with
    ⟨-, rfl⟩ | rfl | ⟨typed, rest, -, rfl⟩ | ⟨segment, -, rfl⟩ <;> exact trivial

end FieldLine

/-! ## Headers -/

/-- Every character that separates words is blank. -/
theorem isBlank_of_isSeparator {c : Char} (h : isSeparator c = true) : Text.isBlank c = true := by
  simp only [isSeparator, Bool.or_eq_true, beq_iff_eq] at h
  rcases h with ((rfl | rfl) | rfl) | rfl <;> decide

/-- A line that is not blank has a word. -/
theorem SourceLine.words_content_ne_nil {line : SourceLine} (h : line.isBlank = false) :
    line.content.words ≠ [] := by
  obtain ⟨first, others, text⟩ : ∃ first others, line.content = first :: others := by
    apply List.exists_cons_of_ne_nil
    intro empty
    rw [isBlank, ← content, empty] at h
    cases h
  -- the first character is not blank, so a word begins with it
  have front : Text.isBlank first = false :=
    (trim_eq_self_iff.1 (trim_trim line.text)).1 first (by rw [← content, text]; rfl)
  have letter : isSeparator first = false := by
    rw [Bool.eq_false_iff]
    intro separator
    rw [isBlank_of_isSeparator separator] at front
    cases front
  obtain ⟨run, rest, rfl, -, letters, ends⟩ := exists_run (!isSeparator ·) others
  rw [text, ← List.cons_append, words_append_of_not_isSeparator (List.cons_ne_nil first run)]
  · exact List.cons_ne_nil _ _
  · rw [List.forall_mem_cons]
    exact ⟨letter, by simpa using letters⟩
  · simpa using ends

/-- A word is refused for its code when that is unknown, and else for the name before its code. -/
theorem RelationWord.eq_of_ofToken_eq_error {number : Nat} {word : Token HeaderToken}
    {error : SourceError} (h : ofToken number word = .error error) :
    error.line = number ∧ error.span = word.span ∧
      ((∃ target code : String, error.cause = .unknownRelation target code ∧
          ':' ∉ target.toList ∧ (word.text = target.toList ++ ':' :: code.toList ∨
            word.text = target.toList ∧ code = "")) ∨
        ∃ (name : String) (kind : RelationKind), error.cause = .refused (.entityName name) ∧
          word.text = name.toList ++ ':' :: kind.code.toList) := by
  rcases ofToken_cases number word with
    ⟨target, code, plain, text, refused⟩ | ⟨name, kind, text, refused⟩ | ⟨relation, -, read⟩
  · obtain rfl := Except.error.inj (refused.symm.trans h)
    exact ⟨rfl, rfl, .inl ⟨target, code, rfl, plain, text⟩⟩
  · obtain rfl := Except.error.inj (refused.symm.trans h)
    exact ⟨rfl, rfl, .inr ⟨name, kind, rfl, text⟩⟩
  · rw [read] at h
    cases h

namespace Header

variable {line : SourceLine}

/-- The words of a line, each held by its span. -/
theorem exists_words (line : SourceLine) :
    ∃ words, headerTokens line.content line.contentStart line.number = .ok words ∧
      words.map (·.text) = line.content.words ∧
      ∀ word ∈ words, word.span.Holds line.contentStart line.content word.text := by
  obtain ⟨words, found, texts⟩ := headerTokens_eq_ok line.content line.contentStart line.number
  exact ⟨words, found, texts, span_holds_of_headerTokens found⟩

/-- The name of a header is the first word of its line. -/
theorem nameSpan_holds_of_ofLine {header : Header} (h : ofLine line = .ok header) :
    line.content.words.head? = some header.name.text.toList ∧
      header.nameSpan.Holds line.contentStart line.content header.name.text.toList := by
  obtain ⟨first, others, found, text, place, -⟩ := exists_tokens_of_ofLine h
  have held := span_holds_of_headerTokens found first List.mem_cons_self
  rw [← map_text_of_headerTokens found, ← text, place]
  exact ⟨rfl, held⟩

/-- A header that is refused is refused for its words. -/
theorem exists_words_of_ofLine_eq_error {error : SourceError} (h : ofLine line = .error error) :
    ∃ words, words.map (·.text) = line.content.words ∧
      (∀ word ∈ words, word.span.Holds line.contentStart line.content word.text) ∧
      ofTokens line.number line.contentStart words = .error error := by
  obtain ⟨words, found, texts, held⟩ := exists_words line
  refine ⟨words, texts, held, ?_⟩
  rw [ofLine, found] at h
  rcases Outcome.bind_eq_error_iff.1 h with absurd | ⟨_, same, failed⟩
  · cases absurd
  · cases same
    exact failed

/-- Words are refused for the name that is the first of them, or for a relation among the others. -/
theorem ofTokens_eq_error {number start : Nat} {first : Token HeaderToken}
    {others : List (Token HeaderToken)} {error : SourceError}
    (h : ofTokens number start (first :: others) = .error error) :
    error = ⟨.refused (.entityName (String.ofList first.text)), number, first.span⟩ ∨
      ∃ word ∈ others, RelationWord.ofToken number word = .error error := by
  simp only [ofTokens, Outcome.bind_eq_error_iff, Outcome.mapError_eq_error_iff] at h
  rcases h with ⟨defect, named, rfl⟩ | ⟨name, -, failed | ⟨relations, -, absurd⟩⟩
  · obtain rfl := EntityName.eq_of_ofString_eq_error named
    exact .inl rfl
  · exact .inr (Outcome.exists_of_mapM_eq_error failed)
  · cases absurd

/-- A header is read or refused whatever was declared before it. -/
theorem isGrammatical_of_ofLine {error : SourceError} (h : ofLine line = .error error) :
    error.cause.IsGrammatical := by
  obtain ⟨words, -, -, refused⟩ := exists_words_of_ofLine_eq_error h
  cases words with
  | nil =>
    obtain rfl := Except.error.inj refused
    exact trivial
  | cons first others =>
    rcases ofTokens_eq_error refused with rfl | ⟨word, -, wrong⟩
    · exact trivial
    · obtain ⟨-, -, ⟨target, code, cause, -⟩ | ⟨name, kind, cause, -⟩⟩ :=
        RelationWord.eq_of_ofToken_eq_error wrong
      · rw [cause]
        exact trivial
      · rw [cause]
        exact trivial

/-- A header that is refused is refused for one of its words. -/
theorem pointsAt_of_ofLine {error : SourceError} (blank : line.isBlank = false)
    (h : ofLine line = .error error) : error.PointsAt line := by
  obtain ⟨words, texts, held, refused⟩ := exists_words_of_ofLine_eq_error h
  cases words with
  | nil => exact absurd texts.symm (line.words_content_ne_nil blank)
  | cons first others =>
    have tail : others.map (·.text) = line.content.words.tail := by
      rw [← texts]
      rfl
    rcases ofTokens_eq_error refused with rfl | ⟨word, inside, wrong⟩
    · refine ⟨rfl, first.text, held first List.mem_cons_self, .inl ⟨?_, ?_⟩⟩
      · rw [← texts]
        rfl
      · rw [String.toList_ofList]
    · obtain ⟨numbered, place, about⟩ := RelationWord.eq_of_ofToken_eq_error wrong
      have member : word.text ∈ line.content.words.tail := by
        rw [← tail]
        exact List.mem_map_of_mem inside
      refine ⟨numbered, word.text, ?_, ?_⟩
      · rw [place]
        exact held word (List.mem_cons_of_mem first inside)
      · rcases about with ⟨target, code, cause, plain, text⟩ | ⟨name, kind, cause, text⟩
        · rw [cause]
          exact ⟨member, plain, text⟩
        · rw [cause]
          exact .inr ⟨member, kind, text⟩

end Header

end EntitySchema
