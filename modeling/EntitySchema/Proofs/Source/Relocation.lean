import EntitySchema.Proofs.Source.FieldReading
import EntitySchema.Proofs.Source.HeaderReading

/-! # Lines that are read in another place

The places of tokens are carried along when a line is read, and never looked at. So when every place
is moved, the same is read: a field, a header or the cause of an error, with its spans moved. A line
of any number that begins at any offset is therefore read as its text is read on a first line, with
every span moved by that offset. What is read depends on the content of the line alone, and of a
header on the texts of its words alone. -/

namespace EntitySchema

open Text

/-! ## Moving what has a place -/

/-- The span whose ends are moved. -/
def Span.moved (place : Nat → Nat) (span : Span) : Span := ⟨place span.start, place span.stop⟩

/-- The token in the place to which it is moved. -/
def Token.moved {κ : Type} (place : Nat → Nat) (token : Token κ) : Token κ :=
  { token with span := token.span.moved place }

/-- The segment of the moved tokens. -/
def Segment.moved (place : Nat → Nat) (segment : Segment) : Segment :=
  ⟨segment.tokens.map (Token.moved place), segment.span.moved place⟩

/-- What a field line says, with its definition moved. -/
def FieldLine.moved (place : Nat → Nat) : FieldLine → FieldLine
  | .timestamps => .timestamps
  | .column field span => .column field (span.moved place)

/-- The relation whose word is moved. -/
def RelationWord.moved (place : Nat → Nat) (word : RelationWord) : RelationWord :=
  { word with span := word.span.moved place }

/-- The header whose words are moved. -/
def Header.moved (place : Nat → Nat) (header : Header) : Header :=
  ⟨header.name, header.nameSpan.moved place, header.relations.map (RelationWord.moved place)⟩

/-- The error of the same cause on another line, to which its span is moved. -/
def SourceError.moved (place : Nat → Nat) (line : Nat) (error : SourceError) : SourceError :=
  ⟨error.cause, line, error.span.moved place⟩

/-- An outcome with its value changed, or with its error moved to another line. -/
def Outcome.moved {α β : Type} (place : Nat → Nat) (line : Nat) (change : α → β) :
    Except SourceError α → Except SourceError β
  | .ok value => .ok (change value)
  | .error error => .error (error.moved place line)

namespace Outcome

variable {α β γ δ : Type} {place : Nat → Nat} {line : Nat}

/-- When two steps are moved, the second goes on with the value that the first was given. -/
theorem moved_bind {change : α → γ} {last : β → δ} {first : Except SourceError α}
    {next : α → Except SourceError β} {after : γ → Except SourceError δ}
    (h : ∀ value, after (change value) = moved place line last (next value)) :
    (moved place line change first >>= after) = moved place line last (first >>= next) := by
  cases first with
  | error error => rfl
  | ok value => exact h value

/-- Moving twice is moving once, by one way after the other. -/
theorem moved_moved (before : Nat → Nat) (number : Nat) (start : α → β) (change : β → γ)
    (outcome : Except SourceError α) :
    moved place line change (moved before number start outcome) =
      moved (place ∘ before) line (change ∘ start) outcome := by
  cases outcome <;> rfl

/-- Outcomes that are the same but for places have the same value, but for its places, or errors of
the same cause. -/
theorem cases_of_moved_eq {change : α → β} {outcome other : Except SourceError α}
    (h : moved place line change outcome = moved place line change other) :
    (∃ value twin, outcome = .ok value ∧ other = .ok twin ∧ change value = change twin) ∨
      ∃ error twin, outcome = .error error ∧ other = .error twin ∧ error.cause = twin.cause := by
  cases outcome with
  | error error =>
    cases other with
    | error twin =>
      have moved : error.moved place line = twin.moved place line := Except.error.inj h
      exact .inr ⟨error, twin, rfl, rfl, (SourceError.mk.inj moved).1⟩
    | ok twin => cases h
  | ok value =>
    cases other with
    | error twin => cases h
    | ok twin => exact .inl ⟨value, twin, rfl, rfl, Except.ok.inj h⟩

end Outcome

variable {place : Nat → Nat}

/-! ## Tokens -/

@[simp] theorem Token.text_moved {κ : Type} (token : Token κ) :
    (token.moved place).text = token.text := rfl

/-- A text that begins later has its span moved by as much. -/
theorem Span.ofText_add (start shift : Nat) (text : Text) :
    ofText (start + shift) text = (ofText start text).moved (· + shift) := by
  simp only [ofText, moved, Nat.add_right_comm]

/-- A text that begins later has its tokens, or the place that fits none, moved by as much. -/
theorem Lexicon.scan_add {κ : Type} (lexicon : Lexicon κ) (offset shift : Nat) (text : Text) :
    lexicon.scan (offset + shift) text =
      ((lexicon.scan offset text).map (List.map (Token.moved (· + shift)))).mapError
        (Span.moved (· + shift)) := by
  induction length : text.length using Nat.strong_induction_on generalizing offset text with
  | _ count ih =>
    cases text with
    | nil =>
      rw [scan_nil, scan_nil]
      rfl
    | cons first rest =>
      rw [scan, scan]
      cases lexicon.longest? first rest with
      | none =>
        dsimp only
        rw [Span.ofText_add]
        rfl
      | some found =>
        obtain ⟨kind, extent⟩ := found
        have shorter : (rest.drop extent).length < count := by
          rw [← length, List.length_drop, List.length_cons]
          omega
        have later := ih _ shorter (Span.ofText offset (first :: rest.take extent)).stop _ rfl
        dsimp only
        rw [Span.ofText_add]
        dsimp only [Span.moved]
        rw [later]
        cases lexicon.scan (Span.ofText offset (first :: rest.take extent)).stop
            (rest.drop extent) with
        | error place => rfl
        | ok tokens => cases kind <;> rfl

/-- Tokens that begin later, on another line, are moved, and so is the error where none fits. -/
theorem Lexicon.mapError_scan_add {κ : Type} (lexicon : Lexicon κ) (cause : Cause) (text : Text)
    (offset shift number line : Nat) :
    ((lexicon.scan (offset + shift) text).mapError fun span => ⟨cause, line, span⟩) =
      Outcome.moved (· + shift) line (List.map (Token.moved (· + shift)))
        ((lexicon.scan offset text).mapError fun span => ⟨cause, number, span⟩) := by
  rw [scan_add]
  cases lexicon.scan offset text <;> rfl

/-- A definition that begins later, on another line, has its tokens moved. -/
theorem definitionTokens_add (text : Text) (offset shift number line : Nat) :
    definitionTokens text (offset + shift) line =
      Outcome.moved (· + shift) line (List.map (Token.moved (· + shift)))
        (definitionTokens text offset number) :=
  definitionLexicon.mapError_scan_add .unknownToken text offset shift number line

/-- A header that begins later, on another line, has its words moved. -/
theorem headerTokens_add (text : Text) (offset shift number line : Nat) :
    headerTokens text (offset + shift) line =
      Outcome.moved (· + shift) line (List.map (Token.moved (· + shift)))
        (headerTokens text offset number) :=
  headerLexicon.mapError_scan_add .unknownToken text offset shift number line

/-! ## Lines at the front -/

/-- The content of a line, on a line at the front of a source. -/
def SourceLine.atFront (line : SourceLine) : SourceLine := ⟨1, 0, line.content⟩

@[simp] theorem SourceLine.content_atFront (line : SourceLine) :
    line.atFront.content = line.content :=
  trim_trim line.text

@[simp] theorem SourceLine.contentStart_atFront (line : SourceLine) :
    line.atFront.contentStart = 0 := by
  have front := (trim_eq_self_iff.1 (trim_trim line.text)).1
  have none : line.content.takeWhile Text.isBlank = [] := by
    rw [content]
    cases content : trim line.text with
    | nil => rfl
    | cons first rest =>
      have kept : Text.isBlank first = false := front first (by rw [content]; rfl)
      exact List.takeWhile_cons_of_neg (by simp [kept])
  rw [contentStart, atFront, none]
  rfl

/-! ## Segments -/

namespace Segment

@[simp] theorem text_moved (segment : Segment) : (segment.moved place).text = segment.text := by
  simp only [text, moved, List.flatMap_map, Token.moved]

/-- Moved tokens are grouped into moved segments. -/
theorem group_moved (place : Nat → Nat) (offset : Nat) (tokens : List (Token DefinitionToken)) :
    group (place offset) (tokens.map (Token.moved place)) =
      ((group offset tokens).1.moved place, (group offset tokens).2.map (moved place)) := by
  induction tokens generalizing offset with
  | nil => rfl
  | cons token rest ih =>
    have later := ih token.span.stop
    by_cases colon : token.kind = .colon
    · have kind : (token.moved place).kind = .colon := colon
      rw [List.map_cons, group_cons_of_colon kind, group_cons_of_colon colon]
      simp only [Token.moved, Span.moved] at later ⊢
      rw [later]
      rfl
    · have kind : (token.moved place).kind ≠ .colon := colon
      rw [List.map_cons, group_cons_of_ne_colon kind, group_cons_of_ne_colon colon]
      simp only [Token.moved, Span.moved] at later ⊢
      rw [later]
      rfl

/-- Moved tokens have the same pieces. -/
@[simp] theorem pieces_moved (segment : Segment) :
    (segment.moved place).pieces = segment.pieces := by
  rw [pieces, pieces, moved]
  induction segment.tokens with
  | nil => rfl
  | cons token rest ih =>
    rw [List.map_cons]
    by_cases comma : token.kind = .comma
    · have kind : (token.moved place).kind = .comma := comma
      rw [splitPieces_cons_of_comma kind, splitPieces_cons_of_comma comma, ih]
    · have kind : (token.moved place).kind ≠ .comma := comma
      rw [splitPieces_cons_of_ne_comma kind, splitPieces_cons_of_ne_comma comma, ih]
      rfl

end Segment

/-! ## Field lines -/

namespace FieldLine

/-- A moved segment adds the property that it names. -/
theorem addProperty_moved (number line : Nat) (properties : PropertySet) (segment : Segment) :
    addProperty line properties (segment.moved place) =
      Outcome.moved place line id (addProperty number properties segment) := by
  rw [addProperty, addProperty, Segment.text_moved]
  split <;> rfl

/-- Moved segments add the properties that they name. -/
theorem foldlM_addProperty_moved (number line : Nat) (properties : PropertySet)
    (segments : List Segment) :
    (segments.map (Segment.moved place)).foldlM (addProperty line) properties =
      Outcome.moved place line id (segments.foldlM (addProperty number) properties) := by
  induction segments generalizing properties with
  | nil => rfl
  | cons segment rest ih =>
    rw [List.map_cons, List.foldlM_cons, List.foldlM_cons, addProperty_moved number]
    exact Outcome.moved_bind ih

/-- Moved segments are read as the same field. -/
theorem fieldOfSegments_moved (number line : Nat) (span : Span) (rules : List String)
    (first : Segment) (others : List Segment) :
    fieldOfSegments line (span.moved place) rules
        (first.moved place, others.map (Segment.moved place)) =
      Outcome.moved place line id (fieldOfSegments number span rules (first, others)) := by
  cases others with
  | nil =>
    rw [List.map_nil, fieldOfSegments, fieldOfSegments, Segment.text_moved]
    rfl
  | cons typed properties =>
    simp only [List.map_cons, fieldOfSegments, Segment.text_moved, Segment.pieces_moved]
    cases FieldName.ofString (String.ofList first.text.trim) with
    | error defect => rfl
    | ok name =>
      dsimp only [Except.mapError, bind, Except.bind]
      split
      · rfl
      · cases Field.declare name (String.ofList typed.pieces.1.trim) with
        | error defect => rfl
        | ok field =>
          rw [foldlM_addProperty_moved number]
          cases List.foldlM (addProperty number) PropertySet.empty properties <;> rfl

/-- A line whose content stands later than on another line is read as that line, with every place
moved by as much. -/
theorem ofLine_shifted {line other : SourceLine} {shift : Nat}
    (content : line.content = other.content)
    (start : line.contentStart = other.contentStart + shift) :
    ofLine line =
      Outcome.moved (· + shift) line.number (moved (· + shift)) (ofLine other) := by
  by_cases word : other.content = timestampsWord.toList
  · -- the word for timestamps is read without a place
    rw [ofLine_eq_timestamps_iff.2 word, ofLine_eq_timestamps_iff.2 (content.trans word)]
    rfl
  · -- the definition and the rules are the same, and the tokens of the definition are moved
    have different : line.content ≠ timestampsWord.toList := by rwa [content]
    have definition : line.definition = other.definition := by
      rw [SourceLine.definition, content, ← SourceLine.definition]
    have rules : line.rules = other.rules := by
      rw [SourceLine.rules, content, ← SourceLine.rules]
    rw [ofLine_of_ne different, ofLine_of_ne word, definition, rules, start,
      definitionTokens_add other.definition other.contentStart shift other.number,
      Span.ofText_add]
    refine Outcome.moved_bind fun tokens => ?_
    have groups := Segment.group_moved (· + shift) other.contentStart tokens
    dsimp only at groups ⊢
    rw [groups]
    refine (congrArg (· >>= _) (fieldOfSegments_moved other.number _ _ _ _ _)).trans ?_
    exact Outcome.moved_bind fun field => rfl

/-- A line is read at the place of its content as this content is read at the front of a source. -/
theorem ofLine_eq_moved (line : SourceLine) :
    ofLine line = Outcome.moved (· + line.contentStart) line.number
      (moved (· + line.contentStart)) (ofLine line.atFront) :=
  ofLine_shifted line.content_atFront.symm
    (by rw [SourceLine.contentStart_atFront, Nat.zero_add])

/-- Whatever its place, the content of a line decides what is read or why it is refused. -/
theorem moved_ofLine_of_content_eq {line other : SourceLine} (same : line.content = other.content) :
    Outcome.moved (fun _ => 0) 0 (moved fun _ => 0) (ofLine line) =
      Outcome.moved (fun _ => 0) 0 (moved fun _ => 0) (ofLine other) := by
  have front : line.atFront = other.atFront := by rw [SourceLine.atFront, same, SourceLine.atFront]
  rw [ofLine_eq_moved line, ofLine_eq_moved other, front, Outcome.moved_moved, Outcome.moved_moved]
  -- once every place is the same, it does not matter where it was before
  congr 1
  funext content
  cases content <;> rfl

end FieldLine

/-! ## Headers -/

namespace RelationWord

/-- A moved word is read as the same relation. -/
theorem ofToken_moved (number line : Nat) (word : Token HeaderToken) :
    ofToken line (word.moved place) =
      Outcome.moved place line (moved place) (ofToken number word) := by
  simp only [ofToken, Token.moved]
  split
  · rfl
  · split <;> rfl

/-- Moved words are read as the same relations. -/
theorem mapM_ofToken_moved (number line : Nat) (words : List (Token HeaderToken)) :
    (words.map (Token.moved place)).mapM (ofToken line) =
      Outcome.moved place line (List.map (moved place)) (words.mapM (ofToken number)) := by
  induction words with
  | nil => rfl
  | cons word rest ih =>
    rw [List.map_cons, List.mapM_cons, List.mapM_cons, ofToken_moved number, ih]
    refine Outcome.moved_bind fun first => ?_
    exact Outcome.moved_bind fun others => rfl

end RelationWord

namespace Header

/-- Moved words are read as the same header. -/
theorem ofTokens_moved (number line start : Nat) (words : List (Token HeaderToken)) :
    ofTokens line (place start) (words.map (Token.moved place)) =
      Outcome.moved place line (moved place) (ofTokens number start words) := by
  cases words with
  | nil => rfl
  | cons first others =>
    rw [List.map_cons, ofTokens, ofTokens, RelationWord.mapM_ofToken_moved number, Token.text_moved]
    cases EntityName.ofString (String.ofList first.text) with
    | error defect => rfl
    | ok name => exact Outcome.moved_bind fun relations => rfl

/-- A line whose content stands later than on another line is read as the header on that line, with
every place moved by as much. -/
theorem ofLine_shifted {line other : SourceLine} {shift : Nat}
    (content : line.content = other.content)
    (start : line.contentStart = other.contentStart + shift) :
    ofLine line =
      Outcome.moved (· + shift) line.number (moved (· + shift)) (ofLine other) := by
  rw [ofLine, ofLine, content, start,
    headerTokens_add other.content other.contentStart shift other.number]
  refine Outcome.moved_bind fun words => ?_
  exact ofTokens_moved other.number line.number other.contentStart words

/-- Whatever their places, the words on a line decide what is read or why it is refused. -/
theorem moved_ofLine_of_words_eq {line other : SourceLine}
    (same : line.content.words = other.content.words) :
    Outcome.moved (fun _ => 0) 0 (moved fun _ => 0) (ofLine line) =
      Outcome.moved (fun _ => 0) 0 (moved fun _ => 0) (ofLine other) := by
  -- with every place the same, nothing is left of the tokens of a header but their texts
  have plain : ∀ line : SourceLine,
      Outcome.moved (fun _ => 0) 0 (moved fun _ => 0) (ofLine line) =
        ofTokens 0 0 (line.content.words.map fun text => ⟨.word, .emptyAt 0, text⟩) := by
    intro line
    obtain ⟨words, found, texts⟩ := headerTokens_eq_ok line.content line.contentStart line.number
    rw [ofLine, found, ← texts, List.map_map]
    exact (ofTokens_moved line.number 0 line.contentStart words).symm
  rw [plain line, plain other, same]

end Header

/-! ## Lines of any number, at any offset -/

/-- The content of a line begins later by as much as the line does. -/
theorem SourceLine.contentStart_add (number other offset shift : Nat) (text : Text) :
    contentStart ⟨number, offset + shift, text⟩ = contentStart ⟨other, offset, text⟩ + shift :=
  Nat.add_right_comm offset shift _

/-- A line of any number, at any offset, is read as a field or as a header in the way its text is
read on a first line: as the same value with its spans moved by the offset, or with an error of the
same cause, on the line of that number, with its span moved by the offset. -/
theorem SourceLine.readings_moved (number offset : Nat) (text : Text) :
    FieldLine.ofLine ⟨number, offset, text⟩ =
        Outcome.moved (· + offset) number (FieldLine.moved (· + offset))
          (FieldLine.ofLine ⟨1, 0, text⟩) ∧
      Header.ofLine ⟨number, offset, text⟩ =
        Outcome.moved (· + offset) number (Header.moved (· + offset))
          (Header.ofLine ⟨1, 0, text⟩) := by
  have content : content ⟨number, offset, text⟩ = content ⟨1, 0, text⟩ := rfl
  have start := contentStart_add number 1 0 offset text
  rw [Nat.zero_add] at start
  exact ⟨FieldLine.ofLine_shifted content start, Header.ofLine_shifted content start⟩

example : Header.ofLine ⟨3, 20, "User Post:xx".toList⟩ =
    .error ⟨.unknownRelation "Post" "xx", 3, ⟨25, 32⟩⟩ := by decide +kernel

end EntitySchema
