import EntitySchema.Proofs.Checked.Plurals
import EntitySchema.Proofs.Checked.Segments
import EntitySchema.Proofs.Source.TokenPlaces
import EntitySchema.Source.Header

/-! # Lines whose accesses are checked

The grammars of the two kinds of line take the indentation from the lengths of the line and of its
trimmed text, cut the text of every token out of the line by the range that was scanned, cut a field
line at its arrow, and access the segments of a definition by position. Not one of these accesses
misses, whatever is on the line. -/

namespace EntitySchema

open Checked

/-! ## Where the text of a line begins -/

namespace SourceLine

/-- The byte offset in the source at which the trimmed text begins, from the lengths of the line and
of the line without its indentation. -/
def contentStart? (line : SourceLine) : Option Nat :=
  (minus? line.text.byteLength line.text.trimStart.byteLength).map (line.offset + ·)

/-- The place of the trimmed text in the source. -/
def contentSpan? (line : SourceLine) : Option Span :=
  line.contentStart?.map (.ofText · line.content)

/-- A line is not shorter than without its indentation. -/
theorem contentStart?_eq (line : SourceLine) : line.contentStart? = some line.contentStart := by
  have whole : line.text.byteLength =
      Text.byteLength (line.text.takeWhile Text.isBlank) + line.text.trimStart.byteLength := by
    rw [← Text.byteLength_append, Text.takeWhile_append_trimStart]
  rw [contentStart?, whole, minus?_add_right]
  rfl

/-- The place of the trimmed text can be told. -/
theorem contentSpan?_eq (line : SourceLine) : line.contentSpan? = some line.contentSpan := by
  rw [contentSpan?, contentStart?_eq]
  rfl

end SourceLine

/-! ## Tokens cut out of a text -/

namespace Token

variable {κ : Type} {text : Text} {base : Nat}

/-- A token with the text that stands in its range; the text begins at the base offset. -/
def retrieve? (text : Text) (base : Nat) (token : Token κ) : Option (Token κ) :=
  (text.between? (token.span.start - base) (token.span.stop - base)).map fun part =>
    { token with text := part }

/-- The tokens that were scanned in a text, with their texts cut out of it. -/
def retrieveAll? (text : Text) (base : Nat) (scanned : Except SourceError (List (Token κ))) :
    Checked (List (Token κ)) := do
  let tokens ← outcome scanned
  access (tokens.mapM (retrieve? text base))

/-- Tokens whose spans hold their texts are retrieved as they are. -/
theorem mapM_retrieve?_eq {tokens : List (Token κ)}
    (h : ∀ token ∈ tokens, token.span.Holds base text token.text) :
    tokens.mapM (retrieve? text base) = some tokens := by
  induction tokens with
  | nil => rfl
  | cons token rest ih =>
    rw [List.forall_mem_cons] at h
    have first : retrieve? text base token = some token := by
      rw [retrieve?, Text.between?_of_holds h.1]
      rfl
    rw [List.mapM_cons, first, ih h.2]
    rfl

/-- What a lexicon scans in a text can be cut out of it. -/
theorem retrieveAll?_eq {lexicon : Lexicon κ} (refuse : Span → SourceError) :
    retrieveAll? text base ((lexicon.scan base text).mapError refuse) =
      outcome ((lexicon.scan base text).mapError refuse) := by
  cases scanned : lexicon.scan base text with
  | error place => rfl
  | ok tokens =>
    have retrieved := mapM_retrieve?_eq (Lexicon.span_holds_of_scan scanned)
    simp only [retrieveAll?, Except.mapError, outcome_ok_bind, retrieved]
    rfl

end Token

/-! ## Field lines -/

namespace FieldLine

/-- Reads the trimmed text of an indented line, with accesses that may miss. -/
def ofLine? (line : SourceLine) : Checked FieldLine := do
  -- the indentation is measured on every line, that of the timestamps included
  let start ← access line.contentStart?
  if line.content = timestampsWord.toList then
    return .timestamps
  let (before, after) ← access line.content.cutAtArrow?
  let definition := before.trimEnd
  let span := Span.ofText start definition
  let rules := match after with
    | some text => splitRules text
    | none => []
  let tokens ← Token.retrieveAll? definition start (definitionTokens definition start line.number)
  let field ← fieldOfSegments? line.number span rules (Segment.collect start tokens)
  return .column field span

/-- No access misses in the reading of a field line. -/
theorem ofLine?_eq (line : SourceLine) : ofLine? line = outcome (ofLine line) := by
  simp only [ofLine?, ofLine, line.contentStart?_eq, Text.cutAtArrow?_eq, access_some_bind]
  by_cases word : line.content = timestampsWord.toList
  · rw [if_pos word, if_pos word]
    rfl
  · rw [if_neg word, if_neg word, definitionTokens, Token.retrieveAll?_eq, ← outcome_bind]
    refine bind_congr fun tokens => ?_
    rw [Segment.collect_eq, fieldOfSegments?_eq, ← outcome_bind]
    rfl

end FieldLine

/-! ## Header lines -/

namespace Header

/-- Reads the trimmed text of a line at the margin, with accesses that may miss. -/
def ofLine? (line : SourceLine) : Checked Header := do
  let start ← access line.contentStart?
  let words ← Token.retrieveAll? line.content start (headerTokens line.content start line.number)
  outcome (ofTokens line.number start words)

/-- No access misses in the reading of a header line. -/
theorem ofLine?_eq (line : SourceLine) : ofLine? line = outcome (ofLine line) := by
  rw [ofLine?, ofLine, line.contentStart?_eq, access_some_bind, headerTokens,
    Token.retrieveAll?_eq, outcome_bind]

/-- The entity that a header declares, before any field line; the name of its table is cut. -/
def entity? (header : Header) : Option Entity := do
  let tableName ← pluralize? header.name.lowercase
  return header.relations.foldl
    (fun entity relation => entity.addRelation relation.kind relation.target)
    { name := header.name, tableName }

/-- The name of the table of every header can be made. -/
theorem entity?_eq (header : Header) : header.entity? = some header.entity := by
  rw [entity?, pluralize?_eq]
  rfl

end Header

end EntitySchema
