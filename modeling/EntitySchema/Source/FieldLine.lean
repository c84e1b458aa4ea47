import EntitySchema.Field
import EntitySchema.Source.Line
import EntitySchema.Source.Segment
import EntitySchema.Text.Cut

/-! # Field lines

An indented line declares one field, `name:type,param:property -> rule|rule`, or is the word
`timestamps`. The text before the first arrow is the definition; the text after it lists validation
rules. Name, type and properties are trimmed, parameters are kept exactly as written. -/

namespace EntitySchema

/-- The word that gives an entity its timestamps. -/
def timestampsWord : String := "timestamps"

/-- The separator of validation rules. -/
def ruleSeparator : Char := '|'

/-- What a field line says. -/
inductive FieldLine where
  /-- The open entity has timestamps. -/
  | timestamps
  /-- The open entity has a field; `span` is the place of its definition. -/
  | column (field : Field) (span : Span)
  deriving DecidableEq, Repr

/-- The validation rules of a text: its trimmed parts, without the empty ones. -/
def splitRules (text : Text) : List String :=
  (((text.splitOn ruleSeparator).map Text.trim).filter (!·.isEmpty)).map String.ofList

namespace FieldLine

/-- Adds the property that a segment names to those of the segments before it. -/
def addProperty (line : Nat) (properties : PropertySet) (segment : Segment) :
    Except SourceError PropertySet :=
  let word := String.ofList segment.text.trim
  match Property.ofKeyword? word with
  | some property => .ok (properties.insert property)
  | none => .error ⟨.unknownProperty word, line, segment.span⟩

/-- The field of a definition, given its segments; `span` is the place of the whole definition. -/
def fieldOfSegments (line : Nat) (span : Span) (rules : List String) :
    Segment × List Segment → Except SourceError Field
  | (nameSegment, []) =>
    .error ⟨.missingType (String.ofList nameSegment.text.trim), line, span⟩
  | (nameSegment, typeSegment :: propertySegments) => do
    let rawName := String.ofList nameSegment.text.trim
    let name ← (FieldName.ofString rawName).mapError fun defect =>
      ⟨.refused defect, line, nameSegment.span⟩
    let (typePiece, params) := typeSegment.pieces
    let type := String.ofList typePiece.trim
    if type.isEmpty then
      throw ⟨.missingType rawName, line, typeSegment.span⟩
    let field ← (Field.declare name type).mapError fun defect => ⟨.refused defect, line, span⟩
    let properties ← propertySegments.foldlM (addProperty line) .empty
    return { field with params := params.map String.ofList, properties, rules }

/-- Reads the trimmed text of an indented line. -/
def ofLine (line : SourceLine) : Except SourceError FieldLine := do
  if line.content = timestampsWord.toList then
    return .timestamps
  let (before, after) := line.content.cutAtArrow
  let definition := before.trimEnd
  let span := Span.ofText line.contentStart definition
  let rules := match after with
    | some text => splitRules text
    | none => []
  let tokens ← definitionTokens definition line.contentStart line.number
  let field ← fieldOfSegments line.number span rules (Segment.group line.contentStart tokens)
  return .column field span

end FieldLine

end EntitySchema
