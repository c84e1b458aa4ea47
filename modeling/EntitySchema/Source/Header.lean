import EntitySchema.Entity
import EntitySchema.Source.Line
import EntitySchema.Source.Token
import EntitySchema.Text.Cut

/-! # Header lines

A line at the margin opens an entity: `Name Target:code Target:code`. The first word is the name of
the entity; every other word is a relation, cut at its first colon into the name of the related
entity and the code of the kind. The code is checked before the name. -/

namespace EntitySchema

/-- A relation as written in a header. -/
structure RelationWord where
  /-- The related entity. -/
  target : EntityName
  /-- The kind of the relation. -/
  kind : RelationKind
  /-- The place of the word in the source. -/
  span : Span
  deriving DecidableEq, Repr

/-- The header of an entity. -/
structure Header where
  /-- The name of the entity. -/
  name : EntityName
  /-- The place of the name in the source. -/
  nameSpan : Span
  /-- The relations, in the order written, repeats included. -/
  relations : List RelationWord
  deriving DecidableEq, Repr

/-- Reads one relation of a header on the numbered line. -/
def RelationWord.ofToken (line : Nat) (word : Token HeaderToken) :
    Except SourceError RelationWord :=
  let (target, code) := word.text.cutAt ':'
  let code := String.ofList (code.getD [])
  let target := String.ofList target
  match RelationKind.ofCode? code with
  | none => .error ⟨.unknownRelation target code, line, word.span⟩
  | some kind =>
    match EntityName.ofString target with
    | .error defect => .error ⟨.refused defect, line, word.span⟩
    | .ok target => .ok ⟨target, kind, word.span⟩

namespace Header

/-- Reads the words of a header on the numbered line; `start` is where its text begins. -/
def ofTokens (line start : Nat) : List (Token HeaderToken) → Except SourceError Header
  | [] => .error ⟨.refused (.entityName ""), line, .emptyAt start⟩
  | first :: others => do
    let name ← (EntityName.ofString (String.ofList first.text)).mapError fun defect =>
      ⟨.refused defect, line, first.span⟩
    let relations ← others.mapM (RelationWord.ofToken line)
    return ⟨name, first.span, relations⟩

/-- Reads the trimmed text of a line at the margin. -/
def ofLine (line : SourceLine) : Except SourceError Header := do
  let words ← headerTokens line.content line.contentStart line.number
  ofTokens line.number line.contentStart words

/-- The entity that a header declares, before any field line. -/
def entity (header : Header) : Entity :=
  header.relations.foldl (fun entity relation => entity.addRelation relation.kind relation.target)
    (.named header.name)

end Header

end EntitySchema
