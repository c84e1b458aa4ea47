import EntitySchema.Source.Token

/-! # Segments of a definition

The tokens of a definition are grouped twice: colons separate *segments*, and within a segment
commas separate *pieces*. There is always a first segment and a first piece, possibly empty, so both
groupings give a first part and the list of the others. -/

namespace EntitySchema

/-- The tokens between two colons of a definition. -/
structure Segment where
  /-- The tokens, none of them a colon. -/
  tokens : List (Token DefinitionToken)
  /-- The place of the segment in the source. -/
  span : Span
  deriving DecidableEq, Repr

namespace Segment

/-- The segment of no tokens at a byte offset. -/
def emptyAt (offset : Nat) : Segment := ⟨[], .emptyAt offset⟩

/-- The segment with a token put in front. -/
def cons (token : Token DefinitionToken) (segment : Segment) : Segment :=
  ⟨token :: segment.tokens, ⟨token.span.start, segment.span.stop⟩⟩

/-- The first segment of a definition that begins at a byte offset, and the others. -/
def group (offset : Nat) : List (Token DefinitionToken) → Segment × List Segment
  | [] => (emptyAt offset, [])
  | token :: rest =>
    let (first, others) := group token.span.stop rest
    match token.kind with
    | .colon => (emptyAt offset, first :: others)
    | _ => (first.cons token, others)

/-- The characters of a segment. -/
def text (segment : Segment) : Text := segment.tokens.flatMap (·.text)

/-- The first comma-separated piece of a run of tokens, and the others, all exactly as written. -/
def splitPieces : List (Token DefinitionToken) → Text × List Text
  | [] => ([], [])
  | token :: rest =>
    let (first, others) := splitPieces rest
    match token.kind with
    | .comma => ([], first :: others)
    | _ => (token.text ++ first, others)

/-- The first comma-separated piece of a segment, and the others, all exactly as written. -/
def pieces (segment : Segment) : Text × List Text := splitPieces segment.tokens

@[simp] theorem text_emptyAt (offset : Nat) : (emptyAt offset).text = [] := rfl

@[simp] theorem text_cons (token : Token DefinitionToken) (segment : Segment) :
    (segment.cons token).text = token.text ++ segment.text := rfl

end Segment

end EntitySchema
