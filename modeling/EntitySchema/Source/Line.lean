import EntitySchema.Text.Span

/-! # Physical lines

A source is read line by line. A line ends at a newline, and one carriage return before the newline
belongs to the line's end. Every line knows its number, counted from one, and the byte offset at
which it begins, so places inside a line are places in the source. -/

namespace EntitySchema

/-- One physical line of a source, without its terminator. -/
structure SourceLine where
  /-- The number of the line, counted from one. -/
  number : Nat
  /-- The byte offset in the source at which the line begins. -/
  offset : Nat
  /-- The characters of the line. -/
  text : Text
  deriving DecidableEq, Repr

/-- What a line that is not blank stands for. -/
inductive LineKind where
  /-- An indented line: a field of the open entity, or its timestamps. -/
  | field
  /-- A line at the margin: the name of an entity with its relations. -/
  | header
  deriving DecidableEq, Repr

namespace SourceLine

/-- A line without the carriage return at its end. -/
def dropReturn (raw : Text) : Text :=
  if raw.getLast? = some '\r' then raw.dropLast else raw

/-- Numbers the pieces between newlines and gives each its offset. -/
def locate (number offset : Nat) : List Text → List SourceLine
  | [] => []
  | raw :: rest =>
    ⟨number, offset, dropReturn raw⟩ :: locate (number + 1) (offset + raw.byteLength + 1) rest

/-- The physical lines of a source. -/
def all (source : Text) : List SourceLine := locate 1 0 (source.splitOn '\n')

/-- The number of the last physical line of a source. -/
def lastNumber (source : Text) : Nat := (source.splitOn '\n').length

/-- A line is blank when nothing is left of it once it is trimmed. -/
def isBlank (line : SourceLine) : Bool := line.text.trim.isEmpty

/-- The trimmed text of a line. -/
def content (line : SourceLine) : Text := line.text.trim

/-- The byte offset in the source at which the trimmed text begins. -/
def contentStart (line : SourceLine) : Nat :=
  line.offset + Text.byteLength (line.text.takeWhile Text.isBlank)

/-- The place of the trimmed text in the source. -/
def contentSpan (line : SourceLine) : Span := .ofText line.contentStart line.content

/-- Whether a line is indented; its first character alone decides. -/
def kind (line : SourceLine) : LineKind :=
  match line.text with
  | [] => .header
  | c :: _ => if Text.isBlank c then .field else .header

@[simp] theorem locate_nil (number offset : Nat) : locate number offset [] = [] := rfl

@[simp] theorem length_locate (number offset : Nat) (pieces : List Text) :
    (locate number offset pieces).length = pieces.length := by
  induction pieces generalizing number offset with
  | nil => rfl
  | cons raw rest ih => simp [locate, ih]

/-- There are as many lines as the number of the last one. -/
theorem length_all (source : Text) : (all source).length = lastNumber source := by
  simp [all, lastNumber]

end SourceLine

/-- The place at which a source ends, where references that were never resolved are reported. -/
structure EndOfSource where
  /-- The number of the last physical line. -/
  line : Nat
  /-- The length of the source in bytes. -/
  offset : Nat
  deriving DecidableEq, Repr

/-- The end of a source. -/
def EndOfSource.ofSource (source : Text) : EndOfSource :=
  ⟨SourceLine.lastNumber source, source.byteLength⟩

end EntitySchema
