import EntitySchema.Text.Blank

/-! # Byte lengths and spans

Places in a source are byte offsets into its UTF-8 form, so the measure of a text is the number of
bytes of its characters, and a *span* is a half-open range of offsets. -/

namespace EntitySchema

/-- The number of bytes of a text in UTF-8. -/
def Text.byteLength (text : Text) : Nat := text.foldr (fun c length => c.utf8Size + length) 0

@[simp] theorem Text.byteLength_nil : Text.byteLength [] = 0 := rfl

@[simp] theorem Text.byteLength_cons (c : Char) (text : Text) :
    Text.byteLength (c :: text) = c.utf8Size + Text.byteLength text := rfl

@[simp] theorem Text.byteLength_append (left right : Text) :
    Text.byteLength (left ++ right) = Text.byteLength left + Text.byteLength right := by
  induction left with
  | nil => simp
  | cons c rest ih => rw [List.cons_append, byteLength_cons, byteLength_cons, ih, Nat.add_assoc]

/-- A half-open range of byte offsets. -/
structure Span where
  /-- The offset of the first byte. -/
  start : Nat
  /-- The offset just past the last byte. -/
  stop : Nat
  deriving DecidableEq, Repr

namespace Span

/-- The span of no bytes at an offset. -/
def emptyAt (offset : Nat) : Span := ⟨offset, offset⟩

/-- The span of a text that begins at an offset. -/
def ofText (start : Nat) (text : Text) : Span := ⟨start, start + text.byteLength⟩

/-- The number of bytes in a span, none when it ends before it starts. -/
def length (span : Span) : Nat := span.stop - span.start

/-- Whether a span holds no byte. -/
def isEmpty (span : Span) : Bool := span.length == 0

/-- A span as written in messages: the two offsets with two dots between them. -/
def render (span : Span) : String := s!"{span.start}..{span.stop}"

@[simp] theorem length_emptyAt (offset : Nat) : (emptyAt offset).length = 0 := by
  simp [emptyAt, length]

@[simp] theorem length_ofText (start : Nat) (text : Text) :
    (ofText start text).length = text.byteLength := by
  simp [ofText, length]

@[simp] theorem ofText_nil (start : Nat) : ofText start [] = emptyAt start := rfl

end Span

end EntitySchema
