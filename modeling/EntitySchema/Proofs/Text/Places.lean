import EntitySchema.Text.Span
import Mathlib.Data.String.Basic

/-! # Parts of a text and their places

A span *holds* a part of a text when the characters between its two offsets are exactly that part.
The offsets of such a span lie between characters, never inside one, so the source can be cut
there. -/

namespace EntitySchema

/-- The number of bytes of a text is that of the library. -/
theorem Text.byteLength_eq_utf8Len (text : Text) : text.byteLength = String.utf8Len text := by
  induction text with
  | nil => rfl
  | cons c rest ih => rw [byteLength_cons, ih, String.utf8Len_cons, Nat.add_comm]

/-- A source is as long as the text of its characters. -/
theorem Text.byteLength_toList (source : String) :
    Text.byteLength source.toList = source.utf8ByteSize := by
  rw [byteLength_eq_utf8Len, ← String.utf8ByteSize_ofList, String.ofList_toList]

namespace Span

/-- The characters of a source between the two offsets of a span. -/
def slice (span : Span) (source : String) : String :=
  String.Pos.Raw.extract source ⟨span.start⟩ ⟨span.stop⟩

/-- Whether a span holds a part of a text that begins at a byte offset. -/
def Holds (span : Span) (start : Nat) (text part : Text) : Prop :=
  ∃ before after, text = before ++ part ++ after ∧
    span = .ofText (start + before.byteLength) part

variable {span inner : Span} {start : Nat} {text part front : Text}

/-- The span of a whole text holds it. -/
theorem holds_ofText (start : Nat) (text : Text) : (ofText start text).Holds start text text :=
  ⟨[], [], (List.append_nil text).symm, rfl⟩

/-- The front of a text is held where the text begins. -/
theorem holds_of_prefix (h : part <+: text) : (ofText start part).Holds start text part := by
  obtain ⟨after, rfl⟩ := h
  exact ⟨[], after, rfl, rfl⟩

/-- What is held behind the front of a text is held in the text. -/
theorem Holds.append_left (h : span.Holds (start + front.byteLength) text part) :
    span.Holds start (front ++ text) part := by
  obtain ⟨before, after, rfl, rfl⟩ := h
  refine ⟨front ++ before, after, by simp, ?_⟩
  rw [Text.byteLength_append, Nat.add_assoc]

/-- What is held in the front of a text is held in the text. -/
theorem Holds.append_right (h : span.Holds start text part) (rest : Text) :
    span.Holds start (text ++ rest) part := by
  obtain ⟨before, after, rfl, same⟩ := h
  exact ⟨before, after ++ rest, by simp, same⟩

/-- A part of a part is a part of the whole. -/
theorem Holds.trans {whole : Text} (outer : inner.Holds start whole text)
    (h : span.Holds inner.start text part) : span.Holds start whole part := by
  obtain ⟨before, after, rfl, rfl⟩ := outer
  exact (Holds.append_left h).append_right after

/-- A span that holds a part lies in the text. -/
theorem Holds.bounds (h : span.Holds start text part) :
    start ≤ span.start ∧ span.start ≤ span.stop ∧ span.stop ≤ start + text.byteLength := by
  obtain ⟨before, after, rfl, rfl⟩ := h
  simp only [ofText, Text.byteLength_append]
  omega

variable {source : String}

/-- The source between the offsets of a span is the part that the span holds. -/
theorem Holds.slice_eq (h : span.Holds 0 source.toList part) :
    span.slice source = String.ofList part := by
  obtain ⟨before, after, text, rfl⟩ := h
  have cut := String.extract_of_valid before part after
  rw [← text, String.ofList_toList] at cut
  simpa only [slice, ofText, Text.byteLength_eq_utf8Len, Nat.zero_add] using cut

/-- The offset behind the first characters of a source lies between characters. -/
theorem isValid_byteLength {before after : Text} (h : source.toList = before ++ after) :
    (⟨before.byteLength⟩ : String.Pos.Raw).IsValid source := by
  have joined : source = String.ofList before ++ String.ofList after := by
    rw [← String.ofList_append, ← h, String.ofList_toList]
  refine String.Pos.Raw.isValid_iff_exists_append.2 ⟨_, _, joined, ?_⟩
  rw [String.rawEndPos, String.utf8ByteSize_ofList, Text.byteLength_eq_utf8Len]

/-- Both ends of a span that holds a part of a source lie between characters. -/
theorem Holds.isValid (h : span.Holds 0 source.toList part) :
    (⟨span.start⟩ : String.Pos.Raw).IsValid source ∧
      (⟨span.stop⟩ : String.Pos.Raw).IsValid source := by
  obtain ⟨before, after, text, rfl⟩ := h
  constructor
  · have first := isValid_byteLength (text.trans (List.append_assoc before part after))
    simpa only [ofText, Nat.zero_add] using first
  · have last := isValid_byteLength text
    simpa only [ofText, Nat.zero_add, Text.byteLength_append] using last

end Span

end EntitySchema
