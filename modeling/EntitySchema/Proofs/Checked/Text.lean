import EntitySchema.Proofs.Text.Cutting
import EntitySchema.Proofs.Text.Places

/-! # Texts cut at byte offsets

Cutting a text at a byte offset misses when the offset is past the end of the text or inside a
character, and taking one length from another misses when it would be negative. A cut at an offset
that was found by searching the text never misses. -/

namespace EntitySchema

/-- What is left of a length once a part is taken from it; a longer part cannot be taken. -/
def minus? (whole part : Nat) : Option Nat := if part ≤ whole then some (whole - part) else none

/-- A part of a sum can be taken from it. -/
theorem minus?_add_right (rest part : Nat) : minus? (rest + part) part = some rest := by
  rw [minus?, if_pos (Nat.le_add_left part rest), Nat.add_sub_cancel]

namespace Text

variable {text before after : Text} {offset : Nat}

/-! ## Cutting -/

/-- The text before a byte offset and the text after it, if the offset lies between characters. -/
def splitAt? : Nat → Text → Option (Text × Text)
  | 0, text => some ([], text)
  | _ + 1, [] => none
  | offset + 1, c :: rest =>
    if c.utf8Size ≤ offset + 1 then
      (splitAt? (offset + 1 - c.utf8Size) rest).map fun parts => (c :: parts.1, parts.2)
    else none

/-- The text before a byte offset. -/
def upTo? (stop : Nat) (text : Text) : Option Text := (text.splitAt? stop).map (·.1)

/-- The text after a byte offset. -/
def from? (start : Nat) (text : Text) : Option Text := (text.splitAt? start).map (·.2)

/-- The text between two byte offsets. -/
def between? (start stop : Nat) (text : Text) : Option Text := (text.upTo? stop).bind (from? start)

/-- A cut behind the first character is a cut of the rest. -/
theorem splitAt?_cons (c : Char) (rest : Text) (offset : Nat) :
    splitAt? (c.utf8Size + offset) (c :: rest) =
      (splitAt? offset rest).map fun parts => (c :: parts.1, parts.2) := by
  obtain ⟨size, sized⟩ := Nat.exists_eq_add_one_of_ne_zero c.utf8Size_pos.ne'
  have behind : c.utf8Size + offset = (size + offset) + 1 := by omega
  rw [behind, splitAt?, if_pos (by omega)]
  congr 2
  omega

/-- A text of two parts is cut between them. -/
theorem splitAt?_append (before after : Text) :
    (before ++ after).splitAt? before.byteLength = some (before, after) := by
  induction before with
  | nil =>
    rw [List.nil_append, byteLength_nil]
    cases after <;> rfl
  | cons c rest ih =>
    rw [List.cons_append, byteLength_cons, splitAt?_cons, ih, Option.map_some]

/-- A text that is cut has the two parts, of which the first is as long as the offset. -/
theorem eq_of_splitAt?_eq_some (h : text.splitAt? offset = some (before, after)) :
    text = before ++ after ∧ offset = before.byteLength := by
  fun_induction splitAt? offset text generalizing before with
  | case1 text =>
    obtain ⟨rfl, rfl⟩ := Prod.mk.inj (Option.some.inj h)
    exact ⟨rfl, rfl⟩
  | case2 offset => cases h
  | case3 offset c rest bound ih =>
    obtain ⟨⟨front, last⟩, cut, same⟩ := Option.map_eq_some_iff.1 h
    obtain ⟨rfl, rfl⟩ := Prod.mk.inj same
    obtain ⟨joined, measured⟩ := ih cut
    refine ⟨congrArg (c :: ·) joined, ?_⟩
    rw [byteLength_cons, ← measured]
    omega
  | case4 offset c rest inside => cases h

/-- A source can be cut exactly at the offsets that lie between its characters. -/
theorem isSome_splitAt?_iff_isValid (source : String) (offset : Nat) :
    (splitAt? offset source.toList).isSome = true ↔
      (⟨offset⟩ : String.Pos.Raw).IsValid source := by
  rw [Option.isSome_iff_exists]
  constructor
  · rintro ⟨⟨before, after⟩, cut⟩
    obtain ⟨joined, rfl⟩ := eq_of_splitAt?_eq_some cut
    exact Span.isValid_byteLength joined
  · intro valid
    obtain ⟨before, after, rfl, measured⟩ := String.Pos.Raw.isValid_iff_exists_append.1 valid
    have size : offset = byteLength before.toList := by
      rw [byteLength_toList]
      exact congrArg String.Pos.Raw.byteIdx measured
    rw [size, String.toList_append, splitAt?_append]
    exact ⟨_, rfl⟩

example : Text.splitAt? 2 ['é', 'x'] = some (['é'], ['x']) ∧ Text.splitAt? 1 ['é', 'x'] = none ∧
    Text.splitAt? 4 ['é', 'x'] = none := by decide

/-- A text of two parts has the first part up to the length of that part. -/
theorem upTo?_append (before after : Text) :
    (before ++ after).upTo? before.byteLength = some before := by
  rw [upTo?, splitAt?_append, Option.map_some]

/-- A text of two parts has the second part from the length of the first on. -/
theorem from?_append (before after : Text) :
    (before ++ after).from? before.byteLength = some after := by
  rw [from?, splitAt?_append, Option.map_some]

/-- A text has its part between the offsets of a span that holds the part. -/
theorem between?_of_holds {span : Span} {start : Nat} {part : Text}
    (h : span.Holds start text part) :
    text.between? (span.start - start) (span.stop - start) = some part := by
  obtain ⟨before, after, rfl, rfl⟩ := h
  have first : (Span.ofText (start + before.byteLength) part).start - start = before.byteLength :=
    Nat.add_sub_cancel_left start before.byteLength
  have last : (Span.ofText (start + before.byteLength) part).stop - start =
      (before ++ part).byteLength := by
    rw [Span.ofText, byteLength_append, Nat.add_assoc, Nat.add_sub_cancel_left]
  rw [first, last, between?, upTo?_append, Option.bind_some, from?_append]

/-! ## Searching -/

/-- The byte offset at which a text first has another one. -/
def firstOffset? (mark : Text) : Text → Option Nat
  | [] => if mark = [] then some 0 else none
  | c :: rest => if mark <+: c :: rest then some 0 else (firstOffset? mark rest).map (c.utf8Size + ·)

/-- The byte offset at which a text last has a character. -/
def lastOffset? (mark : Char) : Text → Option Nat
  | [] => none
  | c :: rest =>
    match lastOffset? mark rest with
    | some offset => some (c.utf8Size + offset)
    | none => if c = mark then some 0 else none

/-- The text before the first arrow and the text after it, with cuts that may miss. -/
def cutAtArrow? (text : Text) : Option (Text × Option Text) :=
  match firstOffset? arrow text with
  | some offset => do
    let before ← text.upTo? offset
    let after ← text.from? (offset + arrow.byteLength)
    return (before, some after)
  | none => some (text, none)

/-- The first arrow is found behind the text before it. -/
theorem firstOffset?_arrow (text : Text) :
    firstOffset? arrow text = text.cutAtArrow.2.map fun _ => byteLength text.cutAtArrow.1 := by
  induction text with
  | nil => rfl
  | cons c rest ih =>
    rw [firstOffset?]
    split
    · rename_i here
      obtain ⟨after, same⟩ := here
      rw [← same]
      rfl
    · rename_i passed
      rw [cutAtArrow_cons passed, ih, Option.map_map]
      rfl

/-- The cuts at the first arrow do not miss. -/
theorem cutAtArrow?_eq (text : Text) : text.cutAtArrow? = some text.cutAtArrow := by
  rw [cutAtArrow?, firstOffset?_arrow]
  rcases cutAtArrow_cases text with ⟨-, cut⟩ | ⟨before, after, -, joined, cut⟩
  · rw [cut]
    rfl
  · have first : text.upTo? (byteLength before) = some before := by
      rw [joined, List.append_assoc, upTo?_append]
    have second : text.from? (byteLength before + arrow.byteLength) = some after := by
      rw [joined, ← byteLength_append, from?_append]
    rw [cut]
    dsimp only [Option.map_some]
    rw [first, second]
    rfl

/-- A text has a character nowhere when it is not in the text. -/
theorem lastOffset?_of_not_mem {mark : Char} (h : mark ∉ text) : lastOffset? mark text = none := by
  induction text with
  | nil => rfl
  | cons c rest ih =>
    rw [List.mem_cons, not_or] at h
    rw [lastOffset?, ih h.2, if_neg (Ne.symm h.1)]

/-- A character that does not come again is last behind the text before it. -/
theorem lastOffset?_append {mark : Char} (h : mark ∉ after) (before : Text) :
    lastOffset? mark (before ++ mark :: after) = some before.byteLength := by
  induction before with
  | nil => rw [List.nil_append, lastOffset?, lastOffset?_of_not_mem h, if_pos rfl, byteLength_nil]
  | cons c rest ih => rw [List.cons_append, lastOffset?, ih, byteLength_cons]

end Text

end EntitySchema
