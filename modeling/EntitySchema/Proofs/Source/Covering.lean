import EntitySchema.Proofs.Source.Lines
import Mathlib.Data.List.Chain

/-! # Physical lines cover their source

The lines of a source cover it: their texts stand where the lines begin, and between the end of one
text and the beginning of the next line there is a newline, with a carriage return before it or
without one, and nothing else. Behind the last text there is at most a carriage return. What stands
on a line is what is left between the blanks at both of its ends, in the place that the line
tells. -/

namespace EntitySchema

open Text

/-- A text stands between its leading and its trailing blanks, and has no blank at its own ends. -/
theorem Text.exists_blanks (text : Text) :
    ∃ trailing, text = text.takeWhile isBlank ++ trim text ++ trailing ∧
      (∀ c ∈ text.takeWhile isBlank ++ trailing, isBlank c = true) ∧
      (∀ c ∈ (trim text).head?, isBlank c = false) ∧
      ∀ c ∈ (trim text).getLast?, isBlank c = false := by
  refine ⟨((trimStart text).reverse.takeWhile isBlank).reverse, ?_, ?_,
    trim_eq_self_iff.1 (trim_trim text)⟩
  · rw [List.append_assoc, trim, trimEnd_append_takeWhile, takeWhile_append_trimStart]
  · rw [List.forall_mem_append]
    refine ⟨fun c inside => List.mem_takeWhile_imp inside, fun c inside => ?_⟩
    exact List.mem_takeWhile_imp (List.mem_reverse.1 inside)

namespace SourceLine

/-- The place of the text of a line in the source. -/
def textSpan (line : SourceLine) : Span := .ofText line.offset line.text

/-- The place from the end of the text of a line up to an offset. -/
def endingSpan (line : SourceLine) (stop : Nat) : Span := ⟨line.textSpan.stop, stop⟩

/-- Whether a text is the carriage return that was dropped from the end of a line, or nothing where
none was dropped. -/
def Dropped (line : SourceLine) (ending : Text) : Prop :=
  (ending = [] ∧ line.text.getLast? ≠ some '\r') ∨ ending = ['\r']

/-- Whether what stands on a line of a text stands between the blanks at the two ends of the line,
in the place that the line tells. -/
def ContentStands (line : SourceLine) (offset : Nat) (text : Text) : Prop :=
  ∃ leading trailing, line.text = leading ++ line.content ++ trailing ∧
    (∀ c ∈ leading ++ trailing, Text.isBlank c = true) ∧
    (∀ c ∈ line.content.head?, Text.isBlank c = false) ∧
    (∀ c ∈ line.content.getLast?, Text.isBlank c = false) ∧
    line.contentStart = line.offset + leading.byteLength ∧
    line.contentSpan.Holds offset text line.content

/-- Whether lines cover a text that begins at a byte offset; the first has the given number. -/
structure Cover (number offset : Nat) (text : Text) (lines : List SourceLine) : Prop where
  /-- There is one line more than there are newlines. -/
  length_eq : lines.length = text.count '\n' + 1
  /-- The lines are numbered one after the other. -/
  numbers : lines.map (·.number) = List.range' number lines.length
  /-- The first line begins where the text begins. -/
  first : ∀ line ∈ lines.head?, line.offset = offset
  /-- A line has no newline, and stands in the text where it begins. -/
  line_holds : ∀ line ∈ lines, '\n' ∉ line.text ∧ line.textSpan.Holds offset text line.text
  /-- Between two lines there is a newline, behind a carriage return if one was dropped. -/
  between : lines.IsChain fun line next => ∃ ending, line.Dropped ending ∧
    (line.endingSpan next.offset).Holds offset text (ending ++ ['\n'])
  /-- Behind the last line there is nothing but a carriage return if one was dropped. -/
  last : ∀ line ∈ lines.getLast?, ∃ ending, line.Dropped ending ∧
    (line.endingSpan (offset + text.byteLength)).Holds offset text ending
  /-- The content of a line stands where the line tells. -/
  content : ∀ line ∈ lines, line.ContentStands offset text

variable {number offset : Nat} {raw text : Text} {lines : List SourceLine}

/-! ## One line -/

/-- The first line of a text that begins at a byte offset. -/
theorem exists_dropped (number offset : Nat) (raw : Text) :
    ∃ ending, raw = dropReturn raw ++ ending ∧
      Dropped ⟨number, offset, dropReturn raw⟩ ending := by
  simp only [Dropped]
  rw [dropReturn]
  split
  · rename_i last
    exact ⟨['\r'], (List.dropLast_append_getLast? _ last).symm, .inr rfl⟩
  · rename_i other
    exact ⟨[], (List.append_nil raw).symm, .inl ⟨rfl, other⟩⟩

/-- The end of the first line of a text, with what stands behind it, is held behind the line. -/
theorem endingSpan_holds {ending : Text} (parts : raw = dropReturn raw ++ ending)
    (number offset : Nat) (mark rest : Text) :
    (endingSpan ⟨number, offset, dropReturn raw⟩ (offset + (raw ++ mark).byteLength)).Holds offset
      (raw ++ mark ++ rest) (ending ++ mark) := by
  refine ⟨dropReturn raw, rest, ?_, ?_⟩
  · rw [← List.append_assoc, ← parts]
  · have bytes : (raw ++ mark).byteLength =
        (dropReturn raw).byteLength + (ending ++ mark).byteLength := by
      rw [← byteLength_append, ← List.append_assoc, ← parts]
    rw [endingSpan, bytes, ← Nat.add_assoc]
    rfl

/-- The first line of a text stands at its beginning. -/
theorem textSpan_holds (number offset : Nat) (raw rest : Text) :
    (textSpan ⟨number, offset, dropReturn raw⟩).Holds offset (raw ++ rest) (dropReturn raw) :=
  Span.holds_of_prefix ((dropReturn_prefix_self raw).trans (List.prefix_append raw rest))

/-- The content of a line that stands in a text stands where the line tells. -/
theorem contentStands_of_holds {line : SourceLine}
    (held : line.textSpan.Holds offset text line.text) : line.ContentStands offset text := by
  obtain ⟨trailing, parts, blanks, head, last⟩ := exists_blanks line.text
  exact ⟨_, trailing, parts, blanks, head, last, rfl, held.trans line.content_holds_text⟩

/-! ## All lines -/

/-- One line covers a text without a newline. -/
theorem cover_singleton (h : '\n' ∉ raw) (number offset : Nat) :
    Cover number offset raw [⟨number, offset, dropReturn raw⟩] := by
  obtain ⟨ending, parts, dropped⟩ := exists_dropped number offset raw
  have held := textSpan_holds number offset raw []
  have behind := endingSpan_holds parts number offset [] []
  simp only [List.append_nil] at held behind
  refine ⟨?_, rfl, ?_, ?_, List.isChain_singleton _, ?_, ?_⟩
  · rw [List.count_eq_zero_of_not_mem h]
    rfl
  · rintro line ⟨⟩
    rfl
  · rw [List.forall_mem_singleton]
    exact ⟨fun inside => h ((dropReturn_prefix_self raw).subset inside), held⟩
  · rintro line ⟨⟩
    exact ⟨ending, dropped, behind⟩
  · rw [List.forall_mem_singleton]
    exact contentStands_of_holds held

/-- A line and a newline in front of a text that lines cover are covered by one line more. -/
theorem Cover.cons (h : '\n' ∉ raw)
    (rest : Cover (number + 1) (offset + raw.byteLength + 1) text lines) :
    Cover number offset (raw ++ '\n' :: text) (⟨number, offset, dropReturn raw⟩ :: lines) := by
  obtain ⟨ending, parts, dropped⟩ := exists_dropped number offset raw
  have joined : raw ++ '\n' :: text = raw ++ ['\n'] ++ text := by
    rw [List.append_assoc, List.singleton_append]
  have front : offset + raw.byteLength + 1 = offset + (raw ++ ['\n']).byteLength := by
    rw [byteLength_append, Nat.add_assoc]
    rfl
  -- what is held behind the newline is held in the whole
  have behind : ∀ {span : Span} {part : Text},
      span.Holds (offset + raw.byteLength + 1) text part →
      span.Holds offset (raw ++ '\n' :: text) part := by
    intro span part held
    rw [joined]
    rw [front] at held
    exact held.append_left
  have held := textSpan_holds number offset raw ('\n' :: text)
  have nonempty : lines ≠ [] := by
    rintro rfl
    exact absurd rest.length_eq (Nat.succ_ne_zero _).symm
  refine ⟨?_, ?_, ?_, ?_, ?_, ?_, ?_⟩
  · rw [List.length_cons, rest.length_eq, List.count_append, List.count_eq_zero_of_not_mem h,
      List.count_cons_self, Nat.zero_add]
  · rw [List.map_cons, rest.numbers, List.length_cons, List.range'_succ]
  · rintro line ⟨⟩
    rfl
  · rw [List.forall_mem_cons]
    refine ⟨⟨fun inside => h ((dropReturn_prefix_self raw).subset inside), held⟩, ?_⟩
    intro line inside
    exact ⟨(rest.line_holds line inside).1, behind (rest.line_holds line inside).2⟩
  · refine List.isChain_cons.2 ⟨fun next isFirst => ⟨ending, dropped, ?_⟩, ?_⟩
    · rw [rest.first next isFirst, front, joined]
      exact endingSpan_holds parts number offset ['\n'] text
    · refine rest.between.imp fun line next between => ?_
      obtain ⟨ending, dropped, held⟩ := between
      exact ⟨ending, dropped, behind held⟩
  · intro line isLast
    have total : offset + (raw ++ '\n' :: text).byteLength =
        offset + raw.byteLength + 1 + text.byteLength := by
      rw [joined, byteLength_append, front, Nat.add_assoc]
    rw [List.getLast?_cons_of_ne_nil nonempty] at isLast
    obtain ⟨ending, dropped, held⟩ := rest.last line isLast
    rw [total]
    exact ⟨ending, dropped, behind held⟩
  · rw [List.forall_mem_cons]
    refine ⟨contentStands_of_holds held, fun line inside => ?_⟩
    exact contentStands_of_holds (behind (rest.line_holds line inside).2)

/-- Parts without a newline that are located cover the text to which they are joined. -/
theorem cover_locate {parts : List Text} (nonempty : parts ≠ []) (h : ∀ part ∈ parts, '\n' ∉ part)
    (number offset : Nat) :
    Cover number offset (['\n'].intercalate parts) (locate number offset parts) := by
  induction parts generalizing number offset with
  | nil => exact absurd rfl nonempty
  | cons raw rest ih =>
    rw [List.forall_mem_cons] at h
    cases rest with
    | nil =>
      rw [List.intercalate_singleton]
      exact cover_singleton h.1 number offset
    | cons next others =>
      rw [List.intercalate_cons_cons, List.append_assoc, List.singleton_append]
      exact (ih (List.cons_ne_nil next others) h.2 _ _).cons h.1

/-- The physical lines of a source are as many as the number of the last, one more than there are
newlines. They cover the source up to its end, and the bytes of the source at the place of a line
are its text, those at the place of its content are the content. -/
theorem cover_all (source : String) :
    ((all source.toList).length = lastNumber source.toList ∧
      lastNumber source.toList = 1 + source.toList.count '\n') ∧
    EndOfSource.ofSource source.toList =
      ⟨(all source.toList).length, source.utf8ByteSize⟩ ∧
    Cover 1 0 source.toList (all source.toList) ∧
    ∀ line ∈ all source.toList, line.textSpan.slice source = String.ofList line.text ∧
      line.contentSpan.slice source = String.ofList line.content := by
  have cover : Cover 1 0 source.toList (all source.toList) := by
    have located := cover_locate (List.splitOn_ne_nil '\n' source.toList)
      (fun part inside => not_mem_of_mem_splitOn inside) 1 0
    rwa [List.intercalate_splitOn] at located
  refine ⟨⟨length_all source.toList, ?_⟩, ?_, cover, fun line inside => ?_⟩
  · rw [← length_all, cover.length_eq, Nat.add_comm]
  · rw [EndOfSource.ofSource, ← length_all, byteLength_toList]
  · exact ⟨(cover.line_holds line inside).2.slice_eq, (content_holds inside).slice_eq⟩

end SourceLine

end EntitySchema
