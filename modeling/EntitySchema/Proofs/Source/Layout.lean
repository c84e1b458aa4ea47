import EntitySchema.Proofs.AlikeLines

/-! # Lines laid out anew

Blanks at the end of a line may be added and dropped, and the indentation of an indented line may be
any other, as long as there is one: the line says what it said. Whole lines of blanks say nothing,
so they may stand anywhere. A source whose lines end in a carriage return and a newline is the
plainest case. -/

namespace EntitySchema

open Text

namespace Text

/-- Whether two lines differ in the blanks at their ends alone, and are both indented or neither. -/
inductive Relaid : Text → Text → Prop where
  /-- The line has another margin and another ending. -/
  | intro (body : Text) {margin other ending last : Text}
      (indented : margin = [] ↔ other = [])
      (margins : ∀ c ∈ margin ++ other, isBlank c = true)
      (endings : ∀ c ∈ ending ++ last, isBlank c = true) :
      Relaid (margin ++ body ++ ending) (other ++ body ++ last)

/-- Whether some lines are others laid out anew, with lines of blanks added and left out. -/
inductive LinesRelaid : List Text → List Text → Prop where
  /-- There are no lines. -/
  | nil : LinesRelaid [] []
  /-- A line is laid out anew. -/
  | line {raw other : Text} {raws others : List Text} (first : Relaid raw other)
      (rest : LinesRelaid raws others) : LinesRelaid (raw :: raws) (other :: others)
  /-- A line of blanks is added. -/
  | added {blanks : Text} {raws others : List Text} (blank : ∀ c ∈ blanks, isBlank c = true)
      (rest : LinesRelaid raws others) : LinesRelaid raws (blanks :: others)
  /-- A line of blanks is left out. -/
  | leftOut {blanks : Text} {raws others : List Text} (blank : ∀ c ∈ blanks, isBlank c = true)
      (rest : LinesRelaid raws others) : LinesRelaid (blanks :: raws) others

/-- The text with a carriage return before every newline. -/
def withReturns (text : Text) : Text := text.flatMap fun c => if c = '\n' then ['\r', '\n'] else [c]

/-- Blanks added at the end of a line lay it out anew. -/
theorem relaid_append {ending : Text} (blank : ∀ c ∈ ending, isBlank c = true) (raw : Text) :
    Relaid raw (raw ++ ending) := by
  have none : ∀ c ∈ ([] ++ [] : Text), isBlank c = true := List.forall_mem_nil _
  have relaid : Relaid ([] ++ raw ++ []) ([] ++ raw ++ ending) := .intro raw Iff.rfl none blank
  rwa [List.append_nil] at relaid

/-- Lines that are laid out anew one by one are laid out anew together. -/
theorem linesRelaid_of_forall₂ {raws others : List Text} (h : List.Forall₂ Relaid raws others) :
    LinesRelaid raws others := by
  induction h with
  | nil => exact .nil
  | cons first _ ih => exact .line first ih

/-! ## Carriage returns -/

/-- With a carriage return before every newline, a line has nothing more than a carriage return at
its end. -/
theorem splitOn_withReturns (text : Text) :
    List.Forall₂ (fun raw other => ∃ ending, ending ⊆ ['\r'] ∧ other = raw ++ ending)
      (text.splitOn '\n') ((withReturns text).splitOn '\n') := by
  induction text with
  | nil => exact .cons ⟨[], List.nil_subset _, rfl⟩ .nil
  | cons c rest ih =>
    by_cases newline : c = '\n'
    · subst newline
      have empty : '\n' ∉ ([] : Text) := List.not_mem_nil
      have plain : '\n' ∉ ['\r'] := by decide
      have cut : ('\n' :: rest).splitOn '\n' = [] :: rest.splitOn '\n' :=
        List.splitOn_append_cons_self_of_not_mem empty rest
      have doubled : withReturns ('\n' :: rest) = ['\r'] ++ '\n' :: withReturns rest := rfl
      rw [doubled, cut, List.splitOn_append_cons_self_of_not_mem plain]
      exact .cons ⟨['\r'], List.Subset.refl _, rfl⟩ ih
    · -- the character stands at the front of the first line, with the returns and without them
      have plain : '\n' ∉ [c] := by simpa using Ne.symm newline
      have cut : (c :: rest).splitOn '\n' = (rest.splitOn '\n').modifyHead ([c] ++ ·) :=
        splitOn_append_of_not_mem plain rest
      have kept : withReturns (c :: rest) = [c] ++ withReturns rest := by
        rw [withReturns, List.flatMap_cons, if_neg newline, ← withReturns]
      rw [kept, cut, splitOn_append_of_not_mem plain]
      generalize rest.splitOn '\n' = raws at ih ⊢
      generalize (withReturns rest).splitOn '\n' = others at ih ⊢
      cases ih with
      | nil => exact .nil
      | cons first later =>
        obtain ⟨ending, returns, same⟩ := first
        exact .cons ⟨ending, returns, by rw [same, List.append_assoc]⟩ later

/-- With a carriage return before every newline, a text has its lines laid out anew. -/
theorem linesRelaid_withReturns (text : Text) :
    LinesRelaid (text.splitOn '\n') ((withReturns text).splitOn '\n') := by
  refine linesRelaid_of_forall₂ ((splitOn_withReturns text).imp ?_)
  rintro raw _ ⟨ending, returns, rfl⟩
  refine relaid_append (fun c inside => ?_) raw
  rw [List.mem_singleton.1 (returns inside)]
  rfl

end Text

namespace SourceLine

variable {line other : SourceLine} {raw new : Text}

/-- A line of blanks is blank. -/
theorem isBlank_of_text (text : line.text = dropReturn raw)
    (blank : ∀ c ∈ raw, Text.isBlank c = true) : line.isBlank = true := by
  have empty := trim_append_of_isBlank blank []
  rw [List.append_nil, trim_nil] at empty
  rw [isBlank, text, trim_dropReturn, empty]
  rfl

/-- A line that is laid out anew says what it said. -/
theorem alike_of_relaid (h : Relaid raw new) (first : line.text = dropReturn raw)
    (second : other.text = dropReturn new) : line.Alike other := by
  obtain ⟨body, indented, margins, endings⟩ := h
  rename_i margin indent ending last
  rw [List.forall_mem_append] at margins endings
  have content : line.content = other.content := by
    rw [SourceLine.content, SourceLine.content, first, second, trim_dropReturn, trim_dropReturn,
      trim_append_of_isBlank_right endings.1, trim_append_of_isBlank_right endings.2,
      trim_append_of_isBlank margins.1, trim_append_of_isBlank margins.2]
  refine alike_of_content content fun blank => ?_
  have again : other.isBlank = false := by rwa [isBlank, ← SourceLine.content, ← content]
  cases margin with
  | nil =>
    obtain rfl := indented.1 rfl
    cases body with
    | nil =>
      -- nothing but its ending would be left of the line
      rw [isBlank_of_text first endings.1] at blank
      cases blank
    | cons c rest => rw [kind_of_text first blank, kind_of_text second again]
  | cons c rest =>
    obtain ⟨d, others, rfl⟩ := List.exists_cons_of_ne_nil (mt indented.2 (List.cons_ne_nil _ _))
    rw [kind_of_text first blank, kind_of_text second again, margins.1 c List.mem_cons_self,
      margins.2 d List.mem_cons_self]

/-- Lines that are laid out anew say what they said, wherever they stand. -/
theorem alike_locate_of_linesRelaid {raws others : List Text} (h : LinesRelaid raws others)
    (number offset place start : Nat) :
    List.Forall₂ Alike ((locate number offset raws).filter (!·.isBlank))
      ((locate place start others).filter (!·.isBlank)) := by
  induction h generalizing number offset place start with
  | nil => exact .nil
  | @line raw other raws others first _ ih =>
    have alike : Alike ⟨number, offset, dropReturn raw⟩ ⟨place, start, dropReturn other⟩ :=
      alike_of_relaid first rfl rfl
    rw [locate, locate, List.filter_cons, List.filter_cons, alike.isBlank_eq]
    split
    · exact .cons alike (ih _ _ _ _)
    · exact ih _ _ _ _
  | added blank _ ih =>
    rw [locate, List.filter_cons, isBlank_of_text rfl blank]
    exact ih _ _ _ _
  | leftOut blank _ ih =>
    rw [locate, List.filter_cons, isBlank_of_text rfl blank]
    exact ih _ _ _ _

/-- Sources with lines that are laid out anew have lines that say the same. -/
theorem alike_all_of_linesRelaid {source other : Text}
    (h : LinesRelaid (source.splitOn '\n') (other.splitOn '\n')) :
    List.Forall₂ Alike ((all source).filter (!·.isBlank)) ((all other).filter (!·.isBlank)) :=
  alike_locate_of_linesRelaid h 1 0 1 0

end SourceLine

end EntitySchema
