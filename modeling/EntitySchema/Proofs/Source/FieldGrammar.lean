import EntitySchema.Proofs.Source.FieldReading
import EntitySchema.Proofs.Source.SegmentPlaces

/-! # The grammar of field lines

The grammar tells for the parts of every definition which field they are read as, or why they are
refused and to which part the error points. Of several mistakes the first one in this order counts:
no type at all, a name that is no identifier, a blank type, the first part that is no keyword. A
field line that is not the word for timestamps is read exactly as the grammar tells for what stands
before its first arrow. -/

namespace EntitySchema

open Text

/-! ## The cut at the arrow -/

/-- Where a text is cut: at its first arrow, when it has one. -/
inductive Text.CutAtArrow : Text → Text → Option Text → Prop where
  /-- A text without an arrow stands before the cut as a whole. -/
  | nowhere {text : Text} (arrowless : ¬ arrow <:+: text) : CutAtArrow text text none
  /-- Before the first arrow there is none. -/
  | first {before : Text} (arrowless : ¬ arrow <:+: before) (after : Text) :
    CutAtArrow (before ++ arrow ++ after) before (some after)

/-- Every text is cut in one way, which scanning for the arrow finds. -/
theorem Text.cutAtArrow_iff {text before : Text} {after : Option Text} :
    text.CutAtArrow before after ↔ text.cutAtArrow = (before, after) := by
  constructor
  · rintro (arrowless | ⟨arrowless, after⟩)
    · exact cutAtArrow_of_arrowless arrowless
    · exact cutAtArrow_append arrowless after
  · intro h
    rcases cutAtArrow_cases text with ⟨none, cut⟩ | ⟨front, back, none, rfl, cut⟩
    · obtain ⟨rfl, rfl⟩ := Prod.mk.inj (cut.symm.trans h)
      exact .nowhere none
    · obtain ⟨rfl, rfl⟩ := Prod.mk.inj (cut.symm.trans h)
      exact .first none back

/-- The validation rules behind the cut: the parts between bars that are not blank, trimmed. -/
def Text.rulesBehind : Option Text → List String
  | none => []
  | some text => ((text.splitOn '|').filter (trim · ≠ [])).map fun part => String.ofList (trim part)

/-- The rules of a line are those behind its cut. -/
theorem SourceLine.rules_eq_rulesBehind (line : SourceLine) :
    line.rules = Text.rulesBehind line.content.cutAtArrow.2 := by
  rw [rules]
  cases line.content.cutAtArrow.2 with
  | none => rfl
  | some text =>
    have nonempty : (fun part : Text => decide (trim part ≠ [])) =
        (fun rule : Text => !rule.isEmpty) ∘ trim := by
      funext part
      cases rule : trim part <;> simp [rule]
    rw [Text.rulesBehind, nonempty]
    simp only [splitRules, ruleSeparator, List.filter_map, List.map_map]
    rfl

/-! ## The grammar -/

/-- Whether a part of a definition is the keyword of a property, once it is trimmed. -/
def Text.IsKeyword (part : Text) : Prop :=
  String.ofList part.trim ∈ ["primary", "unique", "nullable", "unsigned", "index", "fulltext"]

instance : DecidablePred Text.IsKeyword := fun part =>
  inferInstanceAs (Decidable (String.ofList part.trim ∈ _))

/-- What the parts of a definition are read as, or why they are refused on the numbered line. Every
part has its place, and `whole` is the place of the definition. -/
inductive FieldLine.Grammar (line : Nat) (whole : Span) (rules : List String) :
    List (Span × Text) → Except SourceError FieldLine → Prop where
  /-- A single part is a name without a type. -/
  | untyped (name : Span × Text) :
    Grammar line whole rules [name]
      (.error ⟨.missingType (String.ofList name.2.trim), line, whole⟩)
  /-- A name has to be an identifier. -/
  | misnamed {name typed : Span × Text} {others : List (Span × Text)}
    (refused : isIdentifier (String.ofList name.2.trim) = false) :
    Grammar line whole rules (name :: typed :: others)
      (.error ⟨.refused (.fieldName (String.ofList name.2.trim)), line, name.1⟩)
  /-- A type must not be blank, whatever its parameters. -/
  | blankType {name typed : Span × Text} {others : List (Span × Text)} {type : Text}
    {params : List Text} (named : isIdentifier (String.ofList name.2.trim) = true)
    (pieces : typed.2.splitOn ',' = type :: params) (blank : type.trim = []) :
    Grammar line whole rules (name :: typed :: others)
      (.error ⟨.missingType (String.ofList name.2.trim), line, typed.1⟩)
  /-- Every other part has to be a keyword; the first that is none is reported. -/
  | unknownProperty {name typed part : Span × Text} {known later : List (Span × Text)} {type : Text}
    {params : List Text} (named : isIdentifier (String.ofList name.2.trim) = true)
    (pieces : typed.2.splitOn ',' = type :: params) (visible : type.trim ≠ [])
    (keywords : ∀ other ∈ known, Text.IsKeyword other.2) (unknown : ¬ Text.IsKeyword part.2) :
    Grammar line whole rules (name :: typed :: (known ++ part :: later))
      (.error ⟨.unknownProperty (String.ofList part.2.trim), line, part.1⟩)
  /-- Any other definition is read as the field that its parts spell. -/
  | column {name typed : Span × Text} {properties : List (Span × Text)} {field : Field}
    (spelled : field.SpelledBy name.2 typed.2 (properties.map (·.2)))
    (ruled : field.rules = rules) :
    Grammar line whole rules (name :: typed :: properties) (.ok (.column field whole))

/-! ## Keywords -/

/-- The keywords are those of the properties. -/
theorem Text.isKeyword_iff {part : Text} :
    part.IsKeyword ↔ ∃ property : Property, part.trim = property.keyword.toList := by
  rw [Text.IsKeyword]
  constructor
  · intro inside
    have keyword : String.ofList part.trim ∈ Property.all.map Property.keyword := inside
    obtain ⟨property, -, same⟩ := List.mem_map.1 keyword
    exact ⟨property, by rw [same, String.toList_ofList]⟩
  · rintro ⟨property, same⟩
    rw [same, String.ofList_toList]
    cases property <;> decide

namespace FieldLine

variable {line : Nat} {segment : Segment}

/-- A part that is no keyword is refused as it stands. -/
theorem addProperty_of_not_isKeyword (unknown : ¬ segment.text.IsKeyword)
    (properties : PropertySet) :
    addProperty line properties segment =
      .error ⟨.unknownProperty (String.ofList segment.text.trim), line, segment.span⟩ := by
  rw [addProperty]
  cases found : Property.ofKeyword? (String.ofList segment.text.trim) with
  | none => rfl
  | some property =>
    have same := Property.keyword_of_ofKeyword? found
    exact (unknown (isKeyword_iff.2 ⟨property, by rw [same, String.toList_ofList]⟩)).elim

/-- Parts that are keywords are all accepted. -/
theorem exists_foldlM_addProperty (line : Nat) {segments : List Segment}
    (keywords : ∀ segment ∈ segments, Text.IsKeyword segment.text) (start : PropertySet) :
    ∃ properties, segments.foldlM (addProperty line) start = .ok properties := by
  induction segments generalizing start with
  | nil => exact ⟨start, rfl⟩
  | cons first rest ih =>
    rw [List.forall_mem_cons] at keywords
    obtain ⟨property, keyword⟩ := isKeyword_iff.1 keywords.1
    obtain ⟨properties, accepted⟩ := ih keywords.2 (start.insert property)
    refine ⟨properties, ?_⟩
    rw [List.foldlM_cons, addProperty_eq_ok_iff.2 ⟨property, keyword, rfl⟩]
    exact accepted

/-- The first part that is no keyword is the one that is refused. -/
theorem foldlM_addProperty_of_not_isKeyword {known later : List Segment}
    (keywords : ∀ segment ∈ known, Text.IsKeyword segment.text)
    (unknown : ¬ segment.text.IsKeyword) (start : PropertySet) :
    (known ++ segment :: later).foldlM (addProperty line) start =
      .error ⟨.unknownProperty (String.ofList segment.text.trim), line, segment.span⟩ := by
  obtain ⟨properties, accepted⟩ := exists_foldlM_addProperty line keywords start
  rw [List.foldlM_append, accepted]
  show (segment :: later).foldlM (addProperty line) properties = _
  rw [List.foldlM_cons, addProperty_of_not_isKeyword unknown]
  rfl

/-! ## Segments -/

variable {span : Span} {rules : List String} {first typed : Segment} {others : List Segment}

/-- Without an identifier for a name the other parts are not looked at. -/
theorem fieldOfSegments_of_not_isIdentifier
    (refused : isIdentifier (String.ofList first.text.trim) = false) :
    fieldOfSegments line span rules (first, typed :: others) =
      .error ⟨.refused (.fieldName (String.ofList first.text.trim)), line, first.span⟩ := by
  rw [fieldOfSegments, FieldName.ofString_of_not_isIdentifier refused]
  rfl

/-- With an identifier for a name, a blank type is refused before the properties are looked at. -/
theorem fieldOfSegments_of_isIdentifier
    (named : isIdentifier (String.ofList first.text.trim) = true) :
    fieldOfSegments line span rules (first, typed :: others) =
      if typed.pieces.1.trim = [] then
        .error ⟨.missingType (String.ofList first.text.trim), line, typed.span⟩
      else
        (others.foldlM (addProperty line) .empty).map fun properties =>
          { name := ⟨_, named⟩, type := String.ofList typed.pieces.1.trim,
            params := typed.pieces.2.map String.ofList, properties, rules } := by
  have accepted : FieldName.ofString (String.ofList first.text.trim) = .ok ⟨_, named⟩ :=
    dif_pos named
  rw [fieldOfSegments, accepted]
  by_cases blank : typed.pieces.1.trim = []
  · rw [if_pos blank]
    simp only [blank]
    rfl
  · have visible : (String.ofList typed.pieces.1.trim).isEmpty = false := by simpa using blank
    rw [if_neg blank]
    simp only [Field.declare, visible]
    cases others.foldlM (addProperty line) PropertySet.empty <;> rfl

/-- A part of a definition with its place. -/
def placedText (segment : Segment) : Span × Text := (segment.span, segment.text)

/-- Segments are read as the grammar tells for their texts. -/
theorem eq_of_grammar
    (pieces : ∀ segment ∈ first :: others,
      segment.pieces.1 :: segment.pieces.2 = segment.text.splitOn ',')
    {parts : List (Span × Text)} (placed : (first :: others).map placedText = parts)
    {outcome : Except SourceError FieldLine} (h : Grammar line span rules parts outcome) :
    (fieldOfSegments line span rules (first, others)).map (column · span) = outcome := by
  cases h with
  | untyped name =>
    obtain ⟨rfl, none⟩ := List.cons.inj placed
    obtain rfl := List.map_eq_nil_iff.1 none
    rfl
  | misnamed refused =>
    obtain ⟨rfl, later⟩ := List.cons.inj placed
    obtain ⟨typed, rest, rfl, rfl, rfl⟩ := List.map_eq_cons_iff.1 later
    rw [fieldOfSegments_of_not_isIdentifier refused]
    rfl
  | blankType named split blank =>
    obtain ⟨rfl, later⟩ := List.cons.inj placed
    obtain ⟨typed, rest, rfl, rfl, rfl⟩ := List.map_eq_cons_iff.1 later
    have type := (pieces typed (by simp)).trans split
    rw [fieldOfSegments_of_isIdentifier named, if_pos (by rw [(List.cons.inj type).1, blank])]
    rfl
  | unknownProperty named split visible keywords unknown =>
    obtain ⟨rfl, later⟩ := List.cons.inj placed
    obtain ⟨typed, rest, rfl, rfl, properties⟩ := List.map_eq_cons_iff.1 later
    obtain ⟨known, others, rfl, rfl, refused⟩ := List.map_eq_append_iff.1 properties
    obtain ⟨part, behind, rfl, rfl, rfl⟩ := List.map_eq_cons_iff.1 refused
    have type := (pieces typed (by simp)).trans split
    rw [List.forall_mem_map] at keywords
    rw [fieldOfSegments_of_isIdentifier named, if_neg (by rwa [(List.cons.inj type).1]),
      foldlM_addProperty_of_not_isKeyword keywords unknown]
    rfl
  | column spelled ruled =>
    obtain ⟨rfl, later⟩ := List.cons.inj placed
    obtain ⟨typed, rest, rfl, rfl, rfl⟩ := List.map_eq_cons_iff.1 later
    rw [List.map_map] at spelled
    rw [(fieldOfSegments_eq_ok_iff pieces).2
      ⟨typed.text, rest.map Segment.text, rfl, ruled, spelled⟩]
    rfl

/-- The grammar tells something about every definition. -/
theorem exists_grammar (line : Nat) (span : Span) (rules : List String)
    (pieces : ∀ segment ∈ first :: others,
      segment.pieces.1 :: segment.pieces.2 = segment.text.splitOn ',') :
    ∃ outcome, Grammar line span rules ((first :: others).map placedText) outcome := by
  cases others with
  | nil => exact ⟨_, .untyped (placedText first)⟩
  | cons typed properties =>
    have split : typed.text.splitOn ',' = typed.pieces.1 :: typed.pieces.2 :=
      (pieces typed (by simp)).symm
    cases named : isIdentifier (String.ofList first.text.trim) with
    | false => exact ⟨_, .misnamed named⟩
    | true =>
      by_cases blank : typed.pieces.1.trim = []
      · exact ⟨_, .blankType named split blank⟩
      · cases found : properties.find? fun segment => ¬ Text.IsKeyword segment.text with
        | none =>
          have keywords : ∀ segment ∈ properties, Text.IsKeyword segment.text := by
            simpa using found
          obtain ⟨set, accepted⟩ := exists_foldlM_addProperty line keywords .empty
          have read : ∃ field, fieldOfSegments line span rules (first, typed :: properties) =
              .ok field := by
            rw [fieldOfSegments_of_isIdentifier named, if_neg blank, accepted]
            exact ⟨_, rfl⟩
          obtain ⟨field, read⟩ := read
          obtain ⟨_, _, same, ruled, spelled⟩ := (fieldOfSegments_eq_ok_iff pieces).1 read
          obtain ⟨rfl, rfl⟩ := List.cons.inj same
          refine ⟨_, .column ?_ ruled⟩
          rw [List.map_map]
          exact spelled
        | some part =>
          -- nothing but keywords stands before the first part that is none
          obtain ⟨unknown, known, later, rfl, keywords⟩ := List.find?_eq_some_iff_append.1 found
          have wrong : ¬ Text.IsKeyword part.text := by simpa using unknown
          have before : ∀ segment ∈ known, Text.IsKeyword segment.text := by simpa using keywords
          rw [List.map_cons, List.map_cons, List.map_append, List.map_cons]
          exact ⟨_, .unknownProperty named split blank (List.forall_mem_map.2 before) wrong⟩

/-! ## Lines -/

/-- A line that is not the word for timestamps is cut at its first arrow, and what is read from it,
or why it is refused, is what the grammar tells for the parts before the cut and the rules behind
it, and nothing else. -/
theorem ofLine_eq_iff_definition_grammar {line : SourceLine}
    (h : line.content ≠ timestampsWord.toList) :
    ∃ before after, line.content.CutAtArrow before after ∧ ∀ outcome,
      ofLine line = outcome ↔
        Grammar line.number (.ofText line.contentStart before.trimEnd) (rulesBehind after)
          (placed line.contentStart (before.trimEnd.splitOn ':')) outcome := by
  refine ⟨_, _, cutAtArrow_iff.2 rfl, fun outcome => ?_⟩
  obtain ⟨tokens, first, others, found, grouped, places, pieces⟩ :=
    exists_placed_segments line.definition line.contentStart line.number
  have read : ofLine line =
      (fieldOfSegments line.number (.ofText line.contentStart line.definition) line.rules
        (first, others)).map (column · (.ofText line.contentStart line.definition)) := by
    rw [ofLine_of_ne h, found, ← grouped]
    rfl
  rw [read, line.rules_eq_rulesBehind]
  constructor
  · -- the grammar tells something, and that is what is read
    intro same
    obtain ⟨told, grammar⟩ := exists_grammar line.number
      (.ofText line.contentStart line.definition) (rulesBehind line.content.cutAtArrow.2) pieces
    rw [← same, eq_of_grammar pieces rfl grammar]
    exact places ▸ grammar
  · exact eq_of_grammar pieces places

/-- A field with parameters, properties and rules that have marks of the notation in them, and a
line with a comma among its properties. -/
theorem ofLine_eq_iff_definition_grammar_price :
    let line : SourceLine :=
      ⟨3, 10, "\tprice : dec-imal,, 8 : index:unsigned :index -> >0||a->b|".toList⟩
    let field : Field :=
      { name := ⟨"price", by decide⟩, type := "dec-imal", params := ["", " 8 "],
        properties := { index := true, unsigned := true }, rules := [">0", "a->b"] }
    line.content ≠ timestampsWord.toList ∧ ∃ before after, line.content.CutAtArrow before after ∧
      Grammar 3 (.ofText 11 before.trimEnd) (rulesBehind after)
        (placed 11 (before.trimEnd.splitOn ':')) (.ok (.column field ⟨11, 55⟩)) := by
  intro line field
  have other : line.content ≠ timestampsWord.toList := by decide
  obtain ⟨before, after, cut, told⟩ := ofLine_eq_iff_definition_grammar other
  exact ⟨other, before, after, cut, (told _).1 (by decide +kernel)⟩

end FieldLine

end EntitySchema
