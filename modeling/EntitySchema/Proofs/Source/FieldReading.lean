import EntitySchema.Proofs.Outcome
import EntitySchema.Proofs.Source.Segments
import EntitySchema.Proofs.Text.Trimming
import EntitySchema.Source.FieldLine

/-! # What a field line is read as

A field line that is accepted has a definition with at least two parts between its colons. The first
part gives the name, the second the type with its parameters, and every other part one property. The
conditions under which parts are read as a given field are those of `Field.SpelledBy`. -/

namespace EntitySchema

/-! ## Properties -/

/-- Different properties have different keywords. -/
theorem Property.toList_keyword_inj {property other : Property} :
    property.keyword.toList = other.keyword.toList ↔ property = other := by
  constructor
  · intro h
    have found := ofKeyword?_keyword property
    rw [String.toList_inj.1 h, ofKeyword?_keyword] at found
    exact (Option.some.inj found).symm
  · rintro rfl
    rfl

namespace FieldLine

/-- A segment adds the property whose keyword it is. -/
theorem addProperty_eq_ok_iff {line : Nat} {start properties : PropertySet} {segment : Segment} :
    addProperty line start segment = .ok properties ↔
      ∃ property : Property, segment.text.trim = property.keyword.toList ∧
        properties = start.insert property := by
  rw [addProperty]
  constructor
  · intro h
    split at h
    · rename_i property found
      refine ⟨property, ?_, (Except.ok.inj h).symm⟩
      rw [Property.keyword_of_ofKeyword? found, String.toList_ofList]
    · cases h
  · rintro ⟨property, keyword, rfl⟩
    rw [keyword, String.ofList_toList]
    simp

/-- After a keyword is read, a property is present when it was so before or has that keyword. -/
theorem contains_insert_iff {start : PropertySet} {property other : Property} {text : Text}
    (keyword : text = property.keyword.toList) :
    (start.insert property).contains other = true ↔
      start.contains other = true ∨ text = other.keyword.toList := by
  rw [PropertySet.contains_insert, keyword, Property.toList_keyword_inj]
  by_cases here : other = property
  · simp [here]
  · simp [here, Ne.symm here]

/-- Segments that are keywords add their properties, whatever their order and however often. -/
theorem foldlM_addProperty_eq_ok_iff {line : Nat} {start properties : PropertySet}
    {segments : List Segment} :
    segments.foldlM (addProperty line) start = .ok properties ↔
      (∀ segment ∈ segments, ∃ property : Property,
        segment.text.trim = property.keyword.toList) ∧
      ∀ property, properties.contains property = true ↔ start.contains property = true ∨
        ∃ segment ∈ segments, segment.text.trim = property.keyword.toList := by
  induction segments generalizing start with
  | nil =>
    constructor
    · intro h
      obtain rfl : start = properties := Except.ok.inj h
      simp
    · rintro ⟨-, same⟩
      obtain rfl : start = properties := by
        apply PropertySet.ext_contains
        intro property
        rw [Bool.eq_iff_iff, same property]
        simp
      rfl
  | cons segment rest ih =>
    simp only [List.foldlM_cons, Outcome.bind_eq_ok_iff, addProperty_eq_ok_iff, ih,
      List.forall_mem_cons, List.exists_mem_cons_iff, ← or_assoc]
    constructor
    · rintro ⟨_, ⟨property, keyword, rfl⟩, keywords, same⟩
      refine ⟨⟨⟨property, keyword⟩, keywords⟩, fun other => ?_⟩
      rw [same other, contains_insert_iff keyword]
    · rintro ⟨⟨⟨property, keyword⟩, keywords⟩, same⟩
      refine ⟨_, ⟨property, keyword, rfl⟩, keywords, fun other => ?_⟩
      rw [same other, contains_insert_iff keyword]

end FieldLine

/-! ## Fields -/

/-- A field as it is read from the parts of its definition between the colons. -/
structure Field.SpelledBy (field : Field) (name typed : Text) (properties : List Text) : Prop where
  /-- The first part is the name. -/
  trim_name : name.trim = field.name.text.toList
  /-- The second part is the type, followed by the parameters exactly as written. -/
  pieces : ∃ type : Text, typed.splitOn ',' = type :: field.params.map String.toList ∧
    type.trim = field.type.toList
  /-- The type is not empty. -/
  type_ne : field.type ≠ ""
  /-- Every other part is a keyword. -/
  keywords : ∀ part ∈ properties, ∃ property : Property, part.trim = property.keyword.toList
  /-- The properties are those whose keywords occur. -/
  contains_iff : ∀ property, field.properties.contains property = true ↔
    ∃ part ∈ properties, part.trim = property.keyword.toList
  /-- There is no default value. -/
  default_eq : field.default = none
  /-- The field is a declared one. -/
  origin_eq : field.origin = .declared

/-- A name is read from an identifier. -/
theorem FieldName.ofString_ofList_eq_ok_iff {text : Text} {name : FieldName} :
    ofString (String.ofList text) = .ok name ↔ text = name.text.toList := by
  rw [ofString]
  constructor
  · intro h
    split at h
    · rw [← Except.ok.inj h, String.toList_ofList]
    · cases h
  · rintro rfl
    rw [String.ofList_toList, dif_pos name.valid]

/-- A declared field has a type that is not empty, and nothing else to begin with. -/
theorem Field.declare_eq_ok_iff {name : FieldName} {type : String} {field : Field} :
    declare name type = .ok field ↔ type ≠ "" ∧ field = { name, type } := by
  rw [declare]
  by_cases empty : type = ""
  · simp [empty]
  · rw [if_neg (by simpa using empty)]
    constructor
    · intro h
      exact ⟨empty, (Except.ok.inj h).symm⟩
    · rintro ⟨-, rfl⟩
      rfl

/-- Segments are read as a field when their texts spell it. -/
theorem FieldLine.fieldOfSegments_eq_ok_iff {line : Nat} {span : Span} {rules : List String}
    {first : Segment} {others : List Segment} {field : Field}
    (pieces : ∀ segment ∈ first :: others,
      segment.pieces.1 :: segment.pieces.2 = segment.text.splitOn ',') :
    fieldOfSegments line span rules (first, others) = .ok field ↔
      ∃ typed properties, others.map Segment.text = typed :: properties ∧
        field.rules = rules ∧ field.SpelledBy first.text typed properties := by
  cases others with
  | nil =>
    constructor
    · intro h
      cases h
    · rintro ⟨typed, properties, h, -⟩
      cases h
  | cons typed properties =>
    have split : typed.text.splitOn ',' = typed.pieces.1 :: typed.pieces.2 :=
      (pieces typed (List.mem_cons_of_mem first List.mem_cons_self)).symm
    simp only [fieldOfSegments, Outcome.bind_eq_ok_iff, Outcome.mapError_eq_ok_iff,
      FieldName.ofString_ofList_eq_ok_iff]
    by_cases empty : typed.pieces.1.trim = []
    · -- an empty type is refused, and spells no field
      rw [empty]
      constructor
      · rintro ⟨name, -, h⟩
        cases h
      · rintro ⟨_, _, same, -, spelled⟩
        obtain ⟨rfl, -⟩ := List.cons.inj same
        obtain ⟨type, parts, trimmed⟩ := spelled.pieces
        obtain ⟨rfl, -⟩ := List.cons.inj (split.symm.trans parts)
        rw [empty] at trimmed
        exact absurd (String.toList_eq_nil_iff.1 trimmed.symm) spelled.type_ne
    · have kept : (String.ofList typed.pieces.1.trim).isEmpty = false := by
        simpa using empty
      simp only [kept, Bool.false_eq_true, if_false, Outcome.bind_eq_ok_iff,
        Outcome.mapError_eq_ok_iff, Field.declare_eq_ok_iff, foldlM_addProperty_eq_ok_iff]
      constructor
      · rintro ⟨name, trimName, _, ⟨nonempty, rfl⟩, set, ⟨keywords, same⟩, h⟩
        cases h
        refine ⟨_, _, rfl, rfl, trimName, ⟨_, ?_, String.toList_ofList.symm⟩, nonempty, ?_, ?_,
          rfl, rfl⟩
        · rw [split, List.map_map]
          simp
        · simpa using keywords
        · simpa using same
      · rintro ⟨_, _, same, rfl, spelled⟩
        obtain ⟨rfl, rfl⟩ := List.cons.inj same
        obtain ⟨type, parts, trimmed⟩ := spelled.pieces
        obtain ⟨rfl, params⟩ := List.cons.inj (split.symm.trans parts)
        refine ⟨field.name, spelled.trim_name, _, ⟨?_, rfl⟩, field.properties,
          ⟨?_, ?_⟩, ?_⟩
        · simpa using empty
        · simpa using spelled.keywords
        · simpa using spelled.contains_iff
        · have kept : (field.params.map String.toList).map String.ofList = field.params := by
            simp
          rw [trimmed, params, String.ofList_toList, kept]
          obtain ⟨name, type, params, set, default, rules, origin⟩ := field
          obtain rfl : default = none := spelled.default_eq
          obtain rfl : origin = .declared := spelled.origin_eq
          rfl

/-! ## Lines -/

namespace SourceLine

/-- The definition on a field line: what stands before the first arrow, without trailing blanks. -/
def definition (line : SourceLine) : Text := line.content.cutAtArrow.1.trimEnd

/-- The rules on a field line: what stands after the first arrow, if there is one. -/
def rules (line : SourceLine) : List String :=
  match line.content.cutAtArrow.2 with
  | some text => splitRules text
  | none => []

end SourceLine

namespace FieldLine

variable {line : SourceLine}

/-- A line that is not the word for timestamps is read as a definition with rules. -/
theorem ofLine_of_ne (h : line.content ≠ timestampsWord.toList) :
    ofLine line = (do
      let tokens ← definitionTokens line.definition line.contentStart line.number
      let span := Span.ofText line.contentStart line.definition
      let segments := Segment.group line.contentStart tokens
      let field ← fieldOfSegments line.number span line.rules segments
      return .column field span) := by
  rw [ofLine, if_neg h]
  rfl

/-- A line gives an entity its timestamps exactly when it is that word. -/
theorem ofLine_eq_timestamps_iff :
    ofLine line = .ok .timestamps ↔ line.content = timestampsWord.toList := by
  constructor
  · intro h
    by_contra other
    rw [ofLine_of_ne other] at h
    obtain ⟨tokens, -, h⟩ := Outcome.bind_eq_ok_iff.1 h
    obtain ⟨field, -, h⟩ := Outcome.bind_eq_ok_iff.1 h
    cases h
  · intro word
    rw [ofLine, if_pos word]
    rfl

/-- A line is read as a field when the parts of its definition spell it. -/
theorem ofLine_eq_column_iff {field : Field} {span : Span} :
    ofLine line = .ok (.column field span) ↔
      line.content ≠ timestampsWord.toList ∧
      span = .ofText line.contentStart line.definition ∧ field.rules = line.rules ∧
      ∃ name typed properties, line.definition.splitOn ':' = name :: typed :: properties ∧
        field.SpelledBy name typed properties := by
  by_cases word : line.content = timestampsWord.toList
  · rw [ofLine_eq_timestamps_iff.2 word]
    refine iff_of_false ?_ fun h => h.1 word
    intro h
    cases h
  · obtain ⟨tokens, first, others, found, grouped, texts, pieces⟩ :=
      exists_segments line.definition line.contentStart line.number
    rw [ofLine_of_ne word, ← texts]
    simp only [Outcome.bind_eq_ok_iff, found, Except.ok.injEq, exists_eq_left', grouped,
      fieldOfSegments_eq_ok_iff pieces, pure, Except.pure, column.injEq, List.map_cons]
    constructor
    · rintro ⟨_, ⟨typed, properties, parts, rules, spelled⟩, rfl, rfl⟩
      exact ⟨word, rfl, rules, first.text, typed, properties, by rw [parts], spelled⟩
    · rintro ⟨-, rfl, rules, name, typed, properties, parts, spelled⟩
      obtain ⟨rfl, others⟩ := List.cons.inj parts
      exact ⟨field, ⟨typed, properties, others, rules, spelled⟩, rfl, rfl⟩

end FieldLine

end EntitySchema
