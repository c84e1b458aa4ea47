import EntitySchema.Proofs.Source.FieldReading
import EntitySchema.Schema.Printed

/-! # Fields that can be written

The texts of a field that is read from a line lack the marks of the notation, so nothing that is
printed for the field can be mistaken for a mark. Fields with such texts are *writable*: exactly
these are read from some line, and the line printed for one of them is read as that field. -/

namespace EntitySchema

open Text

/-! ## Writable fields -/

/-- Whether a text can stand in a definition: it has none of the marks that would end it. -/
structure Text.Unmarked (text : Text) : Prop where
  /-- It does not begin another segment. -/
  colon : ':' ∉ text
  /-- It does not begin another piece. -/
  comma : ',' ∉ text
  /-- It does not end the definition. -/
  noArrow : ¬ arrow <:+: text

/-- A part of a piece of a definition has none of the marks. -/
theorem Text.Unmarked.of_splitOn {definition segment piece part : Text}
    (h : ¬ arrow <:+: definition) (hs : segment ∈ definition.splitOn ':')
    (hp : piece ∈ segment.splitOn ',') (inside : part <:+: piece) : part.Unmarked where
  colon hc := not_mem_of_mem_splitOn hs ((infix_of_mem_splitOn ',' hp).subset (inside.subset hc))
  comma hc := not_mem_of_mem_splitOn hp (inside.subset hc)
  noArrow ha := h (ha.trans (inside.trans ((infix_of_mem_splitOn ',' hp).trans
    (infix_of_mem_splitOn ':' hs))))

/-- Whether a text can stand as a validation rule. -/
structure Text.IsRule (text : Text) : Prop where
  /-- An empty rule would be passed over. -/
  ne_nil : text ≠ []
  /-- Blanks around a rule would be lost. -/
  trimmed : text.trim = text
  /-- The separator would begin another rule. -/
  separator : ruleSeparator ∉ text

/-- Whether a field can be written on a line. -/
structure Field.Writable (field : Field) : Prop where
  /-- The field is a declared one. -/
  origin_eq : field.origin = .declared
  /-- A default value has no notation. -/
  default_eq : field.default = none
  /-- The type is not empty. -/
  type_ne : field.type ≠ ""
  /-- Blanks around the type would be lost. -/
  trim_type : Text.trim field.type.toList = field.type.toList
  /-- The type has no mark. -/
  type_unmarked : Text.Unmarked field.type.toList
  /-- No parameter has a mark. -/
  param_unmarked : ∀ param ∈ field.params, Text.Unmarked param.toList
  /-- Blanks after the last parameter would be lost unless a property follows. -/
  last_param : field.properties = .empty →
    ∀ param ∈ field.params.getLast?, trimEnd param.toList = param.toList
  /-- Every rule can stand as one. -/
  rules : ∀ rule ∈ field.rules, Text.IsRule rule.toList

/-- The rules that are found in a text can stand as rules, and are parts of the text. -/
theorem isRule_of_mem_splitRules {text : Text} {rule : String} (h : rule ∈ splitRules text) :
    Text.IsRule rule.toList ∧ rule.toList <:+: text := by
  simp only [splitRules, List.mem_map, List.mem_filter] at h
  obtain ⟨_, ⟨⟨part, hp, rfl⟩, nonempty⟩, rfl⟩ := h
  rw [String.toList_ofList]
  refine ⟨⟨by simpa using nonempty, trim_trim part, fun hs => ?_⟩, ?_⟩
  · exact not_mem_of_mem_splitOn hp ((trim_infix_self part).subset hs)
  · exact (trim_infix_self part).trans (infix_of_mem_splitOn ruleSeparator hp)

/-! ## What is read is writable -/

namespace SourceLine

variable {line : SourceLine}

/-- A definition has no arrow, and is a part of its line. -/
theorem not_arrow_infix_definition :
    (¬ arrow <:+: line.definition) ∧ line.definition <:+: line.content := by
  rcases cutAtArrow_cases line.content with ⟨none, cut⟩ | ⟨before, after, none, same, cut⟩
  · rw [definition, cut]
    exact ⟨fun h => none (h.trans (trimEnd_prefix_self _).isInfix), (trimEnd_prefix_self _).isInfix⟩
  · rw [definition, cut]
    refine ⟨fun h => none (h.trans (trimEnd_prefix_self _).isInfix),
      (trimEnd_prefix_self _).isInfix.trans ?_⟩
    rw [same, List.append_assoc]
    exact (List.prefix_append _ _).isInfix

/-- Every rule on a line can stand as one, and is a part of the line. -/
theorem isRule_of_mem_rules {rule : String} (h : rule ∈ line.rules) :
    Text.IsRule rule.toList ∧ rule.toList <:+: line.content := by
  rcases cutAtArrow_cases line.content with ⟨none, cut⟩ | ⟨before, after, none, same, cut⟩
  · rw [rules, cut] at h
    cases h
  · rw [rules, cut] at h
    obtain ⟨isRule, inside⟩ := isRule_of_mem_splitRules h
    refine ⟨isRule, inside.trans ?_⟩
    rw [same]
    exact (List.suffix_append _ _).isInfix

end SourceLine

namespace Field

/-- The texts of a field that were taken from its line without a check of their characters. -/
def texts (field : Field) : List String := field.type :: (field.params ++ field.rules)

/-- A field that spells the parts of a definition has no property when there is no third part. -/
theorem SpelledBy.properties_eq_nil {field : Field} {name typed : Text} {properties : List Text}
    (h : field.SpelledBy name typed properties) (empty : field.properties = .empty) :
    properties = [] := by
  cases properties with
  | nil => rfl
  | cons part rest =>
    obtain ⟨property, keyword⟩ := h.keywords part List.mem_cons_self
    have present := (h.contains_iff property).2 ⟨part, List.mem_cons_self, keyword⟩
    rw [empty, PropertySet.contains_empty] at present
    cases present

end Field

/-- The texts of a field that is read from a line are parts of the line. -/
theorem FieldLine.texts_infix_of_ofLine {line : SourceLine} {field : Field} {span : Span}
    (h : ofLine line = .ok (.column field span)) :
    ∀ text ∈ field.texts, text.toList <:+: line.content := by
  obtain ⟨-, -, rules, name, typed, properties, parts, spelled⟩ := ofLine_eq_column_iff.1 h
  obtain ⟨piece, pieces, trimmed⟩ := spelled.pieces
  have inLine : typed <:+: line.content := by
    refine (infix_of_mem_splitOn ':' ?_).trans line.not_arrow_infix_definition.2
    rw [parts]
    simp
  intro text inside
  rw [Field.texts, List.mem_cons, List.mem_append] at inside
  rcases inside with rfl | param | rule
  · rw [← trimmed]
    refine (trim_infix_self piece).trans ((infix_of_mem_splitOn ',' ?_).trans inLine)
    rw [pieces]
    exact List.mem_cons_self
  · refine (infix_of_mem_splitOn ',' ?_).trans inLine
    rw [pieces]
    exact List.mem_cons_of_mem _ (List.mem_map_of_mem param)
  · rw [rules] at rule
    exact (line.isRule_of_mem_rules rule).2

/-- A field that is read from a line is writable. -/
theorem FieldLine.writable_of_ofLine {line : SourceLine} {field : Field} {span : Span}
    (h : ofLine line = .ok (.column field span)) : field.Writable := by
  obtain ⟨-, -, rules, name, typed, properties, parts, spelled⟩ := ofLine_eq_column_iff.1 h
  obtain ⟨piece, pieces, trimmed⟩ := spelled.pieces
  have noArrow := line.not_arrow_infix_definition.1
  have typedIn : typed ∈ line.definition.splitOn ':' := by
    rw [parts]
    simp
  refine ⟨spelled.origin_eq, spelled.default_eq, spelled.type_ne, ?_, ?_, ?_, ?_, ?_⟩
  · rw [← trimmed]
    exact trim_trim piece
  · rw [← trimmed]
    refine .of_splitOn noArrow typedIn ?_ (trim_infix_self piece)
    rw [pieces]
    exact List.mem_cons_self
  · intro param hp
    refine .of_splitOn noArrow typedIn ?_ (List.infix_refl param.toList)
    rw [pieces]
    exact List.mem_cons_of_mem _ (List.mem_map_of_mem hp)
  · -- without a property the last parameter is the end of the definition, which is trimmed
    intro empty param last
    rw [spelled.properties_eq_nil empty] at parts
    apply trimEnd_eq_self_of_suffix (trimEnd_trimEnd line.content.cutAtArrow.1)
    have typedEnds : typed <:+ line.definition := by
      refine suffix_of_mem_getLast?_splitOn ':' ?_
      rw [parts]
      rfl
    refine .trans (suffix_of_mem_getLast?_splitOn ',' ?_) typedEnds
    rw [pieces, List.getLast?_cons, List.getLast?_map, last]
    rfl
  · intro rule hr
    rw [rules] at hr
    exact (line.isRule_of_mem_rules hr).1

/-! ## What is printed -/

/-- Parts put together with a mark that is not blank end as the last of them does. -/
theorem Text.trimEnd_intercalate {mark : Char} (mark_ne : isBlank mark = false)
    {parts : List Text} (h : ∀ part ∈ parts.getLast?, trimEnd part = part) :
    trimEnd ([mark].intercalate parts) = [mark].intercalate parts := by
  rcases List.eq_nil_or_concat' parts with rfl | ⟨front, last, rfl⟩
  · rfl
  · have ends : trimEnd last = last := h last (by simp)
    cases front with
    | nil => simpa using ends
    | cons first rest =>
      rw [List.cons_append, intercalate_cons, List.flatMap_append, List.flatMap_singleton,
        ← List.append_assoc]
      exact trimEnd_append_cons mark_ne ends _

namespace Field

variable {field : Field}

/-- The type of a field with its parameters, as printed. -/
def typedText (field : Field) : Text :=
  [','].intercalate (field.type.toList :: field.params.map String.toList)

/-- The keywords of the properties of a field, as printed. -/
def keywordTexts (field : Field) : List Text :=
  field.properties.toList.map (·.keyword.toList)

/-- The definition of a field, as printed before its rules. -/
def definitionText (field : Field) : Text :=
  [':'].intercalate (field.name.text.toList :: field.typedText :: field.keywordTexts)

/-- The rules of a field, as printed after the arrow. -/
def rulesText (field : Field) : Text :=
  ' ' :: [ruleSeparator].intercalate (field.rules.map String.toList)

/-- A field is printed as its definition, followed by its rules when it has any. -/
theorem toList_printed (field : Field) :
    field.printed.toList = if field.rules = [] then field.definitionText
      else field.definitionText ++ [' '] ++ arrow ++ field.rulesText := by
  have comma : ",".toList = [','] := rfl
  have colon : ":".toList = [':'] := rfl
  have gap : " -> ".toList = [' ', '-', '>', ' '] := rfl
  simp only [printed, definitionText, typedText, keywordTexts, intercalate_cons,
    String.toList_append, String.toList_join, List.flatMap_map, comma, colon, List.isEmpty_iff]
  split
  · simp [List.flatMap_map]
  · simp [List.flatMap_map, gap, arrow, rulesText, String.toList_intercalate]

/-- The characters of an identifier are none of the marks. -/
theorem unmarked_of_isIdentifier {name : String} (h : isIdentifier name = true) :
    Text.Unmarked name.toList where
  colon inside := absurd ((isIdentifier_iff.1 h).2 _ inside) (by decide)
  comma inside := absurd ((isIdentifier_iff.1 h).2 _ inside) (by decide)
  noArrow inside :=
    absurd ((isIdentifier_iff.1 h).2 '-' (inside.subset List.mem_cons_self)) (by decide)

/-- No keyword has a mark or a blank. -/
theorem keyword_unmarked (property : Property) :
    Text.Unmarked property.keyword.toList ∧
      Text.trim property.keyword.toList = property.keyword.toList := by
  have identifier : isIdentifier property.keyword = true := by cases property <;> decide
  exact ⟨unmarked_of_isIdentifier identifier, trim_of_isIdentifier identifier⟩

/-- The parts of a printed type are the type and its parameters. -/
theorem Writable.splitOn_typedText (h : field.Writable) :
    field.typedText.splitOn ',' = field.type.toList :: field.params.map String.toList := by
  refine List.splitOn_intercalate ',' ?_ (List.cons_ne_nil _ _)
  rw [List.forall_mem_cons, List.forall_mem_map]
  exact ⟨h.type_unmarked.comma, fun param hp => (h.param_unmarked param hp).comma⟩

/-- A printed type has no colon and no arrow. -/
theorem Writable.typedText_unmarked (h : field.Writable) :
    ':' ∉ field.typedText ∧ ¬ arrow <:+: field.typedText := by
  rw [typedText, intercalate_cons]
  constructor
  · intro inside
    simp only [List.mem_append, List.mem_flatMap, List.mem_map, List.mem_cons] at inside
    rcases inside with inside | ⟨_, ⟨param, hp, rfl⟩, colon | inside⟩
    · exact h.type_unmarked.colon inside
    · exact absurd colon (by decide)
    · exact (h.param_unmarked param hp).colon inside
  · apply not_arrow_infix_append_flatMap (by decide) (by decide) h.type_unmarked.noArrow
    rw [List.forall_mem_map]
    exact fun param hp => (h.param_unmarked param hp).noArrow

/-- The parts of a printed definition are the name, the type and the keywords. -/
theorem Writable.splitOn_definitionText (h : field.Writable) :
    field.definitionText.splitOn ':' =
      field.name.text.toList :: field.typedText :: field.keywordTexts := by
  refine List.splitOn_intercalate ':' ?_ (List.cons_ne_nil _ _)
  rw [List.forall_mem_cons, List.forall_mem_cons, keywordTexts, List.forall_mem_map]
  exact ⟨(unmarked_of_isIdentifier field.name.valid).colon, h.typedText_unmarked.1,
    fun property _ => (keyword_unmarked property).1.colon⟩

/-- A printed definition has no arrow. -/
theorem Writable.not_arrow_infix_definitionText (h : field.Writable) :
    ¬ arrow <:+: field.definitionText := by
  rw [definitionText, intercalate_cons]
  refine not_arrow_infix_append_flatMap (by decide) (by decide)
    (unmarked_of_isIdentifier field.name.valid).noArrow ?_
  rw [List.forall_mem_cons, keywordTexts, List.forall_mem_map]
  exact ⟨h.typedText_unmarked.2, fun property _ => (keyword_unmarked property).1.noArrow⟩

/-- A printed type has no trailing blanks, unless a property follows it. -/
theorem Writable.trimEnd_typedText (h : field.Writable) (empty : field.properties = .empty) :
    trimEnd field.typedText = field.typedText := by
  apply trimEnd_intercalate (by decide)
  intro part last
  rw [List.getLast?_cons, List.getLast?_map] at last
  cases ending : field.params.getLast? with
  | none =>
    rw [ending] at last
    obtain rfl := Option.some.inj last
    exact trimEnd_of_trim h.trim_type
  | some param =>
    rw [ending] at last
    obtain rfl := Option.some.inj last
    exact h.last_param empty param ending

/-- A printed definition has no trailing blanks. -/
theorem Writable.trimEnd_definitionText (h : field.Writable) :
    trimEnd field.definitionText = field.definitionText := by
  apply trimEnd_intercalate (by decide)
  intro part last
  rw [List.getLast?_cons_cons, List.getLast?_cons, keywordTexts, List.getLast?_map] at last
  cases ending : field.properties.toList.getLast? with
  | none =>
    rw [ending] at last
    obtain rfl := Option.some.inj last
    refine h.trimEnd_typedText (PropertySet.ext_contains fun property => ?_)
    rw [PropertySet.contains_empty, Bool.eq_false_iff, Ne, ← PropertySet.mem_toList,
      List.getLast?_eq_none_iff.1 ending]
    exact List.not_mem_nil
  | some property =>
    rw [ending] at last
    obtain rfl := Option.some.inj last
    exact trimEnd_of_trim (keyword_unmarked property).2

/-- The printed parts of a writable field spell it. -/
theorem Writable.spelledBy (h : field.Writable) :
    field.SpelledBy field.name.text.toList field.typedText field.keywordTexts where
  trim_name := trim_of_isIdentifier field.name.valid
  pieces := ⟨_, h.splitOn_typedText, h.trim_type⟩
  type_ne := h.type_ne
  keywords := by
    rw [keywordTexts, List.forall_mem_map]
    exact fun property _ => ⟨property, (keyword_unmarked property).2⟩
  contains_iff property := by
    simp only [keywordTexts, List.mem_map, exists_exists_and_eq_and, (keyword_unmarked _).2,
      Property.toList_keyword_inj, exists_eq_right, PropertySet.mem_toList]
  default_eq := h.default_eq
  origin_eq := h.origin_eq

/-- The rules that are printed are found again. -/
theorem Writable.splitRules_rulesText (h : field.Writable) (nonempty : field.rules ≠ []) :
    splitRules field.rulesText = field.rules := by
  have parts : (field.rulesText.splitOn ruleSeparator).map Text.trim =
      field.rules.map String.toList := by
    have split : ([ruleSeparator].intercalate (field.rules.map String.toList)).splitOn
        ruleSeparator = field.rules.map String.toList := by
      refine List.splitOn_intercalate ruleSeparator ?_ (by simpa using nonempty)
      rw [List.forall_mem_map]
      exact fun rule hr => (h.rules rule hr).separator
    have trimmed : (field.rules.map String.toList).map Text.trim =
        field.rules.map String.toList := by
      rw [List.map_map]
      exact List.map_congr_left fun rule hr => (h.rules rule hr).trimmed
    have blank : ∀ c ∈ [' '], isBlank c = true := List.forall_mem_singleton.2 rfl
    rw [rulesText, ← List.singleton_append, splitOn_append_of_not_mem (by decide), split]
    obtain ⟨first, others, rules⟩ := List.exists_cons_of_ne_nil nonempty
    rw [rules, List.map_cons] at trimmed ⊢
    rw [List.modifyHead_cons, List.map_cons, trim_append_of_isBlank blank]
    exact trimmed
  have kept : (field.rules.map String.toList).filter (!·.isEmpty) =
      field.rules.map String.toList := by
    rw [List.filter_eq_self, List.forall_mem_map]
    exact fun rule hr => by simpa using (h.rules rule hr).ne_nil
  rw [splitRules, parts, kept]
  simp

/-- A printed field is a trimmed text. -/
theorem Writable.trim_printed (h : field.Writable) :
    Text.trim field.printed.toList = field.printed.toList := by
  rw [trim_eq_self_iff, ← trimEnd_eq_self_iff]
  constructor
  · rw [toList_printed, definitionText, intercalate_cons]
    split
    · exact isBlank_head_of_isIdentifier field.name.valid _
    · simp only [List.append_assoc]
      exact isBlank_head_of_isIdentifier field.name.valid _
  · rw [toList_printed]
    split
    · exact h.trimEnd_definitionText
    · rename_i nonempty
      have ends : trimEnd ([ruleSeparator].intercalate (field.rules.map String.toList)) =
          [ruleSeparator].intercalate (field.rules.map String.toList) := by
        apply trimEnd_intercalate (by decide)
        intro part last
        obtain ⟨rule, hr, rfl⟩ := List.mem_map.1 (List.mem_of_mem_getLast? last)
        exact trimEnd_of_trim (h.rules rule hr).trimmed
      refine trimEnd_append_of_ne_nil (List.cons_ne_nil _ _) ?_ _
      obtain ⟨first, others, rules⟩ := List.exists_cons_of_ne_nil nonempty
      refine trimEnd_append_of_ne_nil ?_ ends [' ']
      rw [rules, List.map_cons, intercalate_cons]
      exact List.append_ne_nil_of_left_ne_nil
        (h.rules first (rules ▸ List.mem_cons_self)).ne_nil _

/-- A field that can be written is read from the line that is printed for it. -/
theorem Writable.ofLine_printed (h : field.Writable) {line : SourceLine}
    (printed : line.content = field.printed.toList) :
    FieldLine.ofLine line =
      .ok (.column field (.ofText line.contentStart field.definitionText)) := by
  have parts : line.definition = field.definitionText ∧ line.rules = field.rules := by
    rw [SourceLine.definition, SourceLine.rules, printed, toList_printed]
    split
    · rename_i empty
      rw [cutAtArrow_of_arrowless h.not_arrow_infix_definitionText, empty]
      exact ⟨h.trimEnd_definitionText, rfl⟩
    · rename_i nonempty
      have noArrow : ¬ arrow <:+: field.definitionText ++ [' '] := by
        rw [arrow_infix_append_cons_iff (by decide) (by decide), not_or]
        exact ⟨h.not_arrow_infix_definitionText, by decide⟩
      rw [cutAtArrow_append noArrow]
      refine ⟨?_, h.splitRules_rulesText nonempty⟩
      rw [trimEnd_append_of_isBlank (List.forall_mem_singleton.2 rfl), h.trimEnd_definitionText]
  rw [FieldLine.ofLine_eq_column_iff, parts.1, parts.2]
  refine ⟨?_, rfl, rfl, _, _, _, h.splitOn_definitionText, h.spelledBy⟩
  -- unlike the word for timestamps, a printed field has a colon
  intro word
  have colon : ':' ∈ field.printed.toList := by
    rw [toList_printed, definitionText, intercalate_cons]
    split <;> simp
  rw [← printed, word] at colon
  revert colon
  decide

end Field

end EntitySchema
