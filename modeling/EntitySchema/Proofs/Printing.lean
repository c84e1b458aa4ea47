import EntitySchema.Proofs.Blocks
import EntitySchema.Proofs.Source.LinePrinting

/-! # Printed schemas are cut into blocks again

The printed text of a schema has a block for each of its entities. The block declares what was
printed of the entity: everything but the columns that other entities asked for. -/

namespace EntitySchema

open Text

namespace Entity

/-- What is printed of an entity: all but the columns that other entities asked for. -/
def declaredPart (entity : Entity) : Entity :=
  { entity with fields := entity.fields.filter Field.isDeclared }

/-- Whether an entity can be written down. -/
structure Writable (entity : Entity) : Prop where
  /-- The name of the table is not written, so it must be the derived one. -/
  tableName_eq : entity.tableName = entity.name.tableName
  /-- Every declared field can be written on one line. -/
  fields : ∀ field ∈ entity.declaredPart.fields, field.Writable ∧ field.OnOneLine

/-! ## The lines of an entity -/

/-- The lines that are printed for fields and for timestamps. -/
def memberTexts (fields : List Field) (timestamps : Bool) : List Text :=
  (fields.map fun field => indent.toList ++ field.printed.toList) ++
    if timestamps then [indent.toList ++ timestampsWord.toList] else []

/-- The lines that are printed for an entity. -/
def lineTexts (entity : Entity) : List Text :=
  headerText entity.name entity.relations ::
    memberTexts entity.declaredPart.fields entity.timestamps

/-- An entity is printed as its lines, each ended by a newline. -/
theorem toList_printed (entity : Entity) :
    entity.printed.toList = entity.lineTexts.flatMap (· ++ ['\n']) := by
  have newline : "\n".toList = ['\n'] := rfl
  have space : " ".toList = [' '] := rfl
  have colon : ":".toList = [':'] := rfl
  simp only [printed, lineTexts, memberTexts, headerText, relationText, declaredPart,
    String.toList_append, String.toList_join, List.flatMap_map, List.flatMap_cons,
    List.flatMap_append, newline, space, colon]
  split <;> simp

/-- The lines of a writable entity end in no blank and have no newline. -/
theorem Writable.lineTexts_ends {entity : Entity} (h : entity.Writable) :
    ∀ text ∈ entity.lineTexts, trimEnd text = text ∧ '\n' ∉ text := by
  rw [lineTexts, List.forall_mem_cons]
  constructor
  · refine ⟨trimEnd_of_trim trim_headerText, fun newline => ?_⟩
    rcases isIdentifierChar_or_of_mem_headerText newline with identifier | colon | space
    · cases identifier
    · cases colon
    · cases space
  · rw [memberTexts, List.forall_mem_append, List.forall_mem_map]
    constructor
    · intro field member
      obtain ⟨writable, oneLine⟩ := h.fields field member
      refine ⟨trimEnd_append_of_ne_nil field.printed_ne_nil
        (trimEnd_of_trim writable.trim_printed) _, ?_⟩
      rw [List.mem_append, not_or]
      exact ⟨by decide, oneLine.newline_not_mem_printed⟩
    · split
      · rw [List.forall_mem_singleton]
        decide
      · exact List.forall_mem_nil _

/-- The relations of one kind are those with that kind among all. -/
theorem filter_relations (entity : Entity) (kind : RelationKind) :
    (entity.relations.filter (·.1 = kind)).map (·.2) = entity.related kind := by
  -- the group of a kind is kept as a whole, every other group is dropped
  have groups : ∀ other : RelationKind,
      (((entity.related other).map fun target => (other, target)).filter (·.1 = kind)).map (·.2) =
        if other = kind then entity.related other else [] := by
    intro other
    rw [List.filter_map, List.map_map]
    by_cases same : other = kind <;> simp [Function.comp_def, same]
  rw [relations, List.filter_flatMap, List.map_flatMap]
  simp only [groups]
  cases kind <;> simp [RelationKind.all]

end Entity

/-! ## Cutting the lines of an entity -/

namespace Block

variable {lines rest : List SourceLine} {blocks : List Block}

/-- The lines of fields and timestamps declare these. -/
theorem ofLines_of_memberTexts {fields : List Field} {timestamps : Bool}
    (writable : ∀ field ∈ fields, field.Writable)
    (texts : lines.map (·.text) = Entity.memberTexts fields timestamps)
    (cut : ofLines rest = .ok ([], blocks)) :
    ∃ contents, ofLines (lines ++ rest) = .ok (contents, blocks) ∧
      contents.filterMap FieldLine.field? = fields ∧
        contents.contains .timestamps = timestamps := by
  induction fields generalizing lines with
  | nil =>
    cases timestamps with
    | false =>
      obtain rfl : lines = [] := List.map_eq_nil_iff.1 texts
      exact ⟨[], cut, rfl, rfl⟩
    | true =>
      obtain ⟨line, rfl, text⟩ := List.map_eq_singleton_iff.1 texts
      obtain ⟨blank, kind, read⟩ := FieldLine.ofLine_timestamps_of_indented text
      refine ⟨[.timestamps], ?_, rfl, rfl⟩
      exact (ofLines_cons_of_field blank kind).2 ⟨_, [], read, cut, rfl⟩
  | cons field others ih =>
    rw [List.forall_mem_cons] at writable
    obtain ⟨line, later, rfl, text, texts⟩ := List.map_eq_cons_iff.1 texts
    obtain ⟨contents, cut, found, flagged⟩ := ih writable.2 texts
    obtain ⟨blank, kind, span, read⟩ := writable.1.ofLine_of_indented text
    refine ⟨.column field span :: contents, ?_, ?_, ?_⟩
    · exact (ofLines_cons_of_field blank kind).2 ⟨_, contents, read, cut, rfl⟩
    · exact congrArg (field :: ·) found
    · rw [List.contains_cons, flagged]
      rfl

/-- The lines of an entity form a block, which declares what is printed of the entity. -/
theorem ofLines_of_lineTexts {entity : Entity} (h : entity.Writable)
    (texts : lines.map (·.text) = entity.lineTexts) (cut : ofLines rest = .ok ([], blocks)) :
    ∃ block, ofLines (lines ++ rest) = .ok ([], block :: blocks) ∧
      block.entity = entity.declaredPart := by
  obtain ⟨line, later, rfl, text, texts⟩ := List.map_eq_cons_iff.1 texts
  obtain ⟨contents, cut, fields, timestamps⟩ :=
    ofLines_of_memberTexts (fun field member => (h.fields field member).1) texts cut
  obtain ⟨blank, kind, header, read, named, relations⟩ := Header.ofLine_of_margin text
  refine ⟨⟨header, contents⟩, ?_, ?_⟩
  · exact (ofLines_cons_of_header blank kind).2 ⟨header, contents, blocks, read, cut, rfl, rfl⟩
  · -- the relations of a kind stand in the header in the order in which the entity has them
    refine Entity.ext_related named ?_ fields timestamps fun kind => ?_
    · exact (congrArg EntityName.tableName named).trans h.tableName_eq.symm
    · rw [related_entity, related_eq, relations]
      exact Entity.filter_relations entity kind

/-- The lines of entities, each followed by an empty line, form a block for each entity. -/
theorem ofLines_of_flatMap_lineTexts {entities : List Entity}
    (writable : ∀ entity ∈ entities, entity.Writable)
    (texts : lines.map (·.text) = entities.flatMap (·.lineTexts ++ [[]])) :
    ∃ blocks, ofLines lines = .ok ([], blocks) ∧
      blocks.map Block.entity = entities.map Entity.declaredPart := by
  induction entities generalizing lines with
  | nil =>
    obtain rfl : lines = [] := List.map_eq_nil_iff.1 texts
    exact ⟨[], rfl, rfl⟩
  | cons entity others ih =>
    rw [List.forall_mem_cons] at writable
    -- the lines of the first entity, the empty line after them, and the lines of the others
    rw [List.flatMap_cons, List.append_assoc] at texts
    obtain ⟨own, later, rfl, ownTexts, laterTexts⟩ := List.map_eq_append_iff.1 texts
    obtain ⟨line, following, rfl, text, followingTexts⟩ := List.map_eq_cons_iff.1 laterTexts
    obtain ⟨blocks, cut, same⟩ := ih writable.2 followingTexts
    have blank : line.isBlank = true := by
      rw [SourceLine.isBlank, text]
      rfl
    rw [← ofLines_cons_of_isBlank blank] at cut
    obtain ⟨block, cut, declared⟩ := ofLines_of_lineTexts writable.1 ownTexts cut
    exact ⟨block :: blocks, cut, by rw [List.map_cons, declared, same, List.map_cons]⟩

end Block

/-! ## The lines of a schema -/

namespace Schema

variable {schema : Schema}

/-- The lines of a schema: those of its entities, each followed by an empty line. -/
def lineTexts (schema : Schema) : List Text := schema.entities.flatMap (·.lineTexts ++ [[]])

/-- The lines of writable entities end in no blank and have no newline. -/
theorem lineTexts_ends (writable : ∀ entity ∈ schema.entities, entity.Writable) :
    ∀ text ∈ schema.lineTexts, trimEnd text = text ∧ '\n' ∉ text := by
  intro text member
  obtain ⟨entity, present, listed⟩ := List.mem_flatMap.1 member
  rcases List.mem_append.1 listed with own | empty
  · exact (writable entity present).lineTexts_ends text own
  · rw [List.mem_singleton.1 empty]
    exact ⟨rfl, List.not_mem_nil⟩

/-- A printed schema with entities is split into its lines. -/
theorem splitOn_printed (nonempty : schema.entities ≠ [])
    (writable : ∀ entity ∈ schema.entities, entity.Writable) :
    schema.printed.toList.splitOn '\n' = schema.lineTexts := by
  have newline : "\n".toList = ['\n'] := rfl
  -- with one more newline, every line is ended by one, the empty lines included
  have ended : schema.printed.toList ++ ['\n'] = schema.lineTexts.flatMap (· ++ ['\n']) := by
    rw [printed, String.toList_intercalate, newline, List.map_map,
      intercalate_append_singleton (by simpa using nonempty), List.flatMap_map, lineTexts,
      List.flatMap_assoc]
    apply List.flatMap_congr
    intro entity _
    rw [Function.comp_apply, Entity.toList_printed, List.flatMap_append]
    rfl
  have split := splitOn_flatMap_append fun text member => (lineTexts_ends writable text member).2
  rw [← ended, List.splitOn_append_cons_self] at split
  exact List.append_cancel_right split

end Schema

/-- A printed schema is cut into blocks that declare what is printed of its entities. -/
theorem Block.ofSource_printed {schema : Schema}
    (writable : ∀ entity ∈ schema.entities, entity.Writable) :
    ∃ blocks, ofSource schema.printed = .ok ([], blocks) ∧
      blocks.map Block.entity = schema.entities.map Entity.declaredPart := by
  by_cases empty : schema.entities = []
  · -- the text without characters has one line, which is blank
    refine ⟨[], ?_, by rw [empty]; rfl⟩
    rw [ofSource, Schema.printed, empty]
    rfl
  · apply ofLines_of_flatMap_lineTexts writable
    rw [SourceLine.map_text_all, Schema.splitOn_printed empty writable]
    refine (List.map_congr_left fun text member => ?_).trans (List.map_id' _)
    exact SourceLine.dropReturn_of_trimEnd (Schema.lineTexts_ends writable text member).1

end EntitySchema
