import EntitySchema.Proofs.Source.HeaderReading
import EntitySchema.Source.FieldLine
import Mathlib.Data.List.Basic
import Mathlib.Data.List.Induction

/-! # Blocks

The lines of a source that are not blank form *blocks*: a header and the field lines up to the next
header. A block declares one entity, which depends on nothing outside the block. -/

namespace EntitySchema

/-- A header with the field lines up to the next header. -/
structure Block where
  /-- The header. -/
  header : Header
  /-- The field lines, in order. -/
  lines : List FieldLine
  deriving DecidableEq, Repr

/-- The field that a line declares, unless it is the word for timestamps. -/
def FieldLine.field? : FieldLine → Option Field
  | .timestamps => none
  | .column field _ => some field

/-- The header on a line that is not blank and stands at the margin, if its grammar accepts it. -/
def SourceLine.header? (line : SourceLine) : Option Header :=
  if line.isBlank then none
  else match line.kind with
    | .field => none
    | .header => (Header.ofLine line).toOption

/-- A line is a header when it is not blank, stands at the margin and is accepted as one. -/
theorem SourceLine.header?_eq_some_iff {line : SourceLine} {header : Header} :
    line.header? = some header ↔
      line.isBlank = false ∧ line.kind = .header ∧ Header.ofLine line = .ok header := by
  rw [header?]
  cases line.isBlank with
  | true => simp
  | false =>
    cases line.kind with
    | field => simp
    | header => cases Header.ofLine line <;> simp [Except.toOption]

namespace Block

/-- The name of the entity that a block declares. -/
def name (block : Block) : EntityName := block.header.name

/-- The fields that a block declares, in order. -/
def fields (block : Block) : List Field := block.lines.filterMap FieldLine.field?

/-- Whether a block has the word for timestamps on one of its lines. -/
def timestamps (block : Block) : Bool := block.lines.contains .timestamps

/-- The entities that a header relates in one way, in order and with repeats. -/
def related (block : Block) (kind : RelationKind) : List EntityName :=
  (block.header.relations.filter (·.kind = kind)).map (·.target)

/-- The entity that a block declares. -/
def entity (block : Block) : Entity where
  name := block.name
  tableName := block.name.tableName
  fields := block.fields
  timestamps := block.timestamps
  hasOne := block.related .hasOne
  hasMany := block.related .hasMany
  belongsTo := block.related .belongsTo
  hasManyAndBelongsTo := block.related .hasManyAndBelongsTo

/-- The block with one more line at its end. -/
def addLine (block : Block) (line : FieldLine) : Block :=
  { block with lines := block.lines ++ [line] }

/-! ## Cutting lines into blocks -/

/-- Cuts lines into the field lines before the first header and the blocks after them. -/
def ofLines : List SourceLine → Except SourceError (List FieldLine × List Block)
  | [] => .ok ([], [])
  | line :: rest =>
    if line.isBlank then ofLines rest
    else match line.kind with
      | .field => do
        let content ← FieldLine.ofLine line
        let (loose, blocks) ← ofLines rest
        return (content :: loose, blocks)
      | .header => do
        let header ← Header.ofLine line
        let (own, blocks) ← ofLines rest
        return ([], ⟨header, own⟩ :: blocks)

/-- Cuts a source into the field lines before its first header and its blocks. -/
def ofSource (source : String) : Except SourceError (List FieldLine × List Block) :=
  ofLines (SourceLine.all source.toList)

variable {line : SourceLine} {rest : List SourceLine} {loose : List FieldLine} {blocks : List Block}

/-- A blank line is passed over. -/
theorem ofLines_cons_of_isBlank (blank : line.isBlank = true) :
    ofLines (line :: rest) = ofLines rest := by
  rw [ofLines, if_pos blank]

/-- A field line stands before the headers of the rest. -/
theorem ofLines_cons_of_field (blank : line.isBlank = false) (kind : line.kind = .field) :
    ofLines (line :: rest) = .ok (loose, blocks) ↔
      ∃ content others, FieldLine.ofLine line = .ok content ∧
        ofLines rest = .ok (others, blocks) ∧ loose = content :: others := by
  rw [ofLines, if_neg (by simp [blank]), kind]
  simp only [Outcome.bind_eq_ok_iff]
  constructor
  · rintro ⟨content, read, ⟨others, more⟩, cut, same⟩
    cases same
    exact ⟨content, others, read, cut, rfl⟩
  · rintro ⟨content, others, read, cut, rfl⟩
    exact ⟨content, read, (others, blocks), cut, rfl⟩

/-- A header takes the field lines before the next header into its block. -/
theorem ofLines_cons_of_header (blank : line.isBlank = false) (kind : line.kind = .header) :
    ofLines (line :: rest) = .ok (loose, blocks) ↔
      ∃ header own others, Header.ofLine line = .ok header ∧
        ofLines rest = .ok (own, others) ∧ loose = [] ∧ blocks = ⟨header, own⟩ :: others := by
  rw [ofLines, if_neg (by simp [blank]), kind]
  simp only [Outcome.bind_eq_ok_iff]
  constructor
  · rintro ⟨header, read, ⟨own, others⟩, cut, same⟩
    cases same
    exact ⟨header, own, others, read, cut, rfl, rfl⟩
  · rintro ⟨header, own, others, read, cut, rfl, rfl⟩
    exact ⟨header, read, (own, others), cut, rfl⟩

/-- Every field line before and in the blocks is read from one of the lines. -/
theorem exists_ofLine_of_mem_lines {lines : List SourceLine}
    (cut : ofLines lines = .ok (loose, blocks)) :
    ∀ content ∈ loose ++ blocks.flatMap (·.lines),
      ∃ line ∈ lines, FieldLine.ofLine line = .ok content := by
  induction lines generalizing loose blocks with
  | nil =>
    cases cut
    exact List.forall_mem_nil _
  | cons line rest ih =>
    have later : ∀ {loose : List FieldLine} {blocks : List Block},
        ofLines rest = .ok (loose, blocks) → ∀ content ∈ loose ++ blocks.flatMap (·.lines),
          ∃ other ∈ line :: rest, FieldLine.ofLine other = .ok content := by
      intro loose blocks cut content inside
      obtain ⟨other, member, read⟩ := ih cut content inside
      exact ⟨other, List.mem_cons_of_mem _ member, read⟩
    cases blank : line.isBlank with
    | true =>
      rw [ofLines_cons_of_isBlank blank] at cut
      exact later cut
    | false =>
      cases kind : line.kind with
      | field =>
        obtain ⟨first, others, read, after, rfl⟩ := (ofLines_cons_of_field blank kind).1 cut
        rw [List.cons_append, List.forall_mem_cons]
        exact ⟨⟨line, List.mem_cons_self, read⟩, later after⟩
      | header =>
        obtain ⟨header, own, others, -, after, rfl, rfl⟩ :=
          (ofLines_cons_of_header blank kind).1 cut
        have found := later after
        exact found

/-- The fields that blocks declare are read from the lines. -/
theorem exists_ofLine_of_mem_field {lines : List SourceLine} {blocks : List Block}
    (cut : ofLines lines = .ok ([], blocks)) {block : Block} (inside : block ∈ blocks)
    {field : Field} (h : field ∈ block.fields) :
    ∃ line ∈ lines, ∃ span, FieldLine.ofLine line = .ok (.column field span) := by
  obtain ⟨content, listed, same⟩ := List.mem_filterMap.1 h
  have member : content ∈ [] ++ blocks.flatMap (·.lines) :=
    List.mem_flatMap.2 ⟨block, inside, listed⟩
  obtain ⟨line, present, read⟩ := exists_ofLine_of_mem_lines cut content member
  cases content with
  | timestamps => cases same
  | column other span =>
    obtain rfl := Option.some.inj same
    exact ⟨line, present, span, read⟩

/-- The headers of blocks are those on the lines. -/
theorem map_header_of_ofLines {lines : List SourceLine}
    (cut : ofLines lines = .ok (loose, blocks)) :
    blocks.map Block.header = lines.filterMap SourceLine.header? := by
  induction lines generalizing loose blocks with
  | nil =>
    cases cut
    rfl
  | cons line rest ih =>
    rw [List.filterMap_cons, SourceLine.header?]
    cases blank : line.isBlank with
    | true =>
      rw [ofLines_cons_of_isBlank blank] at cut
      exact ih cut
    | false =>
      cases kind : line.kind with
      | field =>
        obtain ⟨content, others, -, later, -⟩ := (ofLines_cons_of_field blank kind).1 cut
        exact ih later
      | header =>
        obtain ⟨header, own, others, read, later, -, rfl⟩ :=
          (ofLines_cons_of_header blank kind).1 cut
        simp only [read, Except.toOption, Bool.false_eq_true, if_false, List.map_cons]
        exact congrArg (header :: ·) (ih later)

/-! ## The entity of a block -/

@[simp] theorem name_entity (block : Block) : block.entity.name = block.name := rfl

@[simp] theorem fields_entity (block : Block) : block.entity.fields = block.fields := rfl

@[simp] theorem related_entity (block : Block) (kind : RelationKind) :
    block.entity.related kind = block.related kind := by
  cases kind <;> rfl

/-- The entities of a block that are related in one way can be told from the kinds and targets. -/
theorem related_eq (block : Block) (kind : RelationKind) :
    block.related kind =
      ((block.header.relations.map RelationWord.relation).filter (·.1 = kind)).map (·.2) := by
  rw [related, List.filter_map, List.map_map]
  rfl

/-- A header declares the entity of the block without lines. -/
theorem entity_header (header : Header) : header.entity = entity ⟨header, []⟩ := by
  obtain ⟨name, span, relations⟩ := header
  induction relations using List.reverseRecOn with
  | nil => rfl
  | append_singleton front last ih =>
    rw [Header.entity] at ih ⊢
    rw [List.foldl_concat, ih]
    refine Entity.ext_related (Entity.name_addRelation ..) (Entity.tableName_addRelation ..)
      (Entity.fields_addRelation ..) (Entity.timestamps_addRelation ..) fun kind => ?_
    -- the last relation of the header is the last of its kind
    rw [Entity.related_addRelation, related_entity, related_entity]
    by_cases same : kind = last.kind
    · simp [related, same]
    · simp [related, same, Ne.symm same]

/-- The word for timestamps on one more line adds no field. -/
theorem fields_addLine_timestamps (block : Block) :
    (block.addLine .timestamps).fields = block.fields := by
  simp [fields, addLine, FieldLine.field?]

/-- A field on one more line is the last field of the block. -/
theorem fields_addLine_column (block : Block) (field : Field) (span : Span) :
    (block.addLine (.column field span)).fields = block.fields ++ [field] := by
  simp [fields, addLine, FieldLine.field?]

/-- The word for timestamps on one more line gives the entity its timestamps. -/
theorem entity_addLine_timestamps (block : Block) :
    (block.addLine .timestamps).entity = block.entity.withTimestamps := by
  rw [entity, fields_addLine_timestamps]
  simp [entity, addLine, Entity.withTimestamps, timestamps, related, Block.name]

/-- A field on one more line is the last field of the entity. -/
theorem entity_addLine_column (block : Block) (field : Field) (span : Span) :
    (block.addLine (.column field span)).entity = block.entity.addField field := by
  rw [entity, fields_addLine_column]
  simp [entity, addLine, Entity.addField, timestamps, related, Block.name]

end Block

end EntitySchema
