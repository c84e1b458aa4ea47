import EntitySchema.Proofs.Declarations.Resolution
import EntitySchema.Proofs.ReadingOfBlocks

/-! # What a source declares

The schema of a source depends on nothing but the entities that its blocks declare. Of the blocks of
one name the last gives the entity, while the relations of all blocks count: each block that has one
or has many of an entity asks it for a column, and each many-to-many relation has its link table. -/

namespace EntitySchema

open Repeats

/-! ## The schema of declared entities -/

/-- Whether an entity has one or has many of a target, which then carries a column for it. -/
def Entity.Asks (entity : Entity) (target : EntityName) : Prop :=
  target ∈ entity.hasOne ∨ target ∈ entity.hasMany

instance (entity : Entity) (target : EntityName) : Decidable (entity.Asks target) :=
  inferInstanceAs (Decidable (_ ∨ _))

/-- The columns for the entities that ask a target for one, in the order in which each column is
first asked for. -/
def Entity.columnsFor (entities : List Entity) (target : EntityName) : List FieldName :=
  ((entities.filter (·.Asks target)).map fun entity =>
    FieldName.foreignKeyFor entity.name).eraseDups

/-- No column is asked for twice. -/
theorem Entity.nodup_columnsFor (entities : List Entity) (target : EntityName) :
    (columnsFor entities target).Nodup :=
  nodup_eraseDups _

/-- A target carries a column for every entity that asks it for one. -/
theorem Entity.mem_columnsFor_iff {entities : List Entity} {target : EntityName}
    {column : FieldName} :
    column ∈ columnsFor entities target ↔
      ∃ entity ∈ entities, entity.Asks target ∧ FieldName.foreignKeyFor entity.name = column := by
  rw [columnsFor, List.mem_eraseDups, List.mem_map]
  simp only [List.mem_filter, decide_eq_true_eq, and_assoc]

/-- The link tables for the many-to-many relations of entities. -/
def Entity.linkTables (entities : List Entity) : List LinkTable :=
  entities.flatMap fun entity => entity.hasManyAndBelongsTo.map (LinkTable.between entity.name)

/-- The schema of entities that are declared one after the other. -/
def Schema.ofDeclared (entities : List Entity) : Schema where
  entities := (Entity.latest entities).map fun entity =>
    entity.withForeignKeys (Entity.columnsFor entities entity.name)
  links := Entity.linkTables entities

/-! ## The requests of a block -/

/-- The columns that a header asks for, each with its target. -/
def Block.requests (block : Block) : List (EntityName × FieldName) :=
  (block.header.relations.filter (·.kind.needsForeignKey)).map fun relation =>
    (relation.target, FieldName.foreignKeyFor block.name)

/-- A header asks a target when its entity does. -/
theorem Block.mem_requests_iff {block : Block} {target : EntityName} {column : FieldName} :
    (target, column) ∈ block.requests ↔
      block.entity.Asks target ∧ column = FieldName.foreignKeyFor block.name := by
  have kinds : ∀ kind : RelationKind,
      kind.needsForeignKey = true ↔ kind = .hasOne ∨ kind = .hasMany := by
    rintro ⟨⟩ <;> decide
  simp only [requests, Entity.Asks, entity, related, List.mem_map, List.mem_filter, Prod.mk.injEq,
    kinds, decide_eq_true_eq]
  constructor
  · rintro ⟨relation, ⟨inside, one | many⟩, rfl, rfl⟩
    · exact ⟨.inl ⟨relation, ⟨inside, one⟩, rfl⟩, rfl⟩
    · exact ⟨.inr ⟨relation, ⟨inside, many⟩, rfl⟩, rfl⟩
  · rintro ⟨⟨relation, ⟨inside, kind⟩, rfl⟩ | ⟨relation, ⟨inside, kind⟩, rfl⟩, rfl⟩
    · exact ⟨relation, ⟨inside, .inl kind⟩, rfl, rfl⟩
    · exact ⟨relation, ⟨inside, .inr kind⟩, rfl, rfl⟩

/-- A header may name a target more than once, but it asks it for one column only. -/
theorem Block.asked_requests (block : Block) (target : EntityName) :
    PendingColumns.asked block.requests target =
      if block.entity.Asks target then [FieldName.foreignKeyFor block.name] else [] := by
  -- every request of a block is for the column that refers to its entity
  have one : ∀ column ∈ (block.requests.filter (·.1 = target)).map (·.2),
      column = FieldName.foreignKeyFor block.name := by
    intro column inside
    obtain ⟨request, chosen, rfl⟩ := List.mem_map.1 inside
    exact (mem_requests_iff.1 (List.mem_filter.1 chosen).1).2
  have present : FieldName.foreignKeyFor block.name ∈
      (block.requests.filter (·.1 = target)).map (·.2) ↔ block.entity.Asks target := by
    rw [← List.mem_eraseDups, ← PendingColumns.asked, PendingColumns.mem_asked_iff,
      mem_requests_iff]
    exact and_iff_left rfl
  rw [PendingColumns.asked, eraseDups_of_forall_eq one]
  simp only [present]

/-- The columns for entities, put together entity by entity. -/
theorem Entity.columnsFor_eq_flatMap (entities : List Entity) (target : EntityName) :
    columnsFor entities target = (entities.flatMap fun entity =>
      if entity.Asks target then [FieldName.foreignKeyFor entity.name] else []).eraseDups := by
  rw [columnsFor]
  congr 1
  induction entities with
  | nil => rfl
  | cons first rest ih =>
    rw [List.flatMap_cons, ← ih, List.filter_cons]
    by_cases asks : first.Asks target <;> simp [asks]

/-- The columns that are asked of a target by the headers of blocks are those for their
entities. -/
theorem Block.asked_flatMap_requests (blocks : List Block) (target : EntityName) :
    PendingColumns.asked (blocks.flatMap requests) target =
      Entity.columnsFor (blocks.map entity) target := by
  rw [PendingColumns.asked, List.filter_flatMap, List.map_flatMap, Entity.columnsFor_eq_flatMap,
    List.flatMap_map]
  -- block by block, repeated requests of one header are the only difference
  apply eraseDups_flatMap_congr
  intro block _
  rw [← PendingColumns.asked, asked_requests, name_entity]
  split <;> rfl

/-- The entity that is declared last under a name is that of the last block of this name. -/
theorem Block.latest?_map_entity (blocks : List Block) (name : EntityName) :
    Entity.latest? (blocks.map entity) name =
      (blocks.reverse.find? (·.name = name)).map entity := by
  rw [Entity.latest?, ← List.map_reverse, List.find?_map]
  rfl

/-- The columns for the entities of blocks can be told from the headers. -/
theorem Block.columnsFor_map_entity (blocks : List Block) (target : EntityName) :
    Entity.columnsFor (blocks.map entity) target =
      ((blocks.filter fun block =>
        target ∈ block.related .hasOne ∨ target ∈ block.related .hasMany).map fun block =>
          FieldName.foreignKeyFor block.name).eraseDups := by
  rw [Entity.columnsFor, List.filter_map, List.map_map]
  rfl

/-! ## The declarations of a reading -/

namespace Reading

/-- Declaring relations registers their requests. -/
theorem pending_foldl_declareRelation (block : Block) (reading : Reading) :
    (block.header.relations.foldl
      (fun reading relation => declareRelation block.name relation reading)
      reading).declarations.pending = reading.declarations.pending.registerAll block.requests := by
  rw [Block.requests]
  induction block.header.relations generalizing reading with
  | nil => rfl
  | cons relation rest ih =>
    rw [List.foldl_cons, ih, List.filter_cons, declareRelation]
    split <;> rfl

/-- Declaring relations adds their link tables. -/
theorem links_foldl_declareRelation (block : Block) (reading : Reading) :
    (block.header.relations.foldl
      (fun reading relation => declareRelation block.name relation reading)
      reading).declarations.links = reading.declarations.links ++
        (block.related .hasManyAndBelongsTo).map (LinkTable.between block.name) := by
  rw [Block.related]
  induction block.header.relations generalizing reading with
  | nil => exact (List.append_nil _).symm
  | cons relation rest ih =>
    rw [List.foldl_cons, ih, List.filter_cons, declareRelation]
    by_cases kind : relation.kind = .hasManyAndBelongsTo <;> simp [kind]

/-- What is pending after blocks is asked by their headers. -/
theorem pending_ofBlocks (blocks : List Block) :
    (ofBlocks blocks).declarations.pending =
      ⟨PendingColumns.askedByTarget (blocks.flatMap Block.requests)⟩ := by
  rw [← PendingColumns.registerAll_empty]
  induction blocks using List.reverseRecOn with
  | nil => rfl
  | append_singleton front last ih =>
    rw [ofBlocks_concat, List.flatMap_append, List.flatMap_singleton,
      PendingColumns.registerAll_append, ← ih]
    exact pending_foldl_declareRelation last _

/-- The link tables after blocks are those of their entities. -/
theorem links_ofBlocks (blocks : List Block) :
    (ofBlocks blocks).declarations.links = Entity.linkTables (blocks.map Block.entity) := by
  rw [Entity.linkTables, List.flatMap_map]
  induction blocks using List.reverseRecOn with
  | nil => rfl
  | append_singleton front last ih =>
    rw [ofBlocks_concat, List.flatMap_append, List.flatMap_singleton, ← ih]
    exact links_foldl_declareRelation last _

end Reading

/-! ## The schema of a source -/

namespace Schema

/-- A source is accepted when its lines are and the declarations can be resolved. -/
theorem ofSource_eq_ok_iff_exists_reading {policy : DuplicatePolicy} {source : String}
    {schema : Schema} :
    ofSource policy source = .ok schema ↔
      ∃ reading,
        (Reading.feedAll policy (SourceLine.all source.toList)).run.run .start = (.ok (), reading) ∧
        reading.declarations.resolve (.ofSource source.toList) = .ok schema := by
  rw [ofSource]
  rcases (Reading.feedAll policy (SourceLine.all source.toList)).run.run .start with
    ⟨_ | _, reading⟩
  · constructor
    · intro h
      cases h
    · rintro ⟨_, h, -⟩
      cases h
  · constructor
    · exact fun h => ⟨reading, rfl, h⟩
    · rintro ⟨_, h, resolved⟩
      cases h
      exact resolved

/-- A source is accepted when it can be cut into blocks without repeats that declare every target
which they ask for a column; its schema is that of the declared entities. -/
theorem ofSource_eq_ok_iff {policy : DuplicatePolicy} {source : String} {schema : Schema} :
    ofSource policy source = .ok schema ↔
      ∃ blocks, Block.ofSource source = .ok ([], blocks) ∧ Block.Distinct policy blocks ∧
        (∀ block ∈ blocks, ∀ target, block.entity.Asks target → target ∈ blocks.map Block.name) ∧
        schema = ofDeclared (blocks.map Block.entity) := by
  -- lines and declarations may fail apart from each other; this is the part of the declarations
  have resolution : ∀ blocks : List Block,
      (Reading.ofBlocks blocks).declarations.resolve (.ofSource source.toList) = .ok schema ↔
        (∀ block ∈ blocks, ∀ target, block.entity.Asks target →
          target ∈ blocks.map Block.name) ∧ schema = ofDeclared (blocks.map Block.entity) := by
    intro blocks
    have distinct := Entity.nodup_map_name_latest (blocks.map Block.entity)
    have names : ∀ name, name ∈ (Entity.latest (blocks.map Block.entity)).map (·.name) ↔
        name ∈ blocks.map Block.name := by
      intro name
      rw [Entity.map_name_latest, List.mem_eraseDups, List.map_map]
      rfl
    rw [← Reading.toList_entities_ofBlocks] at distinct
    rw [Declarations.resolve_eq_ok_iff distinct (Reading.pending_ofBlocks blocks),
      Reading.toList_entities_ofBlocks, Reading.links_ofBlocks]
    simp only [names, Block.asked_flatMap_requests, ofDeclared]
    apply and_congr_left
    intro _
    constructor
    · intro h block inside target asks
      exact h (target, _) (List.mem_flatMap.2 ⟨block, inside, Block.mem_requests_iff.2 ⟨asks, rfl⟩⟩)
    · intro h request inside
      obtain ⟨block, member, wanted⟩ := List.mem_flatMap.1 inside
      exact h block member request.1 (Block.mem_requests_iff.1 wanted).1
  rw [ofSource_eq_ok_iff_exists_reading]
  constructor
  · rintro ⟨reading, read, resolved⟩
    obtain ⟨blocks, cut, distinct, rfl⟩ := Reading.run_feedAll_start.1 read
    exact ⟨blocks, cut, distinct, (resolution blocks).1 resolved⟩
  · rintro ⟨blocks, cut, distinct, resolved⟩
    exact ⟨_, Reading.run_feedAll_start.2 ⟨blocks, cut, distinct, rfl⟩,
      (resolution blocks).2 resolved⟩

/-- When a later declaration replaces an earlier one, an accepted source can be cut into blocks. The
names of the blocks are those of the entities, each where it stands first; the last block of a name
gives the entity, with a foreign key for every block that has one or has many of it and whose column
it does not declare; every many-to-many relation of every block has its link table. -/
theorem ofSource_replace_eq_of_blocks {source : String} {schema : Schema}
    (h : ofSource .replace source = .ok schema) :
    ∃ blocks, Block.ofSource source = .ok ([], blocks) ∧
      schema.entities = ((blocks.map Block.name).eraseDups.filterMap fun name =>
        (blocks.reverse.find? (·.name = name)).map fun last =>
          { last.entity with
            fields := last.fields ++
              ((((blocks.filter fun block =>
                    name ∈ block.related .hasOne ∨ name ∈ block.related .hasMany).map fun block =>
                  FieldName.foreignKeyFor block.name).eraseDups.filter
                (· ∉ last.fields.map (·.name))).map Field.foreignKey) }) ∧
      schema.links = blocks.flatMap fun block =>
        (block.related .hasManyAndBelongsTo).map (LinkTable.between block.name) := by
  obtain ⟨blocks, cut, -, -, rfl⟩ := ofSource_eq_ok_iff.1 h
  refine ⟨blocks, cut, ?_, List.flatMap_map _ _ _⟩
  rw [ofDeclared, Entity.latest, List.map_filterMap, List.map_map]
  apply List.filterMap_congr
  intro name _
  -- both sides look for the last block of the name
  rw [Block.latest?_map_entity, Option.map_map]
  cases found : blocks.reverse.find? (·.name = name) with
  | none => rfl
  | some last =>
    obtain rfl : last.name = name := by simpa using List.find?_some found
    have lacking : (fun column => !last.entity.hasField column) =
        fun column => decide (column ∉ last.fields.map (·.name)) := by
      funext column
      rw [Bool.eq_iff_iff, Bool.not_eq_true', decide_eq_true_iff, ← Block.fields_entity,
        ← Entity.hasField_iff, Bool.not_eq_true]
    rw [Option.map_some, Option.map_some, Function.comp_apply, Entity.withForeignKeys,
      Block.name_entity, Block.columnsFor_map_entity, lacking]
    rfl

/-- A user is declared anew, and the link table of its replaced declaration stays. -/
theorem ofSource_replace_eq_of_blocks_redeclared :
    ∃ schema,
      ofSource .replace "User Post:hmb\n  name:string\nPost User:hm\nUser\n" = .ok schema ∧
        ∃ blocks,
          Block.ofSource "User Post:hmb\n  name:string\nPost User:hm\nUser\n" = .ok ([], blocks) ∧
            schema.links = blocks.flatMap fun block =>
              (block.related .hasManyAndBelongsTo).map (LinkTable.between block.name) :=
  Outcome.exists_eq_ok_and_of_isOk (by decide +kernel) fun _ h =>
    have ⟨blocks, cut, _, links⟩ := ofSource_replace_eq_of_blocks h
    ⟨blocks, cut, links⟩

end Schema

end EntitySchema
