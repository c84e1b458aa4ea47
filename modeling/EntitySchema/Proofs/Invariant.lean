import EntitySchema.Proofs.Meaning
import EntitySchema.Proofs.Refusals
import EntitySchema.Proofs.Source.FieldReading

/-! # What holds after every line

However lines are fed, and whether they are accepted or refused, the reading is that of the blocks
of the accepted lines. So the open entity, the table, the pending columns and the link tables always
fit together, and each of them goes back to a header that was accepted. -/

namespace EntitySchema

namespace Reading

/-- The headers of those lines that are accepted when lines are fed one after the other. -/
def acceptedHeaders (policy : DuplicatePolicy) (lines : List SourceLine) : List Header :=
  (accepted policy start lines).filterMap SourceLine.header?

/-- Whether the parts of a reading fit together and go back to the headers that were accepted. -/
structure Sound (reading : Reading) (headers : List Header) : Prop where
  /-- An entity is open exactly when the table has one. -/
  hasOpenEntity_iff :
    reading.hasOpenEntity = true ↔ reading.declarations.entities.isEmpty = false
  /-- The open slot is in the table and has the entity of the last header, to which fields and
  timestamps may have been added. -/
  current : ∀ slot, reading.current = some slot →
    slot < reading.declarations.entities.size ∧
      ∃ entity header, reading.declarations.entities.at? slot = some entity ∧
        headers.getLast? = some header ∧
        entity = { header.entity with fields := entity.fields, timestamps := entity.timestamps }
  /-- While an entity is open, no field line that its grammar accepts is refused as an orphan. -/
  not_orphan : reading.hasOpenEntity = true → ∀ line content error next,
    FieldLine.ofLine line = .ok content →
      (feedField line).run.run reading = (.error error, next) → error.cause ≠ .orphanField
  /-- No two entities have the same name. -/
  names_distinct : (reading.declarations.entities.toList.map (·.name)).Nodup
  /-- No two fields of an entity have the same name. -/
  fields_distinct : ∀ entity ∈ reading.declarations.entities.toList,
    (entity.fields.map (·.name)).Nodup
  /-- Every field is a declared one with a type. -/
  fields_declared : ∀ entity ∈ reading.declarations.entities.toList, ∀ field ∈ entity.fields,
    field.origin = .declared ∧ field.type ≠ ""
  /-- Every entity of which one has one or many has a column pending. -/
  pending : ∀ entity ∈ reading.declarations.entities.toList,
    ∀ target ∈ entity.hasOne ++ entity.hasMany,
      reading.declarations.pending.contains target (.foreignKeyFor entity.name) = true
  /-- Every many-to-many relation of an entity has its link table. -/
  links : ∀ entity ∈ reading.declarations.entities.toList,
    ∀ target ∈ entity.hasManyAndBelongsTo,
      LinkTable.between entity.name target ∈ reading.declarations.links
  /-- Every pending column was asked for by a header. -/
  of_pending : ∀ entry ∈ reading.declarations.pending.entries, ∀ column ∈ entry.2,
    ∃ header ∈ headers, ∃ relation ∈ header.relations,
      relation.kind.needsForeignKey = true ∧ relation.target = entry.1 ∧
        column = .foreignKeyFor header.name
  /-- Every link table belongs to a relation of a header. -/
  of_links : ∀ link ∈ reading.declarations.links,
    ∃ header ∈ headers, ∃ relation ∈ header.relations,
      relation.kind = .hasManyAndBelongsTo ∧ link = .between header.name relation.target

/-! ## The reading of blocks -/

variable {blocks : List Block}

/-- The open entity after blocks is that of the last block. -/
theorem exists_current_ofBlocks (nonempty : blocks ≠ []) :
    ∃ slot last, blocks.getLast? = some last ∧ (ofBlocks blocks).current = some slot ∧
      (ofBlocks blocks).declarations.entities.at? slot = some last.entity := by
  obtain ⟨front, last, rfl⟩ := (List.eq_nil_or_concat' blocks).resolve_left nonempty
  obtain ⟨slot, current, found⟩ := at?_current_openEntity last.entity
    (last.header.relations.foldl
      (fun reading relation => declareRelation last.name relation reading) (ofBlocks front))
  refine ⟨slot, last, List.getLast?_concat, ?_⟩
  rw [ofBlocks_concat]
  exact ⟨current, found⟩

/-- Blocks that are not none leave an open entity, and a table that is not empty. -/
theorem hasOpenEntity_ofBlocks_iff :
    (ofBlocks blocks).hasOpenEntity = true ↔ blocks ≠ [] := by
  constructor
  · rintro h rfl
    cases h
  · intro nonempty
    obtain ⟨slot, -, -, current, -⟩ := exists_current_ofBlocks nonempty
    rw [hasOpenEntity, current]
    rfl

/-- The entities in the table are those of blocks. -/
theorem exists_block_of_mem_entities {entity : Entity}
    (h : entity ∈ (ofBlocks blocks).declarations.entities.toList) :
    ∃ block ∈ blocks, block.entity = entity := by
  rw [toList_entities_ofBlocks] at h
  exact List.mem_map.1 (Entity.mem_of_mem_latest h)

/-- A block has the entity of its header, with its own fields and timestamps. -/
theorem entity_eq_header_entity (block : Block) :
    block.entity =
      { block.header.entity with
        fields := block.entity.fields, timestamps := block.entity.timestamps } := by
  rw [Block.entity_header]
  rfl

/-- The column for the entity of a block is pending for every target that it asks. -/
theorem contains_pending_ofBlocks {block : Block} (inside : block ∈ blocks) {target : EntityName}
    (asks : block.entity.Asks target) :
    (ofBlocks blocks).declarations.pending.contains target (.foreignKeyFor block.name) = true := by
  rw [pending_ofBlocks, PendingColumns.contains_askedByTarget]
  exact List.mem_flatMap.2 ⟨block, inside, Block.mem_requests_iff.2 ⟨asks, rfl⟩⟩

/-- What is pending was asked for by the header of a block. -/
theorem exists_block_of_mem_pending {entry : EntityName × List FieldName}
    (h : entry ∈ (ofBlocks blocks).declarations.pending.entries) {column : FieldName}
    (listed : column ∈ entry.2) :
    ∃ block ∈ blocks, ∃ relation ∈ block.header.relations,
      relation.kind.needsForeignKey = true ∧ relation.target = entry.1 ∧
        column = .foreignKeyFor block.name := by
  rw [pending_ofBlocks] at h
  obtain ⟨target, -, rfl⟩ := List.mem_map.1 h
  obtain ⟨block, inside, request⟩ := List.mem_flatMap.1 (PendingColumns.mem_asked_iff.1 listed)
  obtain ⟨relation, chosen, same⟩ := List.mem_map.1 request
  obtain ⟨member, needed⟩ := List.mem_filter.1 chosen
  obtain ⟨rfl, rfl⟩ := Prod.mk.inj same
  exact ⟨block, inside, relation, member, needed, rfl, rfl⟩

/-- The link tables are those of the headers of blocks. -/
theorem mem_links_ofBlocks_iff {link : LinkTable} :
    link ∈ (ofBlocks blocks).declarations.links ↔
      ∃ block ∈ blocks, ∃ target ∈ block.related .hasManyAndBelongsTo,
        link = .between block.name target := by
  rw [links_ofBlocks, Entity.linkTables, List.flatMap_map, List.mem_flatMap]
  simp only [List.mem_map, eq_comm (a := link)]
  rfl

/-- The reading of blocks without repeated fields is sound when the fields are declared ones. -/
theorem sound_ofBlocks {policy : DuplicatePolicy} (distinct : Block.Distinct policy blocks)
    (declared : ∀ block ∈ blocks, ∀ field ∈ block.fields,
      field.origin = .declared ∧ field.type ≠ "") :
    (ofBlocks blocks).Sound (blocks.map Block.header) where
  hasOpenEntity_iff := by
    rw [hasOpenEntity_ofBlocks_iff, EntityTable.isEmpty, toList_entities_ofBlocks,
      List.isEmpty_eq_false_iff, not_iff_not, Entity.latest_eq_nil_iff, List.map_eq_nil_iff]
  current slot h := by
    have nonempty : blocks ≠ [] := hasOpenEntity_ofBlocks_iff.1 (by rw [hasOpenEntity, h]; rfl)
    obtain ⟨other, last, isLast, current, found⟩ := exists_current_ofBlocks nonempty
    obtain rfl := Option.some.inj (h.symm.trans current)
    refine ⟨(List.getElem?_eq_some_iff.1 found).1, last.entity, last.header, found, ?_,
      entity_eq_header_entity last⟩
    rw [List.getLast?_map, isLast, Option.map_some]
  not_orphan isOpen line content error next read refused := by
    obtain ⟨slot, last, -, current, found⟩ :=
      exists_current_ofBlocks (hasOpenEntity_ofBlocks_iff.1 isOpen)
    rcases (run_feedField_eq_error refused).2 with ⟨closed, -⟩ | failed | ⟨entity, field, _, _, rfl⟩
    · -- the open slot has an entity
      rw [current, Option.bind_some, found] at closed
      cases closed
    · rw [read] at failed
      cases failed
    · exact fun absurd => nomatch absurd
  names_distinct := by
    rw [toList_entities_ofBlocks]
    exact Entity.nodup_map_name_latest _
  fields_distinct entity inside := by
    obtain ⟨block, member, rfl⟩ := exists_block_of_mem_entities inside
    exact distinct.fields block member
  fields_declared entity inside := by
    obtain ⟨block, member, rfl⟩ := exists_block_of_mem_entities inside
    exact declared block member
  pending entity inside target asked := by
    obtain ⟨block, member, rfl⟩ := exists_block_of_mem_entities inside
    exact contains_pending_ofBlocks member (List.mem_append.1 asked)
  links entity inside target related := by
    obtain ⟨block, member, rfl⟩ := exists_block_of_mem_entities inside
    exact mem_links_ofBlocks_iff.2 ⟨block, member, target, related, rfl⟩
  of_pending entry inside column listed := by
    obtain ⟨block, member, asked⟩ := exists_block_of_mem_pending inside listed
    exact ⟨block.header, List.mem_map_of_mem member, asked⟩
  of_links link inside := by
    obtain ⟨block, member, target, related, rfl⟩ := mem_links_ofBlocks_iff.1 inside
    obtain ⟨relation, chosen, rfl⟩ := List.mem_map.1 related
    obtain ⟨listed, kind⟩ := List.mem_filter.1 chosen
    exact ⟨block.header, List.mem_map_of_mem member, relation, listed, of_decide_eq_true kind, rfl⟩

/-! ## Every reading -/

/-- The reading after any lines is that of blocks into which the accepted lines are cut. -/
theorem exists_blocks_after (policy : DuplicatePolicy) (lines : List SourceLine) :
    ∃ blocks, Block.ofLines (accepted policy start lines) = .ok ([], blocks) ∧
      Block.Distinct policy blocks ∧ after policy start lines = ofBlocks blocks :=
  run_feedAll_start.1 (run_feedAll_accepted policy start lines)

/-- Under either policy and after any lines, of which some may have been refused, the parts of the
reading fit together and go back to the headers that were accepted. -/
theorem sound_after (policy : DuplicatePolicy) (lines : List SourceLine) :
    (after policy start lines).Sound (acceptedHeaders policy lines) := by
  obtain ⟨blocks, cut, distinct, same⟩ := exists_blocks_after policy lines
  rw [same, acceptedHeaders, ← Block.map_header_of_ofLines cut]
  refine sound_ofBlocks distinct fun block inside field listed => ?_
  -- a field of a block is read from an accepted line
  obtain ⟨line, -, span, read⟩ := Block.exists_ofLine_of_mem_field cut inside listed
  obtain ⟨-, -, -, name, typed, properties, -, spelled⟩ := FieldLine.ofLine_eq_column_iff.1 read
  exact ⟨spelled.origin_eq, spelled.type_ne⟩

end Reading

end EntitySchema
