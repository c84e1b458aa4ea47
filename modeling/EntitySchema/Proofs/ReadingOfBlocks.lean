import EntitySchema.Proofs.Blocks
import EntitySchema.Proofs.Declarations.Tables
import EntitySchema.Reading

/-! # Reading is cutting into blocks

The reading that is left by a list of blocks is computed from the blocks alone. Each line takes it
to the reading of the blocks with that line: a field line makes the last block longer, a header
begins a new block. So a whole source is read exactly when it can be cut into blocks that do not
repeat a field or, when repeats are rejected, a name. -/

namespace EntitySchema

/-- Whether blocks are free of the repeats for which a line is refused. -/
structure Block.Distinct (policy : DuplicatePolicy) (blocks : List Block) : Prop where
  /-- No block declares two fields of one name. -/
  fields : ∀ block ∈ blocks, (block.fields.map (·.name)).Nodup
  /-- No two blocks have one name when repeated names are rejected. -/
  names : policy = .reject → (blocks.map Block.name).Nodup

/-- One more block brings no repeats when it has none itself and, where repeated names are rejected,
its name is new. -/
theorem Block.distinct_concat_iff {policy : DuplicatePolicy} {blocks : List Block} {block : Block} :
    Distinct policy (blocks ++ [block]) ↔
      Distinct policy blocks ∧ (block.fields.map (·.name)).Nodup ∧
        (policy = .reject → block.name ∉ blocks.map Block.name) := by
  have names : ((blocks ++ [block]).map Block.name).Nodup ↔
      block.name ∉ blocks.map Block.name ∧ (blocks.map Block.name).Nodup := by
    rw [List.map_append, List.map_singleton, List.nodup_append_comm, List.singleton_append,
      List.nodup_cons]
  constructor
  · rintro ⟨fields, distinct⟩
    rw [List.forall_mem_append, List.forall_mem_singleton] at fields
    exact ⟨⟨fields.1, fun reject => (names.1 (distinct reject)).2⟩, fields.2,
      fun reject => (names.1 (distinct reject)).1⟩
  · rintro ⟨⟨fields, distinct⟩, own, new⟩
    refine ⟨?_, fun reject => names.2 ⟨new reject, distinct reject⟩⟩
    rw [List.forall_mem_append, List.forall_mem_singleton]
    exact ⟨fields, own⟩

namespace Reading

/-- The reading with the declarations of one more block, whose entity is open. -/
def addBlock (reading : Reading) (block : Block) : Reading :=
  openEntity block.entity (block.header.relations.foldl
    (fun reading relation => declareRelation block.name relation reading) reading)

/-- The reading that is left by blocks. -/
def ofBlocks (blocks : List Block) : Reading := blocks.foldl addBlock start

variable {policy : DuplicatePolicy} {blocks : List Block} {block : Block} {line : SourceLine}
  {reading next : Reading}

/-- The reading of one more block. -/
theorem ofBlocks_concat (blocks : List Block) (block : Block) :
    ofBlocks (blocks ++ [block]) = (ofBlocks blocks).addBlock block :=
  List.foldl_concat _ _ _ _

/-! ## The table of a reading -/

/-- Declaring relations leaves the table as it is. -/
theorem entities_foldl_declareRelation (owner : EntityName) (relations : List RelationWord)
    (reading : Reading) :
    (relations.foldl (fun reading relation => declareRelation owner relation reading)
      reading).declarations.entities = reading.declarations.entities := by
  induction relations generalizing reading with
  | nil => rfl
  | cons relation rest ih => rw [List.foldl_cons, ih, declareRelation]

/-- The table of a reading holds the latest entities of its blocks. -/
theorem toList_entities_ofBlocks (blocks : List Block) :
    (ofBlocks blocks).declarations.entities.toList = Entity.latest (blocks.map Block.entity) := by
  rw [← EntityTable.toList_foldl_insert, List.foldl_map]
  congr 1
  -- declaring the relations of a block leaves the table to the insertion of its entity
  induction blocks using List.reverseRecOn with
  | nil => rfl
  | append_singleton front last ih =>
    rw [ofBlocks_concat, List.foldl_concat, ← ih, addBlock, openEntity,
      entities_foldl_declareRelation]

/-- The names in the table are the names of the blocks. -/
theorem contains_ofBlocks_iff {name : EntityName} :
    (ofBlocks blocks).declarations.entities.contains name.text = true ↔
      name ∈ blocks.map Block.name := by
  rw [EntityTable.contains_text_iff, toList_entities_ofBlocks, Entity.map_name_latest,
    List.mem_eraseDups, List.map_map]
  rfl

/-! ## Steps -/

/-- The open entity is the one that was opened last. -/
theorem at?_current_openEntity (entity : Entity) (reading : Reading) :
    ∃ slot, (openEntity entity reading).current = some slot ∧
      (openEntity entity reading).declarations.entities.at? slot = some entity :=
  ⟨_, rfl, EntityTable.at?_insert _ entity⟩

/-- Changing the open entity is the same as opening the changed entity. -/
theorem changeAt_openEntity {entity : Entity} {change : Entity → Entity}
    (kept : (change entity).name = entity.name) {slot : Nat} (reading : Reading)
    (current : (openEntity entity reading).current = some slot) :
    changeAt slot change (openEntity entity reading) = openEntity (change entity) reading := by
  obtain rfl := Option.some.inj current
  rw [openEntity, openEntity, EntityTable.insert_change _ kept]
  rfl

/-- A line that changes the entity of the open block makes that block longer. -/
theorem changeAt_addBlock {content : FieldLine} {change : Entity → Entity} {slot : Nat}
    (changed : (block.addLine content).entity = change block.entity)
    (current : (reading.addBlock block).current = some slot) :
    (reading.addBlock block).changeAt slot change = reading.addBlock (block.addLine content) := by
  have kept : (change block.entity).name = block.entity.name := by
    rw [← changed]
    rfl
  rw [addBlock, changeAt_openEntity kept _ current, ← changed]
  rfl

/-- A field line that is accepted makes the open block longer. -/
theorem run_feedField_addBlock (distinct : (block.fields.map (·.name)).Nodup) :
    (feedField line).run.run (reading.addBlock block) = (.ok (), next) ↔
      ∃ content, FieldLine.ofLine line = .ok content ∧
        ((block.addLine content).fields.map (·.name)).Nodup ∧
        next = reading.addBlock (block.addLine content) := by
  obtain ⟨slot, current, found⟩ := at?_current_openEntity block.entity
    (block.header.relations.foldl
      (fun reading relation => declareRelation block.name relation reading) reading)
  rw [← addBlock] at current found
  -- the entity of the block is open, so only the line itself can be refused
  rw [run_feedField, current]
  dsimp only
  cases FieldLine.ofLine line with
  | error error =>
    constructor
    · intro h
      cases h
    · rintro ⟨content, same, -⟩
      cases same
  | ok content =>
    simp only [found, Except.ok.injEq, exists_eq_left']
    cases content with
    | timestamps =>
      rw [changeAt_addBlock block.entity_addLine_timestamps current,
        block.fields_addLine_timestamps, and_iff_right distinct, Prod.mk.injEq, and_iff_right rfl]
      exact eq_comm
    | column field span =>
      -- the name of the field is new exactly when the longer block repeats none
      rw [block.fields_addLine_column, List.map_append, List.map_singleton,
        List.nodup_append_comm, List.singleton_append, List.nodup_cons, and_iff_left distinct,
        ← Block.fields_entity, ← Entity.hasField_iff]
      dsimp only
      by_cases known : block.entity.hasField field.name = true
      · rw [if_pos known]
        constructor
        · intro h
          cases h
        · exact fun h => absurd known h.1
      · rw [if_neg known, changeAt_addBlock (block.entity_addLine_column field span) current,
          and_iff_right known, Prod.mk.injEq, and_iff_right rfl]
        exact eq_comm

/-- A field line that is accepted makes the last block longer. -/
theorem run_feedField_ofBlocks {header : Header} {own : List FieldLine}
    (distinct : Block.Distinct policy (blocks ++ [⟨header, own⟩])) :
    (feedField line).run.run (ofBlocks (blocks ++ [⟨header, own⟩])) = (.ok (), next) ↔
      ∃ content, FieldLine.ofLine line = .ok content ∧
        Block.Distinct policy (blocks ++ [⟨header, own ++ [content]⟩]) ∧
        next = ofBlocks (blocks ++ [⟨header, own ++ [content]⟩]) := by
  obtain ⟨earlier, fields, new⟩ := Block.distinct_concat_iff.1 distinct
  have longer : ∀ content,
      Block.Distinct policy (blocks ++ [⟨header, own ++ [content]⟩]) ↔
        ((Block.addLine ⟨header, own⟩ content).fields.map (·.name)).Nodup := by
    intro content
    rw [Block.distinct_concat_iff, and_iff_right earlier]
    exact and_iff_left new
  simp only [longer, ofBlocks_concat]
  exact run_feedField_addBlock fields

/-- A header that is accepted begins a new block. -/
theorem run_feedHeader_ofBlocks (distinct : Block.Distinct policy blocks) :
    (feedHeader policy line).run.run (ofBlocks blocks) = (.ok (), next) ↔
      ∃ header, Header.ofLine line = .ok header ∧
        Block.Distinct policy (blocks ++ [⟨header, []⟩]) ∧
        next = ofBlocks (blocks ++ [⟨header, []⟩]) := by
  have begun : ∀ header, Block.Distinct policy (blocks ++ [⟨header, []⟩]) ↔
      (policy = .reject → header.name ∉ blocks.map Block.name) := by
    intro header
    rw [Block.distinct_concat_iff, and_iff_right distinct]
    exact and_iff_right List.nodup_nil
  rw [run_feedHeader]
  cases Header.ofLine line with
  | error error =>
    constructor
    · intro h
      cases h
    · rintro ⟨header, same, -⟩
      cases same
  | ok header =>
    simp only [Except.ok.injEq, exists_eq_left', contains_ofBlocks_iff, begun]
    rw [ofBlocks_concat, addBlock, ← Block.entity_header]
    by_cases repeated : policy = .reject ∧ header.name ∈ blocks.map Block.name
    · rw [if_pos repeated]
      constructor
      · intro h
        cases h
      · exact fun h => absurd repeated.2 (h.1 repeated.1)
    · rw [if_neg repeated, and_iff_right (not_and.1 repeated), Prod.mk.injEq, and_iff_right rfl]
      exact eq_comm

/-! ## Runs -/

/-- Lines are accepted one after the other. -/
theorem run_feedAll_cons_eq_ok_iff {lines : List SourceLine} :
    (feedAll policy (line :: lines)).run.run reading = (.ok (), next) ↔
      ∃ middle, (feed policy line).run.run reading = (.ok (), middle) ∧
        (feedAll policy lines).run.run middle = (.ok (), next) := by
  rw [run_feedAll_cons, step]
  rcases (feed policy line).run.run reading with ⟨_ | _, left⟩
  · constructor
    · intro h
      cases h
    · rintro ⟨middle, h, -⟩
      cases h
  · constructor
    · exact fun h => ⟨left, rfl, h⟩
    · rintro ⟨middle, h, rest⟩
      cases h
      exact rest

/-- When no repeats come up in the end, there were none before the last lines. -/
theorem distinct_of_later {header : Header} {own loose : List FieldLine} {others : List Block}
    (h : Block.Distinct policy (blocks ++ ⟨header, own ++ loose⟩ :: others)) :
    Block.Distinct policy (blocks ++ [⟨header, own⟩]) where
  fields := by
    intro block inside
    rcases List.mem_append.1 inside with earlier | last
    · exact h.fields block (List.mem_append_left _ earlier)
    · obtain rfl := List.mem_singleton.1 last
      have whole := h.fields ⟨header, own ++ loose⟩ (List.mem_append_right _ List.mem_cons_self)
      rw [Block.fields, List.filterMap_append, List.map_append] at whole
      exact (List.nodup_append.1 whole).1
  names reject := by
    have whole := h.names reject
    rw [List.append_cons, List.map_append] at whole
    rw [List.map_append] at whole ⊢
    exact (List.nodup_append.1 whole).1

/-- From the reading of some blocks, lines are accepted when they can be cut into the rest of the
last block and further blocks, without repeats. -/
theorem run_feedAll_ofBlocks {lines : List SourceLine} {header : Header} {own : List FieldLine}
    (distinct : Block.Distinct policy (blocks ++ [⟨header, own⟩])) :
    (feedAll policy lines).run.run (ofBlocks (blocks ++ [⟨header, own⟩])) = (.ok (), next) ↔
      ∃ loose others, Block.ofLines lines = .ok (loose, others) ∧
        Block.Distinct policy (blocks ++ ⟨header, own ++ loose⟩ :: others) ∧
        next = ofBlocks (blocks ++ ⟨header, own ++ loose⟩ :: others) := by
  -- the blocks so far are carried along: a field line makes the last of them longer, a header
  -- makes it one of the blocks before
  induction lines generalizing blocks header own with
  | nil =>
    constructor
    · intro h
      obtain ⟨-, rfl⟩ := Prod.mk.inj h
      refine ⟨[], [], rfl, ?_, ?_⟩ <;> rw [List.append_nil]
      exact distinct
    · rintro ⟨loose, others, cut, -, rfl⟩
      cases cut
      rw [List.append_nil]
      rfl
  | cons line rest ih =>
    rw [run_feedAll_cons_eq_ok_iff, feed]
    by_cases blank : line.isBlank = true
    · rw [if_pos blank, Block.ofLines_cons_of_isBlank blank, ← ih distinct]
      constructor
      · rintro ⟨middle, step, later⟩
        cases step
        exact later
      · exact fun later => ⟨_, rfl, later⟩
    · rw [if_neg blank]
      rw [Bool.not_eq_true] at blank
      cases kind : line.kind with
      | field =>
        simp only [Block.ofLines_cons_of_field blank kind]
        constructor
        · rintro ⟨middle, step, later⟩
          obtain ⟨content, read, longer, rfl⟩ := (run_feedField_ofBlocks distinct).1 step
          obtain ⟨loose, others, cut, whole⟩ := (ih longer).1 later
          rw [List.append_assoc] at whole
          exact ⟨_, others, ⟨content, loose, read, cut, rfl⟩, whole⟩
        · rintro ⟨_, others, ⟨content, loose, read, cut, rfl⟩, whole⟩
          -- what has no repeats in the end has none when the line is read
          rw [List.append_cons own] at whole
          have longer := distinct_of_later whole.1
          refine ⟨_, (run_feedField_ofBlocks distinct).2 ⟨content, read, longer, rfl⟩, ?_⟩
          exact (ih longer).2 ⟨loose, others, cut, whole⟩
      | header =>
        simp only [Block.ofLines_cons_of_header blank kind]
        constructor
        · rintro ⟨middle, step, later⟩
          obtain ⟨second, read, begun, rfl⟩ := (run_feedHeader_ofBlocks distinct).1 step
          obtain ⟨first, others, cut, whole⟩ := (ih begun).1 later
          rw [← List.append_cons, List.nil_append] at whole
          refine ⟨[], _, ⟨second, first, others, read, cut, rfl, rfl⟩, ?_⟩
          rwa [List.append_nil]
        · rintro ⟨_, _, ⟨second, first, others, read, cut, rfl, rfl⟩, whole⟩
          rw [List.append_nil, List.append_cons, ← List.nil_append first] at whole
          have begun := distinct_of_later whole.1
          refine ⟨_, (run_feedHeader_ofBlocks distinct).2 ⟨second, read, begun, rfl⟩, ?_⟩
          exact (ih begun).2 ⟨first, others, cut, whole⟩

/-- A whole source is accepted when it can be cut into blocks, without a field line before the
first of them and without repeats. -/
theorem run_feedAll_start {lines : List SourceLine} :
    (feedAll policy lines).run.run start = (.ok (), next) ↔
      ∃ blocks, Block.ofLines lines = .ok ([], blocks) ∧ Block.Distinct policy blocks ∧
        next = ofBlocks blocks := by
  have empty : Block.Distinct policy [] := ⟨List.forall_mem_nil _, fun _ => List.nodup_nil⟩
  induction lines with
  | nil =>
    constructor
    · intro h
      obtain ⟨-, rfl⟩ := Prod.mk.inj h
      exact ⟨[], rfl, empty, rfl⟩
    · rintro ⟨blocks, cut, -, rfl⟩
      cases cut
      rfl
  | cons line rest ih =>
    rw [run_feedAll_cons_eq_ok_iff, feed]
    by_cases blank : line.isBlank = true
    · rw [if_pos blank, Block.ofLines_cons_of_isBlank blank]
      refine Iff.trans ?_ ih
      constructor
      · rintro ⟨middle, step, later⟩
        cases step
        exact later
      · exact fun later => ⟨_, rfl, later⟩
    · rw [if_neg blank]
      rw [Bool.not_eq_true] at blank
      cases kind : line.kind with
      | field =>
        -- no entity is open, so the line is refused
        simp only [Block.ofLines_cons_of_field blank kind]
        constructor
        · rintro ⟨middle, step, -⟩
          rw [run_feedField] at step
          cases step
        · rintro ⟨blocks, ⟨content, others, -, -, absurd⟩, -⟩
          cases absurd
      | header =>
        simp only [Block.ofLines_cons_of_header blank kind]
        constructor
        · rintro ⟨middle, step, later⟩
          obtain ⟨header, read, begun, rfl⟩ := (run_feedHeader_ofBlocks empty).1 step
          obtain ⟨own, others, cut, whole⟩ := (run_feedAll_ofBlocks begun).1 later
          exact ⟨_, ⟨header, own, others, read, cut, trivial, rfl⟩, whole⟩
        · rintro ⟨_, ⟨header, own, others, read, cut, -, rfl⟩, whole⟩
          have begun : Block.Distinct policy ([] ++ [⟨header, []⟩]) :=
            distinct_of_later whole.1
          refine ⟨_, (run_feedHeader_ofBlocks empty).2 ⟨header, read, begun, rfl⟩, ?_⟩
          exact (run_feedAll_ofBlocks begun).2 ⟨own, others, cut, whole⟩

end Reading

end EntitySchema
