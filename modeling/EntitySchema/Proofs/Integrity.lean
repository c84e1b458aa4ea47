import EntitySchema.Proofs.Meaning
import EntitySchema.Proofs.Source.FieldPrinting

/-! # The integrity of accepted schemas

In the schema of an accepted source no name is repeated, the foreign keys of an entity stand after
its declared fields, and every entity that another has one or has many of is there and refers back
by exactly one column. When no header repeats a name, nothing else asks for columns or link
tables. -/

namespace EntitySchema

namespace Schema

/-- Whether the names, the foreign keys and the relations of a schema fit together. -/
structure Integral (schema : Schema) : Prop where
  /-- No two entities have the same name. -/
  entities_distinct : (schema.entities.map (·.name)).Nodup
  /-- No two fields of an entity have the same name. -/
  fields_distinct : ∀ entity ∈ schema.entities, (entity.fields.map (·.name)).Nodup
  /-- No declared field stands after a foreign key. -/
  foreignKeys_last : ∀ entity ∈ schema.entities, entity.fields.Pairwise fun earlier later =>
    earlier.origin = .foreignKey → later.origin ≠ .declared
  /-- Foreign keys are plain integers. -/
  foreignKeys_plain : ∀ entity ∈ schema.entities, ∀ field ∈ entity.fields,
    field.origin = .foreignKey → field.type = "integer" ∧ field.params = [] ∧
      field.properties = .empty ∧ field.rules = []
  /-- A target is an entity with one column for the entity that has one or has many of it. -/
  targets : ∀ entity ∈ schema.entities, ∀ target ∈ entity.hasOne ++ entity.hasMany,
    ∃ other ∈ schema.entities, other.name = target ∧
      other.fields.countP (·.name.text = entity.name.lowercase ++ "_id") = 1

/-- Whether nothing but the relations of its entities accounts for foreign keys and link tables. -/
structure Closed (schema : Schema) : Prop where
  /-- A foreign key refers to an entity that has one or has many of its own. -/
  foreignKeys : ∀ entity ∈ schema.entities, ∀ field ∈ entity.fields,
    field.origin = .foreignKey → ∃ owner ∈ schema.entities,
      (entity.name ∈ owner.hasOne ∨ entity.name ∈ owner.hasMany) ∧
        field.name.text = owner.name.lowercase ++ "_id"
  /-- Link tables stand in the order of the many-to-many relations. -/
  links : schema.links = schema.entities.flatMap fun entity =>
    entity.hasManyAndBelongsTo.map (LinkTable.between entity.name)

variable {entities : List Entity}

/-- An entity of a schema is a declared one with foreign keys. -/
theorem exists_of_mem_entities_ofDeclared {entity : Entity}
    (h : entity ∈ (ofDeclared entities).entities) :
    ∃ declared ∈ entities,
      entity = declared.withForeignKeys (Entity.columnsFor entities declared.name) := by
  obtain ⟨declared, inside, rfl⟩ := List.mem_map.1 h
  exact ⟨declared, Entity.mem_of_mem_latest inside, rfl⟩

/-- Every name that is declared is the name of an entity of the schema. -/
theorem exists_mem_entities_ofDeclared {name : EntityName} (h : name ∈ entities.map (·.name)) :
    ∃ declared ∈ entities, declared.name = name ∧
      declared.withForeignKeys (Entity.columnsFor entities name) ∈
        (ofDeclared entities).entities := by
  obtain ⟨declared, found⟩ := Entity.exists_latest?_of_mem h
  obtain ⟨rfl, inside⟩ := Entity.of_latest?_eq_some found
  exact ⟨declared, inside, rfl, List.mem_map_of_mem (Entity.mem_latest_iff.2 found)⟩

/-- A target has one field with the name of the column for an entity that asks it for one. -/
theorem countP_foreignKey_eq_one {entity target : Entity} (member : entity ∈ entities)
    (asks : entity.Asks target.name) (own : (target.fields.map (·.name)).Nodup) :
    (target.withForeignKeys (Entity.columnsFor entities target.name)).fields.countP
      (·.name.text = entity.name.lowercase ++ "_id") = 1 := by
  -- the column is among the names of the fields, and these do not repeat
  have column : FieldName.foreignKeyFor entity.name ∈ Entity.columnsFor entities target.name :=
    Entity.mem_columnsFor_iff.2 ⟨entity, member, asks, rfl⟩
  have listed := Entity.mem_map_name_withForeignKeys target column
  have distinct := Entity.nodup_map_name_withForeignKeys own
    (Entity.nodup_columnsFor entities target.name)
  have once := List.count_eq_one_of_mem distinct listed
  rw [List.count, List.countP_map] at once
  rw [← once]
  apply List.countP_congr
  intro field _
  rw [decide_eq_true_iff, Function.comp_apply, beq_iff_eq, FieldName.ext_iff]
  rfl

/-- Declared entities that do not repeat a field and declare their targets give a schema that fits
together. -/
theorem integral_ofDeclared
    (fields : ∀ entity ∈ entities, (entity.fields.map (·.name)).Nodup ∧
      ∀ field ∈ entity.fields, field.origin = .declared)
    (targets : ∀ entity ∈ entities, ∀ target, entity.Asks target →
      target ∈ entities.map (·.name)) : (ofDeclared entities).Integral where
  entities_distinct := by
    rw [ofDeclared, List.map_map]
    exact Entity.nodup_map_name_latest entities
  fields_distinct entity inside := by
    obtain ⟨declared, member, rfl⟩ := exists_of_mem_entities_ofDeclared inside
    exact Entity.nodup_map_name_withForeignKeys (fields declared member).1
      (Entity.nodup_columnsFor entities declared.name)
  foreignKeys_last entity inside := by
    obtain ⟨declared, member, rfl⟩ := exists_of_mem_entities_ofDeclared inside
    rw [Entity.withForeignKeys, List.pairwise_append]
    -- a foreign key is not among the own fields, and no own field is among the foreign keys
    refine ⟨?_, ?_, ?_⟩
    · apply List.pairwise_of_forall_mem_list
      intro earlier first _ _ foreign
      rw [(fields declared member).2 earlier first] at foreign
      cases foreign
    · refine List.pairwise_map.2 (List.pairwise_of_forall fun _ _ _ same => ?_)
      cases same
    · intro earlier first later _ foreign
      rw [(fields declared member).2 earlier first] at foreign
      cases foreign
  foreignKeys_plain entity inside field listed foreign := by
    obtain ⟨declared, member, rfl⟩ := exists_of_mem_entities_ofDeclared inside
    rcases List.mem_append.1 listed with own | added
    · rw [(fields declared member).2 field own] at foreign
      cases foreign
    · obtain ⟨column, -, rfl⟩ := List.mem_map.1 added
      exact ⟨rfl, rfl, rfl, rfl⟩
  targets entity inside target asked := by
    obtain ⟨declared, member, rfl⟩ := exists_of_mem_entities_ofDeclared inside
    have asks : declared.Asks target := List.mem_append.1 asked
    obtain ⟨other, found, rfl, present⟩ :=
      exists_mem_entities_ofDeclared (targets declared member target asks)
    have once := countP_foreignKey_eq_one member asks (fields other found).1
    exact ⟨_, present, rfl, once⟩

/-- Declared entities of different names give a schema in which nothing else is accounted for. -/
theorem closed_ofDeclared (fields : ∀ entity ∈ entities, ∀ field ∈ entity.fields,
      field.origin = .declared) (distinct : (entities.map (·.name)).Nodup) :
    (ofDeclared entities).Closed where
  foreignKeys entity inside field listed foreign := by
    obtain ⟨declared, member, rfl⟩ := exists_of_mem_entities_ofDeclared inside
    rcases List.mem_append.1 listed with own | added
    · rw [fields declared member field own] at foreign
      cases foreign
    · obtain ⟨column, chosen, rfl⟩ := List.mem_map.1 added
      obtain ⟨owner, present, asks, rfl⟩ := Entity.mem_columnsFor_iff.1 (List.mem_filter.1 chosen).1
      -- with different names the owner was not replaced, so the schema has it
      refine ⟨owner.withForeignKeys (Entity.columnsFor entities owner.name), ?_, asks, rfl⟩
      rw [ofDeclared, Entity.latest_of_nodup distinct]
      exact List.mem_map_of_mem present
  links := by
    rw [ofDeclared, Entity.latest_of_nodup distinct, List.flatMap_map]
    rfl

/-- The schema of an accepted source fits together, and is closed when no header repeats a name. -/
theorem integral_of_ofSource {policy : DuplicatePolicy} {source : String} {schema : Schema}
    (h : ofSource policy source = .ok schema) :
    schema.Integral ∧
      ∃ blocks, Block.ofSource source = .ok ([], blocks) ∧
        ((blocks.map Block.name).Nodup → schema.Closed) := by
  obtain ⟨blocks, cut, distinct, targets, rfl⟩ := ofSource_eq_ok_iff.1 h
  -- what is read from a field line is a declared field
  have declared : ∀ entity ∈ blocks.map Block.entity, ∀ field ∈ entity.fields,
      field.origin = .declared := by
    rw [List.forall_mem_map]
    intro block inside field listed
    obtain ⟨line, -, span, read⟩ := Block.exists_ofLine_of_mem_field cut inside listed
    exact (FieldLine.writable_of_ofLine read).origin_eq
  refine ⟨?_, blocks, cut, fun names => ?_⟩
  · refine integral_ofDeclared (fun entity inside => ⟨?_, declared entity inside⟩) ?_
    · obtain ⟨block, member, rfl⟩ := List.mem_map.1 inside
      exact distinct.fields block member
    · rw [List.forall_mem_map, List.map_map]
      exact targets
  · apply closed_ofDeclared declared
    rwa [List.map_map]

/-- A user has one profile and many posts, each of them declared later. -/
theorem integral_of_ofSource_forward :
    ∃ schema,
      ofSource .reject
        "User Profile:ho Post:hm Tag:hmb\n  name:string\nPost User:bt\n  user_id:big\nProfile\nTag"
          = .ok schema ∧ schema.Integral ∧ schema.Closed := by
  apply Outcome.exists_eq_ok_and_of_isOk (by decide +kernel)
  intro schema h
  obtain ⟨integral, blocks, cut, closed⟩ := integral_of_ofSource h
  obtain ⟨others, sameCut, distinct, -⟩ := ofSource_eq_ok_iff.1 h
  -- rejecting repeated names leaves none of them in the blocks
  rw [cut] at sameCut
  cases sameCut
  exact ⟨integral, closed (distinct.names rfl)⟩

end Schema

end EntitySchema
