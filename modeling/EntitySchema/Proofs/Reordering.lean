import EntitySchema.Proofs.RoundTrip
import EntitySchema.Proofs.Sections
import Mathlib.Data.List.Perm.Basic

/-! # Sections in another order

Relations are resolved when the whole source is read, so an entity may be declared before or after
those that refer to it. When no header repeats a name, the sections of a source can be put into any
order: the source is accepted as before, and its schema has the same entities, foreign keys and link
tables in another order. -/

namespace EntitySchema

/-! ## Schemas that differ in order -/

/-- Whether two entities are the same but for the order of their foreign keys. -/
structure Entity.SameUpToOrder (entity other : Entity) : Prop where
  /-- Their names, tables, timestamps, relations and declared fields are the same. -/
  declaredPart_eq : entity.declaredPart = other.declaredPart
  /-- They have the same foreign keys. -/
  foreignKeys : (entity.fields.filter (·.origin = .foreignKey)).Perm
    (other.fields.filter (·.origin = .foreignKey))

/-- Whether two schemas are the same but for the order of entities, foreign keys and link tables. -/
structure Schema.SameUpToOrder (schema other : Schema) : Prop where
  /-- No two entities have the same name. -/
  names_distinct : (schema.entities.map (·.name)).Nodup
  /-- They have entities of the same names. -/
  names : (schema.entities.map (·.name)).Perm (other.entities.map (·.name))
  /-- Entities of one name are the same. -/
  entities : ∀ entity ∈ schema.entities, ∀ twin ∈ other.entities, entity.name = twin.name →
    entity.SameUpToOrder twin
  /-- They have the same link tables. -/
  links : schema.links.Perm other.links

variable {policy : DuplicatePolicy} {entities others : List Entity}

namespace Entity

/-- The foreign keys of an entity that was declared are those that it was given. -/
theorem IsDeclared.filter_foreignKey_withForeignKeys {entity : Entity} (h : entity.IsDeclared)
    (columns : List FieldName) :
    (entity.withForeignKeys columns).fields.filter (·.origin = .foreignKey) =
      (columns.filter (!entity.hasField ·)).map Field.foreignKey := by
  have own : entity.fields.filter (·.origin = .foreignKey) = [] := by
    rw [List.filter_eq_nil_iff]
    intro field inside
    rw [(h.fields field inside).1.origin_eq]
    decide
  have added : ((columns.filter (!entity.hasField ·)).map Field.foreignKey).filter
      (·.origin = .foreignKey) = (columns.filter (!entity.hasField ·)).map Field.foreignKey := by
    rw [List.filter_eq_self, List.forall_mem_map]
    exact fun column _ => rfl
  rw [withForeignKeys, List.filter_append, own, added, List.nil_append]

/-- The columns that are asked of a target do not depend on the order of the entities that ask. -/
theorem columnsFor_perm (perm : entities.Perm others) (target : EntityName) :
    (columnsFor entities target).Perm (columnsFor others target) := by
  rw [List.perm_ext_iff_of_nodup (nodup_columnsFor _ _) (nodup_columnsFor _ _)]
  intro column
  rw [mem_columnsFor_iff, mem_columnsFor_iff]
  simp only [perm.mem_iff]

/-- Whether declared entities repeat nothing and leave no target undeclared, so that a source that
declares them is accepted. -/
structure Acceptable (policy : DuplicatePolicy) (entities : List Entity) : Prop where
  /-- No entity has two fields of one name. -/
  fields : ∀ entity ∈ entities, (entity.fields.map (·.name)).Nodup
  /-- No two entities have one name when repeated names are rejected. -/
  names : policy = .reject → (entities.map (·.name)).Nodup
  /-- Every target that is asked for a column is declared. -/
  targets : ∀ entity ∈ entities, ∀ target, entity.Asks target → target ∈ entities.map (·.name)

/-- Entities are acceptable in any order. -/
theorem Acceptable.perm (perm : entities.Perm others) (h : Acceptable policy entities) :
    Acceptable policy others where
  fields entity inside := h.fields entity (perm.mem_iff.2 inside)
  names reject := (perm.map _).nodup_iff.1 (h.names reject)
  targets entity inside target asks :=
    (perm.map _).mem_iff.1 (h.targets entity (perm.mem_iff.2 inside) target asks)

/-- The names that lines declare are those of the headers on them. -/
theorem DeclaredBy.map_name {lines : List SourceLine} (h : DeclaredBy lines entities) :
    entities.map (·.name) = (lines.filterMap SourceLine.header?).map (·.name) := by
  obtain ⟨blocks, cut, rfl⟩ := h
  rw [← Block.map_header_of_ofLines cut, List.map_map, List.map_map]
  rfl

end Entity

namespace Schema

/-- Entities of different names give, in any order, the same schema up to order. -/
theorem sameUpToOrder_ofDeclared (declared : ∀ entity ∈ entities, entity.IsDeclared)
    (distinct : (entities.map (·.name)).Nodup) (perm : entities.Perm others) :
    (ofDeclared entities).SameUpToOrder (ofDeclared others) := by
  have latest : Entity.latest entities = entities := Entity.latest_of_nodup distinct
  have latestOthers : Entity.latest others = others :=
    Entity.latest_of_nodup ((perm.map _).nodup_iff.1 distinct)
  have names : ∀ entities : List Entity, Entity.latest entities = entities →
      (ofDeclared entities).entities.map (·.name) = entities.map (·.name) := by
    intro entities latest
    rw [ofDeclared, latest, List.map_map]
    rfl
  refine ⟨?_, ?_, ?_, perm.flatMap_right _⟩
  · rwa [names entities latest]
  · rw [names entities latest, names others latestOthers]
    exact perm.map _
  · intro entity inside twin present same
    rw [ofDeclared, latest] at inside
    rw [ofDeclared, latestOthers] at present
    obtain ⟨first, member, rfl⟩ := List.mem_map.1 inside
    obtain ⟨second, other, rfl⟩ := List.mem_map.1 present
    -- the names differ, so the two are one entity, which was given the same columns
    obtain rfl : first = second :=
      List.inj_on_of_nodup_map distinct member (perm.mem_iff.2 other) same
    have own := declared first member
    refine ⟨?_, ?_⟩
    · rw [own.declaredPart_withForeignKeys, own.declaredPart_withForeignKeys]
    · rw [own.filter_foreignKey_withForeignKeys, own.filter_foreignKey_withForeignKeys]
      exact ((Entity.columnsFor_perm perm first.name).filter _).map _

/-! ## Sources whose sections are in another order -/

/-- A source is accepted when its lines declare acceptable entities. -/
theorem ofSource_eq_ok_iff_declaredBy {source : String} {schema : Schema} :
    ofSource policy source = .ok schema ↔
      ∃ entities, Entity.DeclaredBy (SourceLine.all source.toList) entities ∧
        Entity.Acceptable policy entities ∧ schema = ofDeclared entities := by
  rw [ofSource_eq_ok_iff]
  constructor
  · rintro ⟨blocks, cut, distinct, targets, rfl⟩
    refine ⟨blocks.map Block.entity, ⟨blocks, cut, rfl⟩, ⟨?_, fun reject => ?_, ?_⟩, rfl⟩
    · rw [List.forall_mem_map]
      exact distinct.fields
    · rw [List.map_map]
      exact distinct.names reject
    · rw [List.forall_mem_map, List.map_map]
      exact targets
  · rintro ⟨_, ⟨blocks, cut, rfl⟩, acceptable, rfl⟩
    obtain ⟨fields, names, targets⟩ := acceptable
    rw [List.forall_mem_map] at fields
    rw [List.map_map] at names
    rw [List.forall_mem_map, List.map_map] at targets
    exact ⟨blocks, cut, ⟨fields, names⟩, targets, rfl⟩

/-- A source is accepted if another is that declares by each of its sections, in another order, what
the first does; the same entities are declared then, in that order. -/
theorem exists_ofSource_of_perm {source other : String} {groups reordered : List (List SourceLine)}
    (here : ∀ entities, Entity.DeclaredBy (SourceLine.all source.toList) entities ↔
      Entity.DeclaredByEach groups entities)
    (there : ∀ entities, Entity.DeclaredBy (SourceLine.all other.toList) entities ↔
      Entity.DeclaredByEach reordered entities)
    (perm : reordered.Perm groups) {schema : Schema} (h : ofSource policy source = .ok schema) :
    ∃ entities others, Entity.DeclaredBy (SourceLine.all source.toList) entities ∧
      schema = ofDeclared entities ∧ entities.Perm others ∧
        ofSource policy other = .ok (ofDeclared others) := by
  obtain ⟨entities, declares, acceptable, rfl⟩ := ofSource_eq_ok_iff_declaredBy.1 h
  obtain ⟨others, again, same⟩ := List.perm_comp_forall₂ perm ((here entities).1 declares)
  refine ⟨entities, others, declares, rfl, same.symm, ?_⟩
  exact ofSource_eq_ok_iff_declaredBy.2
    ⟨others, (there others).2 again, acceptable.perm same.symm, rfl⟩

/-- Suppose that the first line that is not blank is a header line, and that no two lines are
accepted as headers of one name. Then the sections can be put into any order: the source is accepted
as before, and its schema is the same up to order. -/
theorem ofSource_rearranged {source : String} {reordered : List (List SourceLine)}
    (first : ∀ line ∈ (SourceLine.all source.toList).find? (!·.isBlank), line.kind = .header)
    (distinct : (((SourceLine.all source.toList).filterMap SourceLine.header?).map (·.name)).Nodup)
    (perm : reordered.Perm (SourceLine.sections (SourceLine.all source.toList)).2) :
    ((∃ other, ofSource policy (SourceLine.rearranged source reordered) = .ok other) ↔
        ∃ schema, ofSource policy source = .ok schema) ∧
      ∀ schema other, ofSource policy source = .ok schema →
        ofSource policy (SourceLine.rearranged source reordered) = .ok other →
          schema.SameUpToOrder other := by
  have here : ∀ entities, Entity.DeclaredBy (SourceLine.all source.toList) entities ↔
      Entity.DeclaredByEach (SourceLine.sections (SourceLine.all source.toList)).2 entities :=
    fun entities => Entity.declaredBy_all_iff first
  have there : ∀ entities, Entity.DeclaredBy
      (SourceLine.all (SourceLine.rearranged source reordered).toList) entities ↔
        Entity.DeclaredByEach reordered entities :=
    fun entities => Entity.declaredBy_all_rearranged_iff first perm
  -- the order plays no part in what the sections declare, so acceptance goes either way
  refine ⟨⟨?_, ?_⟩, ?_⟩
  · rintro ⟨other, accepted⟩
    obtain ⟨_, entities, -, -, -, found⟩ := exists_ofSource_of_perm there here perm.symm accepted
    exact ⟨_, found⟩
  · rintro ⟨schema, accepted⟩
    obtain ⟨_, others, -, -, -, found⟩ := exists_ofSource_of_perm here there perm accepted
    exact ⟨_, found⟩
  · intro schema other accepted found
    obtain ⟨entities, others, declares, rfl, same, again⟩ :=
      exists_ofSource_of_perm here there perm accepted
    obtain rfl := Except.ok.inj (again.symm.trans found)
    -- the headers that are accepted are those of the blocks, so no two entities have one name
    have names := declares.map_name
    obtain ⟨blocks, cut, rfl⟩ := declares
    exact sameUpToOrder_ofDeclared (Block.isDeclared_of_ofSource cut) (names ▸ distinct) same

/-- A user, its posts and its tags are declared from the last to the first. -/
theorem ofSource_rearranged_reversed :
    ∃ schema,
      ofSource .reject "\nUser Post:hm Tag:hmb\n  name:string\n\nPost User:ho\nTag" = .ok schema ∧
        ∃ other,
          ofSource .reject "\nTag\nPost User:ho\nUser Post:hm Tag:hmb\n  name:string\n" = .ok other ∧
            schema.SameUpToOrder other := by
  have text : SourceLine.rearranged "\nUser Post:hm Tag:hmb\n  name:string\n\nPost User:ho\nTag"
      (SourceLine.sections (SourceLine.all
        "\nUser Post:hm Tag:hmb\n  name:string\n\nPost User:ho\nTag".toList)).2.reverse =
      "\nTag\nPost User:ho\nUser Post:hm Tag:hmb\n  name:string\n" := by decide +kernel
  obtain ⟨kept, same⟩ :=
    @ofSource_rearranged .reject "\nUser Post:hm Tag:hmb\n  name:string\n\nPost User:ho\nTag" _
      (by decide +kernel) (by decide +kernel) (List.reverse_perm _)
  rw [text] at kept same
  apply Outcome.exists_eq_ok_and_of_isOk (by decide +kernel)
  intro schema accepted
  obtain ⟨other, found⟩ := kept.2 ⟨schema, accepted⟩
  exact ⟨other, found, same schema other accepted found⟩

end Schema

end EntitySchema
