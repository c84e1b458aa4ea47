import EntitySchema.Proofs.Meaning
import EntitySchema.Proofs.Printing
import Mathlib.Data.List.Flatten
import Mathlib.Data.List.Perm.Subperm

/-! # Printing a schema and reading it again

The printed text of an accepted source declares the latest entities, each once. When no header
repeated a name, these are all the declared entities, and the schema is read back as it was. When
an entity was declared anew, the relations of the replaced declarations are lost; what remains is
printed as before. -/

namespace EntitySchema

/-! ## Entities as they are declared -/

namespace Entity

/-- Whether an entity is such as the lines of a source can declare. -/
structure IsDeclared (entity : Entity) : Prop where
  /-- The name of the table is the derived one. -/
  tableName_eq : entity.tableName = entity.name.tableName
  /-- Every field can be written on one line. -/
  fields : ∀ field ∈ entity.fields, field.Writable ∧ field.OnOneLine

variable {entity : Entity}

/-- Foreign keys are not printed. -/
theorem IsDeclared.declaredPart_withForeignKeys (h : entity.IsDeclared)
    (columns : List FieldName) : (entity.withForeignKeys columns).declaredPart = entity := by
  have own : entity.fields.filter Field.isDeclared = entity.fields := by
    apply List.filter_eq_self.2
    intro field member
    rw [Field.isDeclared, (h.fields field member).1.origin_eq]
    rfl
  have added : (((columns.filter (!entity.hasField ·)).map Field.foreignKey).filter
      Field.isDeclared) = [] := by
    rw [List.filter_eq_nil_iff, List.forall_mem_map]
    exact fun column _ => Bool.false_ne_true
  rw [declaredPart, withForeignKeys, List.filter_append, own, added, List.append_nil]

/-- An entity that is declared can be written down with any foreign keys. -/
theorem IsDeclared.writable_withForeignKeys (h : entity.IsDeclared) (columns : List FieldName) :
    (entity.withForeignKeys columns).Writable where
  tableName_eq := h.tableName_eq
  fields := by
    rw [h.declaredPart_withForeignKeys]
    exact h.fields

/-- Fewer columns give fewer foreign keys. -/
theorem IsDeclared.mem_fields_withForeignKeys (h : entity.IsDeclared)
    {fewer columns : List FieldName} (subset : ∀ column ∈ fewer, column ∈ columns) :
    ∀ field ∈ (entity.withForeignKeys fewer).fields, field.origin = .foreignKey →
      field ∈ (entity.withForeignKeys columns).fields := by
  intro field listed foreign
  rcases List.mem_append.1 listed with own | added
  · rw [(h.fields field own).1.origin_eq] at foreign
    cases foreign
  · obtain ⟨column, chosen, rfl⟩ := List.mem_map.1 added
    obtain ⟨wanted, lacking⟩ := List.mem_filter.1 chosen
    refine List.mem_append_right _ (List.mem_map_of_mem ?_)
    exact List.mem_filter.2 ⟨subset column wanted, lacking⟩

/-- An entity is printed as what is declared of it. -/
theorem printed_declaredPart (entity : Entity) : entity.declaredPart.printed = entity.printed := by
  rw [printed, printed, declaredPart, List.filter_filter]
  simp only [Bool.and_self]
  rfl

end Entity

/-- The blocks of a source declare such entities. -/
theorem Block.isDeclared_of_ofSource {source : String} {blocks : List Block}
    (cut : ofSource source = .ok ([], blocks)) :
    ∀ entity ∈ blocks.map Block.entity, entity.IsDeclared := by
  rw [List.forall_mem_map]
  intro block member
  refine ⟨rfl, fun field listed => ?_⟩
  obtain ⟨line, inSource, span, read⟩ := exists_ofLine_of_mem_field cut member listed
  exact ⟨FieldLine.writable_of_ofLine read, FieldLine.onOneLine_of_ofLine inSource read⟩

/-! ## Reading what was printed -/

namespace Schema

variable {entities : List Entity}

/-- The latest entities are what is printed of a schema. -/
theorem map_declaredPart_ofDeclared (declared : ∀ entity ∈ entities, entity.IsDeclared) :
    (ofDeclared entities).entities.map Entity.declaredPart = Entity.latest entities := by
  rw [ofDeclared, List.map_map]
  refine (List.map_congr_left fun entity member => ?_).trans (List.map_id' _)
  exact (declared entity (Entity.mem_of_mem_latest member)).declaredPart_withForeignKeys _

/-- Under either policy, the printed text declares the latest entities. -/
theorem ofSource_printed_ofDeclared (declared : ∀ entity ∈ entities, entity.IsDeclared)
    (fields : ∀ entity ∈ entities, (entity.fields.map (·.name)).Nodup)
    (targets : ∀ entity ∈ entities, ∀ target, entity.Asks target →
      target ∈ entities.map (·.name)) (policy : DuplicatePolicy) :
    ofSource policy (ofDeclared entities).printed = .ok (ofDeclared (Entity.latest entities)) := by
  have writable : ∀ entity ∈ (ofDeclared entities).entities, entity.Writable := by
    rw [ofDeclared, List.forall_mem_map]
    intro entity member
    exact (declared entity (Entity.mem_of_mem_latest member)).writable_withForeignKeys _
  obtain ⟨blocks, cut, same⟩ := Block.ofSource_printed writable
  rw [map_declaredPart_ofDeclared declared] at same
  have latest : ∀ block ∈ blocks, block.entity ∈ entities := by
    intro block member
    apply Entity.mem_of_mem_latest
    rw [← same]
    exact List.mem_map_of_mem member
  -- each name is declared once now, and none is lost
  have names : blocks.map Block.name = (entities.map (·.name)).eraseDups := by
    rw [← Entity.map_name_latest, ← same, List.map_map]
    rfl
  rw [ofSource_eq_ok_iff]
  refine ⟨blocks, cut, ⟨?_, fun _ => ?_⟩, ?_, by rw [same]⟩
  · exact fun block member => fields block.entity (latest block member)
  · rw [names]
    exact Repeats.nodup_eraseDups _
  · intro block member target asks
    rw [names, List.mem_eraseDups]
    exact targets block.entity (latest block member) target asks

/-- The printed text of an accepted source is read under either policy as the schema of the latest
of the declared entities. -/
theorem exists_ofSource_printed {policy : DuplicatePolicy} {source : String} {schema : Schema}
    (h : ofSource policy source = .ok schema) :
    ∃ entities, (∀ entity ∈ entities, entity.IsDeclared) ∧ schema = ofDeclared entities ∧
      (policy = .reject → (entities.map (·.name)).Nodup) ∧
      ∀ other, ofSource other schema.printed = .ok (ofDeclared (Entity.latest entities)) := by
  obtain ⟨blocks, cut, distinct, targets, rfl⟩ := ofSource_eq_ok_iff.1 h
  have declared := Block.isDeclared_of_ofSource cut
  refine ⟨blocks.map Block.entity, declared, rfl, ?_, ?_⟩
  · rw [List.map_map]
    exact distinct.names
  · refine ofSource_printed_ofDeclared declared ?_ ?_
    · rw [List.forall_mem_map]
      exact distinct.fields
    · rw [List.forall_mem_map, List.map_map]
      exact targets

/-- A source that is accepted when repeated names are rejected is accepted with the same schema
when they are not. -/
theorem ofSource_replace_of_reject {source : String} {schema : Schema}
    (h : ofSource .reject source = .ok schema) : ofSource .replace source = .ok schema := by
  obtain ⟨blocks, cut, distinct, rest⟩ := ofSource_eq_ok_iff.1 h
  exact ofSource_eq_ok_iff.2 ⟨blocks, cut, ⟨distinct.fields, fun absurd => nomatch absurd⟩, rest⟩

/-- The printed schema of a source that repeats no name is read, under either policy, as the same
schema. -/
theorem ofSource_printed_of_reject {source : String} {schema : Schema}
    (h : ofSource .reject source = .ok schema) :
    ofSource .replace source = .ok schema ∧
      ∀ policy, ofSource policy schema.printed = .ok schema := by
  refine ⟨ofSource_replace_of_reject h, fun policy => ?_⟩
  obtain ⟨entities, -, same, distinct, printed⟩ := exists_ofSource_printed h
  rw [printed, Entity.latest_of_nodup (distinct rfl), same]

/-- Relations that are not grouped by kind and a field with all parts are printed and read again. -/
theorem ofSource_printed_of_reject_regrouped :
    ∃ schema,
      ofSource .reject
        "User Tag:hmb Post:hm\n  pay:decimal,10, 2 :index->min:0 | \n\nPost User:ho\n\nTag"
          = .ok schema ∧ ∀ policy, ofSource policy schema.printed = .ok schema :=
  Outcome.exists_eq_ok_and_of_isOk (by decide +kernel) fun _ h =>
    (ofSource_printed_of_reject h).2

/-! ## Declarations that were replaced -/

/-- The printed text of a schema shows the latest entities. -/
theorem printed_ofDeclared (declared : ∀ entity ∈ entities, entity.IsDeclared) :
    (ofDeclared entities).printed =
      "\n".intercalate ((Entity.latest entities).map Entity.printed) := by
  rw [printed, ← map_declaredPart_ofDeclared declared, List.map_map]
  congr 1
  exact List.map_congr_left fun entity _ => (Entity.printed_declaredPart entity).symm

/-- Without the replaced declarations there are no more link tables than before. -/
theorem subperm_linkTables_latest (entities : List Entity) :
    (Entity.linkTables (Entity.latest entities)).Subperm (Entity.linkTables entities) := by
  have kept : (Entity.latest entities).Subperm entities :=
    (Entity.nodup_map_name_latest entities).of_map.subperm
      fun entity member => Entity.mem_of_mem_latest member
  obtain ⟨same, perm, sublist⟩ := kept
  exact ⟨_, perm.flatMap_right _, sublist.flatMap _⟩

/-- The printed schema of an accepted source is read under either policy, even when declarations
were replaced. It is printed as before, its entities are declared as before, and it has no foreign
key and no link table that was not there. -/
theorem ofSource_printed_of_replace {source : String} {first : Schema}
    (h : ofSource .replace source = .ok first) :
    ∃ second : Schema, (∀ policy, ofSource policy first.printed = .ok second) ∧
      second.printed = first.printed ∧
      List.Forall₂ (fun after before : Entity =>
          after.declaredPart = before.declaredPart ∧
            ∀ field ∈ after.fields, field.origin = .foreignKey → field ∈ before.fields)
        second.entities first.entities ∧
      second.links.Subperm first.links := by
  obtain ⟨entities, declared, rfl, -, printed⟩ := exists_ofSource_printed h
  have latest : ∀ entity ∈ Entity.latest entities, entity.IsDeclared := fun entity member =>
    declared entity (Entity.mem_of_mem_latest member)
  -- the latest entities have different names, so reading them again changes nothing
  have again : Entity.latest (Entity.latest entities) = Entity.latest entities :=
    Entity.latest_of_nodup (Entity.nodup_map_name_latest entities)
  refine ⟨ofDeclared (Entity.latest entities), printed, ?_, ?_, subperm_linkTables_latest entities⟩
  · rw [printed_ofDeclared latest, printed_ofDeclared declared, again]
  · rw [ofDeclared, ofDeclared, again, List.forall₂_map_left_iff, List.forall₂_map_right_iff,
      List.forall₂_same]
    intro entity member
    refine ⟨?_, (latest entity member).mem_fields_withForeignKeys fun column asked => ?_⟩
    · rw [(latest entity member).declaredPart_withForeignKeys,
        (latest entity member).declaredPart_withForeignKeys]
    · obtain ⟨owner, present, asks, rfl⟩ := Entity.mem_columnsFor_iff.1 asked
      exact Entity.mem_columnsFor_iff.2 ⟨owner, Entity.mem_of_mem_latest present, asks, rfl⟩

/-- A user is declared anew: the column of its posts and its table of tags are lost, and what is
left is printed as before. -/
theorem ofSource_printed_of_replace_redeclared :
    ∃ first,
      ofSource .replace "User Post:hm Tag:hmb\nPost\nTag\nUser Post:hmb\n  name:string\n"
          = .ok first ∧
        ∃ second, (∀ policy, ofSource policy first.printed = .ok second) ∧
          second.printed = first.printed ∧ second.links.Subperm first.links :=
  Outcome.exists_eq_ok_and_of_isOk (by decide +kernel) fun _ h =>
    have ⟨second, read, printed, _, links⟩ := ofSource_printed_of_replace h
    ⟨second, read, printed, links⟩

end Schema

end EntitySchema
