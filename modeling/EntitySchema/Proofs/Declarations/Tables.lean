import EntitySchema.Declarations.EntityTable
import EntitySchema.Proofs.Declarations.Repeats

/-! # What a table of entities holds

When entities are put into a table one after the other, the table holds for every name the entity
that came last, and the names stand in the order in which they came first. -/

namespace EntitySchema

open Repeats

/-! ## The latest declarations -/

namespace Entity

/-- The entity that is declared last under a name. -/
def latest? (entities : List Entity) (name : EntityName) : Option Entity :=
  entities.reverse.find? (·.name = name)

/-- The entities that are declared last under their names, in the order of the first declarations
of these names. -/
def latest (entities : List Entity) : List Entity :=
  (entities.map (·.name)).eraseDups.filterMap (latest? entities)

variable {entities : List Entity} {entity : Entity} {name : EntityName}

/-- One more entity is the latest of its name. -/
theorem latest?_concat (entities : List Entity) (last : Entity) (name : EntityName) :
    latest? (entities ++ [last]) name =
      if last.name = name then some last else latest? entities name := by
  rw [latest?, List.reverse_concat, List.find?_cons]
  by_cases same : last.name = name <;> simp [same, latest?]

/-- The latest entity of a name has that name and is one of the entities. -/
theorem of_latest?_eq_some (h : latest? entities name = some entity) :
    entity.name = name ∧ entity ∈ entities := by
  refine ⟨by simpa using List.find?_some h, ?_⟩
  exact List.mem_reverse.1 (List.mem_of_find?_eq_some h)

/-- A name that is declared has a latest entity. -/
theorem exists_latest?_of_mem (h : name ∈ entities.map (·.name)) :
    ∃ entity, latest? entities name = some entity := by
  obtain ⟨entity, inside, rfl⟩ := List.mem_map.1 h
  apply Option.isSome_iff_exists.1
  rw [latest?, List.find?_isSome]
  exact ⟨entity, List.mem_reverse.2 inside, by simp⟩

/-- An entity is among the latest when it is the latest of its own name. -/
theorem mem_latest_iff : entity ∈ latest entities ↔ latest? entities entity.name = some entity := by
  rw [latest, List.mem_filterMap]
  constructor
  · rintro ⟨name, -, found⟩
    rwa [(of_latest?_eq_some found).1]
  · intro found
    refine ⟨entity.name, ?_, found⟩
    rw [List.mem_eraseDups]
    exact List.mem_map_of_mem (of_latest?_eq_some found).2

/-- The latest entities are entities. -/
theorem mem_of_mem_latest (h : entity ∈ latest entities) : entity ∈ entities :=
  (of_latest?_eq_some (mem_latest_iff.1 h)).2

/-- Looking for the latest entities keeps names and loses none. -/
theorem map_name_latest (entities : List Entity) :
    (latest entities).map (·.name) = (entities.map (·.name)).eraseDups := by
  have found : ∀ name ∈ (entities.map (·.name)).eraseDups,
      (latest? entities name).map (·.name) = some name := by
    intro name inside
    obtain ⟨entity, h⟩ := exists_latest?_of_mem (List.mem_eraseDups.1 inside)
    rw [h, Option.map_some, (of_latest?_eq_some h).1]
  rw [latest, List.map_filterMap, List.filterMap_congr found, List.filterMap_some]

/-- The names of the latest entities differ. -/
theorem nodup_map_name_latest (entities : List Entity) :
    ((latest entities).map (·.name)).Nodup := by
  rw [map_name_latest]
  exact nodup_eraseDups _

/-- Where entities are declared, some are latest. -/
theorem latest_eq_nil_iff : latest entities = [] ↔ entities = [] := by
  constructor
  · intro none
    have names := map_name_latest entities
    rw [none, List.map_nil] at names
    rw [List.eq_nil_iff_forall_not_mem]
    intro entity inside
    have listed : entity.name ∈ (entities.map (·.name)).eraseDups :=
      List.mem_eraseDups.2 (List.mem_map_of_mem inside)
    rw [← names] at listed
    exact List.not_mem_nil listed
  · rintro rfl
    rfl

/-- One more entity takes the place of the latest of its name, or comes last. -/
theorem latest_concat (entities : List Entity) (last : Entity) :
    latest (entities ++ [last]) =
      if last.name ∈ entities.map (·.name) then
        (latest entities).map fun entity => if entity.name = last.name then last else entity
      else latest entities ++ [last] := by
  rw [latest, List.map_append, List.map_singleton, eraseDups_concat]
  split
  · -- the name keeps its place, and the last entity is found under it
    rw [latest, List.map_filterMap]
    apply List.filterMap_congr
    intro name inside
    obtain ⟨entity, found⟩ := exists_latest?_of_mem (List.mem_eraseDups.1 inside)
    obtain ⟨rfl, -⟩ := of_latest?_eq_some found
    rw [latest?_concat, found, Option.map_some]
    by_cases same : last.name = entity.name
    · rw [if_pos same, if_pos same.symm]
    · rw [if_neg same, if_neg (Ne.symm same)]
  · -- no entity before has the name of the last one
    rename_i new
    rw [List.filterMap_append, latest]
    congr 1
    · apply List.filterMap_congr
      intro name inside
      rw [latest?_concat, if_neg]
      rintro rfl
      exact new (List.mem_eraseDups.1 inside)
    · simp [latest?_concat]

/-- Entities with different names are all latest. -/
theorem latest_of_nodup (h : (entities.map (·.name)).Nodup) : latest entities = entities := by
  induction entities using List.reverseRecOn with
  | nil => rfl
  | append_singleton front last ih =>
    rw [List.map_append, List.map_singleton, List.nodup_append_comm, List.singleton_append,
      List.nodup_cons] at h
    rw [latest_concat, if_neg h.1, ih h.2]

end Entity

/-! ## Changing one entity -/

/-- The entities after a change to those of one name. -/
def Entity.changeNamed (name : String) (change : Entity → Entity) (entities : List Entity) :
    List Entity :=
  entities.map fun entity => if entity.name.text = name then change entity else entity

/-- Nothing changes when no entity has the name. -/
theorem Entity.changeNamed_of_forall_ne {entities : List Entity} {name : String}
    (h : ∀ entity ∈ entities, entity.name.text ≠ name) (change : Entity → Entity) :
    changeNamed name change entities = entities := by
  rw [changeNamed]
  exact (List.map_congr_left fun entity inside => if_neg (h entity inside)).trans entities.map_id'

/-- A change that keeps the name of what it changes keeps all names. -/
theorem Entity.map_name_changeNamed {name : String} {change : Entity → Entity}
    (kept : ∀ entity, entity.name.text = name → (change entity).name = entity.name)
    (entities : List Entity) :
    (changeNamed name change entities).map (·.name) = entities.map (·.name) := by
  rw [changeNamed, List.map_map]
  apply List.map_congr_left
  intro entity _
  rw [Function.comp_apply]
  split
  · rename_i here
    exact kept entity here
  · rfl

/-- With different names, a change in the slot of a name is a change to the entities of the name. -/
theorem Entity.modify_of_findIdx? {entities : List Entity} {name : String} {slot : Nat}
    (distinct : (entities.map (·.name)).Nodup)
    (h : entities.findIdx? (·.name.text == name) = some slot) (change : Entity → Entity) :
    entities.modify slot change = changeNamed name change entities := by
  induction entities generalizing slot with
  | nil => cases h
  | cons first rest ih =>
    rw [List.map_cons, List.nodup_cons] at distinct
    rw [List.findIdx?_cons] at h
    rw [changeNamed, List.map_cons]
    by_cases here : first.name.text = name
    · -- the slot is the first one, and the entities after it have other names
      rw [if_pos (beq_iff_eq.2 here)] at h
      obtain rfl := Option.some.inj h
      have others : ∀ entity ∈ rest, entity.name.text ≠ name := by
        intro entity inside same
        have repeated : entity.name = first.name := EntityName.ext (same.trans here.symm)
        exact distinct.1 (repeated ▸ List.mem_map_of_mem inside)
      rw [List.modify_zero_cons, if_pos here, ← changeNamed, changeNamed_of_forall_ne others]
    · rw [if_neg (by simpa using here), Option.map_eq_some_iff] at h
      obtain ⟨next, found, rfl⟩ := h
      rw [List.modify_succ_cons, if_neg here, ih distinct.2 found, changeNamed]

namespace EntityTable

variable {table : EntityTable}

/-- Changing the entity of a name leaves the other entities as they are. -/
theorem toList_modify (distinct : (table.toList.map (·.name)).Nodup) (name : String)
    (change : Entity → Entity) :
    (table.modify name change).toList = Entity.changeNamed name change table.toList := by
  rw [modify]
  cases found : table.slot? name with
  | none =>
    rw [slot?, List.findIdx?_eq_none_iff] at found
    refine (Entity.changeNamed_of_forall_ne (fun entity inside => ?_) change).symm
    exact beq_eq_false_iff_ne.1 (found entity inside)
  | some slot => exact Entity.modify_of_findIdx? distinct found change

/-- A name is in a table when it is the name of an entity of the table. -/
theorem contains_text_iff {name : EntityName} :
    table.contains name.text = true ↔ name ∈ table.toList.map (·.name) := by
  rw [contains_iff, List.mem_map]
  constructor
  · rintro ⟨entity, inside, same⟩
    exact ⟨entity, inside, EntityName.ext same⟩
  · rintro ⟨entity, inside, rfl⟩
    exact ⟨entity, inside, rfl⟩

/-- An entity with a known name takes the place of the one before; any other comes last. -/
theorem toList_insert (distinct : (table.toList.map (·.name)).Nodup) (entity : Entity) :
    (table.insert entity).2.toList =
      if entity.name ∈ table.toList.map (·.name) then
        Entity.changeNamed entity.name.text (fun _ => entity) table.toList
      else table.toList ++ [entity] := by
  cases found : table.slot? entity.name.text with
  | none =>
    have new : table.contains entity.name.text = false := by rw [contains, found]; rfl
    rw [insert_of_not_contains new, if_neg]
    rw [← contains_text_iff, new]
    exact Bool.false_ne_true
  | some slot =>
    have old : table.contains entity.name.text = true := by rw [contains, found]; rfl
    rw [insert_of_slot found, if_pos (contains_text_iff.1 old), List.set_eq_modify]
    exact Entity.modify_of_findIdx? distinct found _

/-- A table into which entities were put holds the latest of them. -/
theorem toList_foldl_insert (entities : List Entity) :
    (entities.foldl (fun table entity => (table.insert entity).2) empty).toList =
      Entity.latest entities := by
  induction entities using List.reverseRecOn with
  | nil => rfl
  | append_singleton front last ih =>
    have distinct := Entity.nodup_map_name_latest front
    rw [← ih] at distinct
    rw [List.foldl_concat, toList_insert distinct, ih, Entity.latest_concat, Entity.map_name_latest]
    simp only [Entity.changeNamed, EntityName.ext_iff, List.mem_eraseDups]

/-! ## The slot of an entity that was put into a table -/

/-- An entity is found in the slot into which it was put. -/
theorem at?_insert (table : EntityTable) (entity : Entity) :
    (table.insert entity).2.at? (table.insert entity).1 = some entity := by
  cases found : table.slot? entity.name.text with
  | none =>
    have new : table.contains entity.name.text = false := by rw [contains, found]; rfl
    rw [insert_of_not_contains new]
    exact List.getElem?_concat_length
  | some slot =>
    have bound := (List.findIdx?_eq_some_iff_getElem.1 found).1
    rw [insert_of_slot found]
    exact List.getElem?_set_self bound

/-- Changing an entity in its slot is the same as putting the changed entity there at once. -/
theorem insert_change (table : EntityTable) {entity : Entity} {change : Entity → Entity}
    (kept : (change entity).name = entity.name) :
    table.insert (change entity) =
      ((table.insert entity).1,
        (table.insert entity).2.modifyAt (table.insert entity).1 change) := by
  cases found : table.slot? entity.name.text with
  | none =>
    have new : table.contains entity.name.text = false := by rw [contains, found]; rfl
    rw [insert_of_not_contains new, insert_of_not_contains (by rw [kept]; exact new)]
    rw [modifyAt, size, List.modify_eq_take_drop, List.take_left, List.drop_left]
    rfl
  | some slot =>
    rw [insert_of_slot found, insert_of_slot (by rw [kept]; exact found)]
    rw [modifyAt]
    congr 2
    refine List.ext_getElem? fun other => ?_
    rw [List.getElem?_modify, List.getElem?_set, List.getElem?_set]
    by_cases here : slot = other
    · simp only [if_pos here]
      split <;> rfl
    · simp only [if_neg here]
      exact (id_map _).symm

end EntityTable

end EntitySchema
