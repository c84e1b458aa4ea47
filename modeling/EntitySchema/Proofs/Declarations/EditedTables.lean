import EntitySchema.Proofs.Checked.Tables
import Mathlib.Data.List.Infix

/-! # Edited tables as plain lists

A table is edited by putting entities into it and by adding fields to entities that are found by
their names. Next to the table stands the same history on a plain list, where every name is searched
for from the front. Table, index and list stay in step: after any edits the table is the list, the
index has the position of every name and of no other, and no access to a slot misses. -/

namespace EntitySchema

/-- One edit of a table of entities. -/
inductive EntityTable.Edit where
  /-- Puts an entity into the slot of its name, or into a new one. -/
  | insert (entity : Entity)
  /-- Adds a field to the entity with exactly the name, if there is one. -/
  | addField (name : String) (field : Field)
  deriving DecidableEq, Repr

/-! ## Edits of a list -/

namespace Entity

/-- The entities with one that overwrites the first of its name, or comes last if its name is
new. -/
def place (entity : Entity) : List Entity → List Entity
  | [] => [entity]
  | first :: rest =>
    if first.name = entity.name then entity :: rest else first :: place entity rest

/-- The entities with a field added to the first with exactly the given name. -/
def addFieldTo (name : String) (field : Field) : List Entity → List Entity
  | [] => []
  | first :: rest =>
    if first.name.text = name then first.addField field :: rest
    else first :: addFieldTo name field rest

/-- The first entity with exactly the given name and its position, when the first entity of all has
the given position. -/
def search (name : String) (position : Nat) : List Entity → Option (Entity × Nat)
  | [] => none
  | first :: rest =>
    if first.name.text = name then some (first, position) else search name (position + 1) rest

/-- The entities after one edit. -/
def edit (entities : List Entity) : EntityTable.Edit → List Entity
  | .insert entity => place entity entities
  | .addField name field => addFieldTo name field entities

/-- The entities after edits to none. -/
def edited (edits : List EntityTable.Edit) : List Entity := edits.foldl edit []

variable {entity found : Entity} {entities : List Entity} {name : String} {position slot : Nat}

/-- A search finds the entity in the slot of the name. -/
theorem search_eq (name : String) (position : Nat) (entities : List Entity) :
    search name position entities =
      (entities.findIdx? (·.name.text == name)).bind fun slot =>
        entities[slot]?.map fun entity => (entity, position + slot) := by
  induction entities generalizing position with
  | nil => rfl
  | cons first rest ih =>
    rw [search, List.findIdx?_cons]
    by_cases here : first.name.text = name
    · rw [if_pos here, if_pos (beq_iff_eq.2 here)]
      rfl
    · rw [if_neg here, if_neg (by simpa using here), ih]
      cases rest.findIdx? (·.name.text == name) with
      | none => rfl
      | some slot => simp [Nat.add_assoc, Nat.add_comm 1]

/-- An entity is placed in the slot of its name, or at the end. -/
theorem place_eq (entity : Entity) (entities : List Entity) :
    place entity entities =
      match entities.findIdx? (·.name.text == entity.name.text) with
      | some slot => entities.set slot entity
      | none => entities ++ [entity] := by
  induction entities with
  | nil => rfl
  | cons first rest ih =>
    rw [place, List.findIdx?_cons]
    by_cases here : first.name = entity.name
    · rw [if_pos here, if_pos (by rw [here, beq_self_eq_true])]
      rfl
    · have differs : (first.name.text == entity.name.text) = false :=
        beq_eq_false_iff_ne.2 fun same => here (EntityName.ext same)
      rw [if_neg here, differs, ih]
      cases rest.findIdx? (·.name.text == entity.name.text) <;> rfl

/-- A field is added to the entity in the slot of the name, if there is one. -/
theorem addFieldTo_eq (name : String) (field : Field) (entities : List Entity) :
    addFieldTo name field entities =
      match entities.findIdx? (·.name.text == name) with
      | some slot => entities.modify slot (·.addField field)
      | none => entities := by
  induction entities with
  | nil => rfl
  | cons first rest ih =>
    rw [addFieldTo, List.findIdx?_cons]
    by_cases here : first.name.text = name
    · rw [if_pos here, if_pos (beq_iff_eq.2 here)]
      rfl
    · rw [if_neg here, if_neg (by simpa using here), ih]
      cases rest.findIdx? (·.name.text == name) <;> rfl

/-! ## Names -/

/-- An entity with a new name brings its name to the end of the names. -/
theorem map_name_place (entity : Entity) (entities : List Entity) :
    (place entity entities).map (·.name) =
      if entity.name ∈ entities.map (·.name) then entities.map (·.name)
      else entities.map (·.name) ++ [entity.name] := by
  induction entities with
  | nil => rfl
  | cons first rest ih =>
    rw [place]
    by_cases here : first.name = entity.name
    · rw [if_pos here, List.map_cons, List.map_cons, here, if_pos List.mem_cons_self]
    · have others : entity.name ∈ first.name :: rest.map (·.name) ↔
          entity.name ∈ rest.map (·.name) := by
        rw [List.mem_cons, or_iff_right (Ne.symm here)]
      rw [if_neg here, List.map_cons, List.map_cons, ih]
      simp only [others]
      split <;> rfl

/-- Adding a field keeps all names. -/
theorem map_name_addFieldTo (name : String) (field : Field) (entities : List Entity) :
    (addFieldTo name field entities).map (·.name) = entities.map (·.name) := by
  induction entities with
  | nil => rfl
  | cons first rest ih =>
    rw [addFieldTo]
    split
    · rfl
    · rw [List.map_cons, ih, List.map_cons]

/-- An edit keeps the names in their order, and puts new ones behind them. -/
theorem map_name_prefix_edit (entities : List Entity) (change : EntityTable.Edit) :
    entities.map (·.name) <+: (edit entities change).map (·.name) := by
  cases change with
  | insert entity =>
    rw [edit, map_name_place]
    split
    · exact List.prefix_refl _
    · exact List.prefix_append _ _
  | addField name field =>
    rw [edit, map_name_addFieldTo]

/-- An edit keeps the names different. -/
theorem nodup_map_name_edit (distinct : (entities.map (·.name)).Nodup)
    (change : EntityTable.Edit) : ((edit entities change).map (·.name)).Nodup := by
  cases change with
  | insert entity =>
    rw [edit, map_name_place]
    split
    · exact distinct
    · rename_i new
      rw [List.nodup_append_comm, List.singleton_append, List.nodup_cons]
      exact ⟨new, distinct⟩
  | addField name field =>
    rw [edit, map_name_addFieldTo]
    exact distinct

/-- Edits keep the names different. -/
theorem nodup_map_name_edited (edits : List EntityTable.Edit) :
    ((edited edits).map (·.name)).Nodup := by
  induction edits using List.reverseRecOn with
  | nil => exact List.nodup_nil
  | append_singleton front last ih =>
    rw [edited, List.foldl_concat]
    exact nodup_map_name_edit ih last

/-- The names after edits stay in front, whatever edits follow. -/
theorem map_name_prefix_edited (edits later : List EntityTable.Edit) :
    (edited edits).map (·.name) <+: (edited (edits ++ later)).map (·.name) := by
  induction later using List.reverseRecOn with
  | nil =>
    rw [List.append_nil]
  | append_singleton front last ih =>
    rw [← List.append_assoc, edited, edited, List.foldl_concat]
    exact ih.trans (map_name_prefix_edit _ last)

/-! ## Positions -/

/-- With different names, an entity is the first of its name wherever it stands. -/
theorem findIdx?_of_getElem? (distinct : (entities.map (·.name)).Nodup)
    (h : entities[slot]? = some entity) :
    entities.findIdx? (·.name.text == entity.name.text) = some slot := by
  obtain ⟨bound, same⟩ := List.getElem?_eq_some_iff.1 h
  have apart := List.pairwise_iff_getElem.1 (List.pairwise_map.1 distinct)
  rw [List.findIdx?_eq_some_iff_getElem]
  refine ⟨bound, by rw [same, beq_self_eq_true], fun other before named => ?_⟩
  have names := apart other slot (Nat.lt_trans before bound) bound before
  rw [same] at names
  exact names (EntityName.ext (beq_iff_eq.1 named))

/-- A search finds the first entity of the name. -/
theorem map_entity_search (name : String) (position : Nat) (entities : List Entity) :
    (search name position entities).map (·.1) = entities.find? (·.name.text == name) := by
  induction entities generalizing position with
  | nil => rfl
  | cons first rest ih =>
    rw [search, List.find?_cons]
    by_cases here : first.name.text = name
    · rw [if_pos here, beq_iff_eq.2 here]
      rfl
    · rw [if_neg here, beq_eq_false_iff_ne.2 here, ih]

/-- With different names, a search finds an entity exactly where it stands. -/
theorem search_eq_some_iff (distinct : (entities.map (·.name)).Nodup) :
    search name 0 entities = some (entity, slot) ↔
      entities[slot]? = some entity ∧ entity.name.text = name := by
  rw [search_eq]
  constructor
  · intro h
    obtain ⟨place, isFirst, found⟩ := Option.bind_eq_some_iff.1 h
    obtain ⟨other, present, same⟩ := Option.map_eq_some_iff.1 found
    obtain ⟨rfl, rfl⟩ := Prod.mk.inj same
    obtain ⟨bound, named, -⟩ := List.findIdx?_eq_some_iff_getElem.1 isFirst
    rw [Nat.zero_add]
    refine ⟨present, ?_⟩
    rw [List.getElem?_eq_getElem bound] at present
    rw [← Option.some.inj present]
    exact beq_iff_eq.1 named
  · rintro ⟨present, rfl⟩
    rw [findIdx?_of_getElem? distinct present, Option.bind_some, present, Option.map_some,
      Nat.zero_add]

/-- The position of a name is its position among the names. -/
theorem map_position_search (name : String) (entities : List Entity) :
    (search name 0 entities).map (·.2) =
      (entities.map (·.name)).findIdx? (·.text == name) := by
  have names : (entities.map (·.name)).findIdx? (·.text == name) =
      entities.findIdx? (·.name.text == name) := List.findIdx?_map
  rw [search_eq, names]
  cases isFirst : entities.findIdx? (·.name.text == name) with
  | none => rfl
  | some slot =>
    obtain ⟨bound, -⟩ := List.findIdx?_eq_some_iff_getElem.1 isFirst
    rw [Option.bind_some, List.getElem?_eq_getElem bound, Option.map_some, Option.map_some,
      Nat.zero_add]

/-- A name keeps its position, whatever edits follow. -/
theorem exists_search_append {edits : List EntityTable.Edit}
    (h : search name 0 (edited edits) = some (entity, slot)) (later : List EntityTable.Edit) :
    ∃ now, search name 0 (edited (edits ++ later)) = some (now, slot) := by
  obtain ⟨more, names⟩ := map_name_prefix_edited edits later
  have before : ((edited edits).map (·.name)).findIdx? (·.text == name) = some slot := by
    rw [← map_position_search, h, Option.map_some]
  have after : (search name 0 (edited (edits ++ later))).map (·.2) = some slot := by
    rw [map_position_search, ← names, List.findIdx?_append, before, Option.some_or]
  obtain ⟨⟨now, place⟩, found, same⟩ := Option.map_eq_some_iff.1 after
  obtain rfl : place = slot := same
  exact ⟨now, found⟩

end Entity

/-! ## Edits of a table -/

namespace EntityTable

/-- The table after one edit. -/
def edit (table : EntityTable) : Edit → EntityTable
  | .insert entity => (table.insert entity).2
  | .addField name field => table.modify name (·.addField field)

/-- The table after edits to the empty one. -/
def ofEdits (edits : List Edit) : EntityTable := edits.foldl edit empty

variable {table : EntityTable} {index : SlotIndex} {name : String}

/-- An edit of a table is an edit of its list. -/
theorem toList_edit (table : EntityTable) (change : Edit) :
    (table.edit change).toList = Entity.edit table.toList change := by
  cases change with
  | insert entity =>
    rw [edit, Entity.edit, Entity.place_eq, insert, slot?]
    cases table.toList.findIdx? (·.name.text == entity.name.text) <;> rfl
  | addField name field =>
    rw [edit, Entity.edit, Entity.addFieldTo_eq, modify, slot?]
    cases table.toList.findIdx? (·.name.text == name) <;> rfl

/-- Edits of a table are edits of a list. -/
theorem toList_ofEdits (edits : List Edit) : (ofEdits edits).toList = Entity.edited edits := by
  induction edits using List.reverseRecOn with
  | nil => rfl
  | append_singleton front last ih =>
    rw [ofEdits, Entity.edited, List.foldl_concat, List.foldl_concat, toList_edit, ← ofEdits, ih,
      ← Entity.edited]

end EntityTable

/-! ## Edits of a table with an index -/

/-- A table with the index of its slots. -/
structure IndexedTable where
  /-- The table, whose entities are accessed by slot alone. -/
  table : EntityTable := .empty
  /-- The slots of the names. -/
  index : SlotIndex := ∅

namespace IndexedTable

/-- Puts an entity into the slot that the index has for its name, or into a new slot. -/
def insert? (indexed : IndexedTable) (entity : Entity) : Option (Nat × IndexedTable) :=
  (indexed.table.insert? indexed.index entity).map fun (slot, table, index) =>
    (slot, ⟨table, index⟩)

/-- Whether the index has a name. -/
def contains (indexed : IndexedTable) (name : String) : Bool := indexed.index.contains name

/-- The entity in the slot that the index has for a name, to be read or to be changed there. The
access misses when the table has no such slot. -/
def find? (indexed : IndexedTable) (name : String) : Option (Option (Entity × Nat)) :=
  match indexed.index[name]? with
  | some slot => (indexed.table.at? slot).map fun entity => some (entity, slot)
  | none => some none

/-- Adds a field to the entity of a name where it is found. -/
def addField? (indexed : IndexedTable) (name : String) (field : Field) : Option IndexedTable := do
  match ← indexed.find? name with
  | some (entity, slot) =>
    return { indexed with table := ⟨indexed.table.toList.set slot (entity.addField field)⟩ }
  | none => return indexed

/-- The table and its index after one edit. -/
def edit? (indexed : IndexedTable) : EntityTable.Edit → Option IndexedTable
  | .insert entity => (indexed.insert? entity).map (·.2)
  | .addField name field => indexed.addField? name field

/-- The table and its index after edits to the empty ones. -/
def ofEdits? (edits : List EntityTable.Edit) : Option IndexedTable := edits.foldlM edit? {}

variable {indexed : IndexedTable} {table : EntityTable} {index : SlotIndex}

/-- With the slots of a table in its index, finding a name is searching for it in the list. -/
theorem find?_eq (h : table.IndexedBy index) (name : String) :
    find? ⟨table, index⟩ name = some (Entity.search name 0 table.toList) := by
  rw [find?, h name, Entity.search_eq]
  cases found : table.slot? name with
  | none =>
    rw [EntityTable.slot?] at found
    rw [found]
    rfl
  | some slot =>
    obtain ⟨entity, present, -⟩ := EntityTable.exists_at?_of_slot? found
    rw [EntityTable.slot?] at found
    rw [EntityTable.at?] at present
    simp [EntityTable.at?, found, present]

/-- An edit of an indexed table does not miss, and edits the table and the index alike. -/
theorem edit?_eq (h : table.IndexedBy index) (change : EntityTable.Edit) :
    ∃ next, edit? ⟨table, index⟩ change = some ⟨table.edit change, next⟩ ∧
      (table.edit change).IndexedBy next := by
  cases change with
  | insert entity =>
    obtain ⟨next, inserted, indexed⟩ := h.insert?_eq entity
    refine ⟨next, ?_, indexed⟩
    rw [edit?, insert?, inserted]
    rfl
  | addField name field =>
    refine ⟨index, ?_, ?_⟩
    · rw [edit?, addField?, find?, h name, EntityTable.edit, EntityTable.modify]
      cases found : table.slot? name with
      | none => rfl
      | some slot =>
        obtain ⟨entity, present, -⟩ := EntityTable.exists_at?_of_slot? found
        simp only [present, ← EntityTable.set_eq_modifyAt present]
        rfl
    · rw [EntityTable.edit, EntityTable.modify]
      split
      · exact h.congr (EntityTable.map_name_modifyAt fun entity _ => entity.name_addField field)
      · exact h

/-- No edit misses, and the edits of the table and of the index stay in step. -/
theorem ofEdits?_eq (edits : List EntityTable.Edit) :
    ∃ index, ofEdits? edits = some ⟨.ofEdits edits, index⟩ ∧
      (EntityTable.ofEdits edits).IndexedBy index := by
  induction edits using List.reverseRecOn with
  | nil => exact ⟨∅, rfl, EntityTable.indexedBy_empty⟩
  | append_singleton front last ih =>
    obtain ⟨index, built, indexed⟩ := ih
    obtain ⟨next, edited, again⟩ := edit?_eq indexed last
    have concat : EntityTable.ofEdits (front ++ [last]) =
        (EntityTable.ofEdits front).edit last := by
      rw [EntityTable.ofEdits, List.foldl_concat]
      rfl
    rw [concat]
    refine ⟨next, ?_, again⟩
    rw [ofEdits?, List.foldlM_append, ← ofEdits?, built]
    simp [edited]

/-! ## What an indexed table says -/

/-- Whether a table with its index says what a list of entities says. -/
structure Represents (indexed : IndexedTable) (entities : List Entity) : Prop where
  /-- The entities stand in the table as in the list. -/
  toList_eq : indexed.table.toList = entities
  /-- No two entities have the same name. -/
  names_distinct : (entities.map (·.name)).Nodup
  /-- The index has the slot of every entity under its name, and nothing else. -/
  index_iff : ∀ name slot, indexed.index[name]? = some slot ↔
    ∃ entity : Entity, entities[slot]? = some entity ∧ entity.name.text = name
  /-- A name is in the index when a search through the list finds it. -/
  contains_eq : ∀ name, indexed.contains name = (Entity.search name 0 entities).isSome
  /-- What is found through the index is what a search through the list finds, and where. -/
  find?_eq : ∀ name, indexed.find? name = some (Entity.search name 0 entities)
  /-- The table without the index finds the same by name. -/
  table_eq : ∀ name, indexed.table.contains name = (Entity.search name 0 entities).isSome ∧
    indexed.table.get? name = (Entity.search name 0 entities).map (·.1) ∧
    indexed.table.slot? name = (Entity.search name 0 entities).map (·.2)
  /-- A schema of the entities finds the same by name. -/
  schema_eq : ∀ links name, Schema.entity? ⟨entities, links⟩ name =
    (Entity.search name 0 entities).map (·.1)

/-- With the slots of a table in its index, the two say what the list of the table says. -/
theorem represents_of_indexedBy (distinct : (table.toList.map (·.name)).Nodup)
    (h : table.IndexedBy index) : Represents ⟨table, index⟩ table.toList := by
  have slots : ∀ name, table.slot? name = (Entity.search name 0 table.toList).map (·.2) := by
    intro name
    rw [Entity.map_position_search, EntityTable.slot?_eq_findIdx?]
  have contained : ∀ name, table.contains name = (Entity.search name 0 table.toList).isSome := by
    intro name
    rw [EntityTable.contains, slots, Option.isSome_map]
  refine ⟨rfl, distinct, fun name slot => ?_, fun name => ?_, find?_eq h, fun name =>
    ⟨contained name, ?_, slots name⟩, fun links name => ?_⟩
  · rw [h name, slots, Option.map_eq_some_iff]
    constructor
    · rintro ⟨⟨entity, place⟩, found, rfl⟩
      exact ⟨entity, (Entity.search_eq_some_iff distinct).1 found⟩
    · rintro ⟨entity, stands⟩
      exact ⟨(entity, slot), (Entity.search_eq_some_iff distinct).2 stands, rfl⟩
  · rw [contains, h.contains_eq, contained]
  · rw [EntityTable.get?, slots]
    cases found : Entity.search name 0 table.toList with
    | none => rfl
    | some place =>
      obtain ⟨entity, slot⟩ := place
      exact ((Entity.search_eq_some_iff distinct).1 found).1
  · rw [Entity.map_entity_search, Schema.entity?]

/-- After any edits, no access to a slot has missed, and the table with its index says what the list
says after the same edits; the table is the one that is edited without an index. An entity that is
put into it gets the slot in which a search finds it then, and whatever edits follow, a search for
its name ends in that slot. -/
theorem represents_edited (edits : List EntityTable.Edit) :
    ∃ indexed, ofEdits? edits = some indexed ∧ indexed.table = .ofEdits edits ∧
      indexed.Represents (Entity.edited edits) ∧
      ∀ entity : Entity, ∃ slot next, indexed.insert? entity = some (slot, next) ∧
        ofEdits? (edits ++ [.insert entity]) = some next ∧
        ((EntityTable.ofEdits edits).insert entity).1 = slot ∧
        Entity.search entity.name.text 0 (Entity.edited (edits ++ [.insert entity])) =
          some (entity, slot) ∧
        ∀ later, ∃ now,
          Entity.search entity.name.text 0 (Entity.edited (edits ++ .insert entity :: later)) =
            some (now, slot) := by
  obtain ⟨index, built, indexed⟩ := ofEdits?_eq edits
  have list := EntityTable.toList_ofEdits edits
  have distinct := Entity.nodup_map_name_edited edits
  refine ⟨_, built, rfl, ?_, fun entity => ?_⟩
  · rw [← list] at distinct ⊢
    exact represents_of_indexedBy distinct indexed
  · obtain ⟨next, inserted, -⟩ := indexed.insert?_eq entity
    have put : insert? ⟨.ofEdits edits, index⟩ entity =
        some (((EntityTable.ofEdits edits).insert entity).1,
          ⟨((EntityTable.ofEdits edits).insert entity).2, next⟩) := by
      rw [insert?, inserted]
      rfl
    have stands : Entity.search entity.name.text 0 (Entity.edited (edits ++ [.insert entity])) =
        some (entity, ((EntityTable.ofEdits edits).insert entity).1) := by
      refine (Entity.search_eq_some_iff (Entity.nodup_map_name_edited _)).2 ⟨?_, rfl⟩
      rw [← EntityTable.toList_ofEdits, EntityTable.ofEdits, List.foldl_concat]
      exact EntityTable.at?_insert _ _
    refine ⟨_, _, put, ?_, rfl, stands, fun later => ?_⟩
    · rw [ofEdits?, List.foldlM_append, ← ofEdits?, built]
      simp [edit?, put]
    · rw [List.append_cons]
      exact Entity.exists_search_append stands later

end IndexedTable

end EntitySchema
