import EntitySchema.Proofs.Checked.Outcome
import EntitySchema.Proofs.Declarations.Resolution
import Mathlib.Data.List.Induction

/-! # Tables with an index of their slots

A table finds an entity by looking the slot of its name up in an index, and then accessing the slot.
The access misses when the index has a slot that the table has not. The index always fits the table:
a slot enters it when the table gets that slot, and the name in a slot never changes. -/

namespace EntitySchema

open Checked

/-- The slots of names. -/
abbrev SlotIndex := Std.HashMap String Nat

namespace EntityTable

variable {table other : EntityTable} {index : SlotIndex} {entity : Entity} {name : String}
  {slot : Nat}

/-- Whether an index has the slots of exactly the names in a table. -/
def IndexedBy (table : EntityTable) (index : SlotIndex) : Prop :=
  ∀ name : String, index[name]? = table.slot? name

/-- Puts an entity into the slot of its name, which is assigned to, or into a new slot. -/
def insert? (table : EntityTable) (index : SlotIndex) (entity : Entity) :
    Option (Nat × EntityTable × SlotIndex) :=
  match index[entity.name.text]? with
  | some slot => do
    -- an assignment misses where there is no such slot
    let _ ← table.at? slot
    return (slot, ⟨table.toList.set slot entity⟩, index)
  | none =>
    let slot := table.size
    some (slot, ⟨table.toList ++ [entity]⟩, index.insert entity.name.text slot)

/-! ## Slots and names -/

/-- The slot of a name is the place of the name among the names. -/
theorem slot?_eq_findIdx? (table : EntityTable) (name : String) :
    table.slot? name = (table.toList.map (·.name)).findIdx? (·.text == name) := by
  rw [List.findIdx?_map]
  rfl

/-- Tables with the same names have an index in common. -/
theorem IndexedBy.congr (h : table.IndexedBy index)
    (names : other.toList.map (·.name) = table.toList.map (·.name)) : other.IndexedBy index := by
  intro name
  rw [h name, slot?_eq_findIdx?, slot?_eq_findIdx?, names]

/-- Changing the entity in a slot keeps the names, unless its name is changed. -/
theorem map_name_modifyAt {change : Entity → Entity}
    (kept : ∀ entity, table.at? slot = some entity → (change entity).name = entity.name) :
    (table.modifyAt slot change).toList.map (·.name) = table.toList.map (·.name) := by
  refine List.ext_getElem? fun place => ?_
  rw [modifyAt, List.getElem?_map, List.getElem?_modify, List.getElem?_map]
  by_cases here : slot = place
  · subst here
    cases found : table.toList[slot]? with
    | none => rfl
    | some entity => simp [kept entity found]
  · simp [here]

/-- Changing the entity in a slot is assigning the changed entity to the slot. -/
theorem set_eq_modifyAt (h : table.at? slot = some entity) (change : Entity → Entity) :
    ⟨table.toList.set slot (change entity)⟩ = table.modifyAt slot change := by
  have found : table.toList[slot]? = some entity := h
  rw [modifyAt, List.modify_eq_set_getElem?, found]
  rfl

/-- The slot of a name has an entity of that name. -/
theorem exists_at?_of_slot? (h : table.slot? name = some slot) :
    ∃ entity, table.at? slot = some entity ∧ entity.name.text = name := by
  obtain ⟨bound, named, -⟩ := List.findIdx?_eq_some_iff_getElem.1 h
  exact ⟨_, List.getElem?_eq_getElem bound, beq_iff_eq.1 named⟩

/-- The table without entities is indexed by the index without slots. -/
theorem indexedBy_empty : empty.IndexedBy ∅ := fun _ => Std.HashMap.getElem?_empty

/-- A name is in a table when it is in the index. -/
theorem IndexedBy.contains_eq (h : table.IndexedBy index) (name : String) :
    index.contains name = table.contains name := by
  rw [Std.HashMap.contains_eq_isSome_getElem?, h name, contains]

/-- Putting an entity into an indexed table does not miss, and leaves an indexed table. -/
theorem IndexedBy.insert?_eq (h : table.IndexedBy index) (entity : Entity) :
    ∃ next, table.insert? index entity =
        some ((table.insert entity).1, (table.insert entity).2, next) ∧
      (table.insert entity).2.IndexedBy next := by
  cases found : table.slot? entity.name.text with
  | some slot =>
    obtain ⟨old, present, named⟩ := exists_at?_of_slot? found
    refine ⟨index, ?_, ?_⟩
    · rw [insert?, h, found, insert_of_slot found]
      dsimp only
      rw [present]
      rfl
    · -- the entity that was in the slot had the same name
      have names : (table.modifyAt slot fun _ => entity).toList.map (·.name) =
          table.toList.map (·.name) := by
        refine map_name_modifyAt fun other inside => ?_
        obtain rfl := Option.some.inj (present.symm.trans inside)
        exact (EntityName.ext named).symm
      rw [insert_of_slot found, List.set_eq_modify]
      exact h.congr names
  | none =>
    have new : table.contains entity.name.text = false := by rw [contains, found]; rfl
    refine ⟨index.insert entity.name.text table.size, ?_, ?_⟩
    · rw [insert?, h, found, insert_of_not_contains new]
    · rw [insert_of_not_contains new]
      intro name
      have slots : EntityTable.slot? ⟨table.toList ++ [entity]⟩ name =
          (table.slot? name).or (if entity.name.text == name then some table.size else none) := by
        rw [slot?, List.findIdx?_append, List.findIdx?_singleton]
        split <;> simp [slot?, size]
      rw [Std.HashMap.getElem?_insert, h name, slots]
      split
      · rename_i same
        rw [← beq_iff_eq.1 same, found, Option.none_or]
      · rw [Option.or_none]

end EntityTable

/-! ## Resolution -/

namespace Declarations

variable {finish : EndOfSource} {table next : EntityTable} {index : SlotIndex}
  {entry : EntityName × List FieldName}

/-- Grants the columns of one target, whose entity is accessed in its slot. -/
def grantAll? (finish : EndOfSource) (index : SlotIndex) (table : EntityTable)
    (entry : EntityName × List FieldName) : Checked EntityTable := do
  let (target, columns) := entry
  match index[target.text]? with
  | some slot =>
    let entity ← access (table.at? slot)
    return ⟨table.toList.set slot (columns.foldl grant entity)⟩
  | none =>
    let column := (columns.head?.map (·.text)).getD ""
    throw ⟨.unresolvedReference target.text column, finish.line, .emptyAt finish.offset⟩

/-- The schema of declarations whose source ends at the given place. -/
def resolve? (declarations : Declarations) (index : SlotIndex) (finish : EndOfSource) :
    Checked Schema := do
  let table ← declarations.pending.entries.foldlM (grantAll? finish index) declarations.entities
  return ⟨table.toList, declarations.links⟩

/-- No access misses when columns are granted in an indexed table. -/
theorem grantAll?_eq (h : table.IndexedBy index) (finish : EndOfSource)
    (entry : EntityName × List FieldName) :
    grantAll? finish index table entry = outcome (grantAll finish table entry) := by
  obtain ⟨target, columns⟩ := entry
  rw [grantAll?, grantAll, h target.text, EntityTable.contains, EntityTable.modify]
  cases found : table.slot? target.text with
  | none => rfl
  | some slot =>
    obtain ⟨entity, present, -⟩ := EntityTable.exists_at?_of_slot? found
    simp only [present, access_some_bind, Option.isSome_some, if_true]
    rw [← EntityTable.set_eq_modifyAt present]
    rfl

/-- Granting columns keeps the names in a table. -/
theorem map_name_of_grantAll (h : grantAll finish table entry = .ok next) :
    next.toList.map (·.name) = table.toList.map (·.name) := by
  rw [grantAll] at h
  split at h
  · obtain rfl := Except.ok.inj h
    rw [EntityTable.modify]
    split
    · exact EntityTable.map_name_modifyAt fun entity _ => name_foldl_grant _ entity
    · rfl
  · cases h

/-- No access misses when the columns of all targets are granted. -/
theorem foldlM_grantAll?_eq (h : table.IndexedBy index) (finish : EndOfSource)
    (entries : List (EntityName × List FieldName)) :
    entries.foldlM (grantAll? finish index) table =
      outcome (entries.foldlM (grantAll finish) table) := by
  induction entries generalizing table with
  | nil => rfl
  | cons entry rest ih =>
    rw [List.foldlM_cons, List.foldlM_cons, grantAll?_eq h]
    cases granted : grantAll finish table entry with
    | error error => rfl
    | ok next => exact ih (h.congr (map_name_of_grantAll granted))

/-- No access misses when the declarations in an indexed table are resolved. -/
theorem resolve?_eq {declarations : Declarations} (h : declarations.entities.IndexedBy index)
    (finish : EndOfSource) :
    declarations.resolve? index finish = outcome (declarations.resolve finish) := by
  rw [resolve?, resolve, foldlM_grantAll?_eq h]
  cases declarations.pending.entries.foldlM (grantAll finish) declarations.entities <;> rfl

end Declarations

end EntitySchema
