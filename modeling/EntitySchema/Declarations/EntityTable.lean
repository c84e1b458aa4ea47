import EntitySchema.Entity

/-! # Tables of entities

A table of entities is keyed by name and keeps the order in which the names were first inserted.
Every entity has a *slot*, its position in the table; a second entity of the same name takes over
the slot of the first. -/

namespace EntitySchema

/-- Entities in the order in which their names were first inserted. -/
structure EntityTable where
  /-- The entities, by slot. -/
  toList : List Entity := []
  deriving DecidableEq, Repr

namespace EntityTable

/-- The table without entities. -/
def empty : EntityTable := {}

/-- The number of entities. -/
def size (table : EntityTable) : Nat := table.toList.length

/-- Whether a table has no entity. -/
def isEmpty (table : EntityTable) : Bool := table.toList.isEmpty

/-- The slot of the entity with exactly the given name. -/
def slot? (table : EntityTable) (name : String) : Option Nat :=
  table.toList.findIdx? (·.name.text == name)

/-- Whether an entity has exactly the given name. -/
def contains (table : EntityTable) (name : String) : Bool := (table.slot? name).isSome

/-- The entity in a slot. -/
def at? (table : EntityTable) (slot : Nat) : Option Entity := table.toList[slot]?

/-- The entity with exactly the given name. -/
def get? (table : EntityTable) (name : String) : Option Entity := (table.slot? name).bind table.at?

/-- The table with the entity in a slot changed. -/
def modifyAt (table : EntityTable) (slot : Nat) (change : Entity → Entity) : EntityTable :=
  ⟨table.toList.modify slot change⟩

/-- The table with the entity of a name changed, or the same table when there is none. -/
def modify (table : EntityTable) (name : String) (change : Entity → Entity) : EntityTable :=
  match table.slot? name with
  | some slot => table.modifyAt slot change
  | none => table

/-- Puts an entity into the slot of its name, or into a new slot at the end, and tells the slot. -/
def insert (table : EntityTable) (entity : Entity) : Nat × EntityTable :=
  match table.slot? entity.name.text with
  | some slot => (slot, ⟨table.toList.set slot entity⟩)
  | none => (table.size, ⟨table.toList ++ [entity]⟩)

@[simp] theorem toList_empty : empty.toList = [] := rfl

/-- A name is in the table exactly when some entity has it. -/
theorem contains_iff {table : EntityTable} {name : String} :
    table.contains name = true ↔ ∃ entity ∈ table.toList, entity.name.text = name := by
  simp [contains, slot?]

/-- An entity with a new name goes to the end. -/
theorem insert_of_not_contains {table : EntityTable} {entity : Entity}
    (h : table.contains entity.name.text = false) :
    table.insert entity = (table.size, ⟨table.toList ++ [entity]⟩) := by
  rw [contains, Option.isSome_eq_false_iff, Option.isNone_iff_eq_none] at h
  simp [insert, h]

/-- An entity with a known name takes over the slot of that name. -/
theorem insert_of_slot {table : EntityTable} {entity : Entity} {slot : Nat}
    (h : table.slot? entity.name.text = some slot) :
    table.insert entity = (slot, ⟨table.toList.set slot entity⟩) := by
  simp [insert, h]

end EntityTable

end EntitySchema
