import EntitySchema.Name

/-! # Pending columns

A relation may ask another entity to carry a column before that entity is declared. The request is
registered, and granted once the whole source is read. Targets keep the order in which they were
first registered, and so do the columns of each target; a column is registered once per target. -/

namespace EntitySchema

/-- The columns that entities have to carry, by entity. -/
structure PendingColumns where
  /-- Each target with its columns. -/
  entries : List (EntityName × List FieldName) := []
  deriving DecidableEq, Repr

namespace PendingColumns

/-- No column is pending. -/
def empty : PendingColumns := {}

/-- Adds a column to the entry of its target, or a new entry at the end. -/
def addTo (target : EntityName) (column : FieldName) :
    List (EntityName × List FieldName) → List (EntityName × List FieldName)
  | [] => [(target, [column])]
  | (name, columns) :: rest =>
    if name = target then (name, columns ++ [column]) :: rest
    else (name, columns) :: addTo target column rest

/-- The columns pending for exactly the given name, if it was ever registered. -/
def columns? (pending : PendingColumns) (target : String) : Option (List FieldName) :=
  (pending.entries.find? (·.1.text == target)).map (·.2)

/-- Whether a column is pending for a target. -/
def contains (pending : PendingColumns) (target : EntityName) (column : FieldName) : Bool :=
  match pending.columns? target.text with
  | some columns => columns.contains column
  | none => false

/-- Makes a column pending for a target, and tells whether it was not pending before. -/
def register (pending : PendingColumns) (target : EntityName) (column : FieldName) :
    Bool × PendingColumns :=
  if pending.contains target column then (false, pending)
  else (true, ⟨addTo target column pending.entries⟩)

/-- The number of pending columns over all targets. -/
def size (pending : PendingColumns) : Nat :=
  pending.entries.foldr (fun entry size => entry.2.length + size) 0

/-- Whether nothing was registered. -/
def isEmpty (pending : PendingColumns) : Bool := pending.entries.isEmpty

@[simp] theorem entries_empty : empty.entries = [] := rfl

/-- A column that is pending already is not registered again. -/
theorem register_of_contains {pending : PendingColumns} {target : EntityName} {column : FieldName}
    (h : pending.contains target column = true) :
    pending.register target column = (false, pending) := by
  simp [register, h]

/-- A column that is not pending yet is added for its target. -/
theorem register_of_not_contains {pending : PendingColumns} {target : EntityName}
    {column : FieldName} (h : pending.contains target column = false) :
    pending.register target column = (true, ⟨addTo target column pending.entries⟩) := by
  simp [register, h]

end PendingColumns

end EntitySchema
