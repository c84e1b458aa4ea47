import EntitySchema.Source.Error

/-! # Outcomes that may be missing

A step whose accesses are checked breaks off when one of them misses. It then has no outcome at all:
neither a value nor an error. -/

namespace EntitySchema

/-- A step that has no outcome when an access misses, and otherwise a value or an error. -/
abbrev Checked (α : Type) := ExceptT SourceError Option α

namespace Checked

variable {α β : Type}

/-- The value of an access, which may be missing. -/
def access (found : Option α) : Checked α := ExceptT.mk (found.map .ok)

/-- An outcome that is not missing. -/
def outcome (result : Except SourceError α) : Checked α := ExceptT.mk (some result)

/-- After an access that does not miss, its value is used. -/
@[simp] theorem access_some_bind (value : α) (next : α → Checked β) :
    (access (some value) >>= next) = next value := rfl

/-- After a value, the value is used. -/
@[simp] theorem outcome_ok_bind (value : α) (next : α → Checked β) :
    (outcome (.ok value) >>= next) = next value := rfl

/-- Steps that have outcomes have an outcome together. -/
theorem outcome_bind (first : Except SourceError α) (next : α → Except SourceError β) :
    (outcome first >>= fun value => outcome (next value)) = outcome (first >>= next) := by
  cases first <;> rfl

end Checked

end EntitySchema
