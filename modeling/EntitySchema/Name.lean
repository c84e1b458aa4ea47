import EntitySchema.Defect
import EntitySchema.Name.Identifier
import EntitySchema.Name.Plural

/-! # Names of entities and fields

Both kinds of name are identifiers, kept with the proof. From the name of an entity come the name of
its table and the name of the column by which other tables refer to it; both are lowercased, so
names that differ in case alone share them. -/

namespace EntitySchema

/-- The name of an entity: an identifier whose case is kept. -/
structure EntityName where
  /-- The characters of the name. -/
  text : String
  /-- The name is an identifier. -/
  valid : isIdentifier text = true
  deriving DecidableEq, Repr

/-- The name of a field: an identifier whose case is kept. -/
structure FieldName where
  /-- The characters of the name. -/
  text : String
  /-- The name is an identifier. -/
  valid : isIdentifier text = true
  deriving DecidableEq, Repr

namespace EntityName

/-- Two names with the same characters are the same. -/
@[ext] theorem ext {left right : EntityName} (h : left.text = right.text) : left = right := by
  cases left; cases right; cases h; rfl

/-- The name with the given characters, refused unless they form an identifier. -/
def ofString (text : String) : Except Defect EntityName :=
  if valid : isIdentifier text = true then .ok ⟨text, valid⟩ else .error (.entityName text)

/-- Every name is accepted again. -/
@[simp] theorem ofString_text (name : EntityName) : ofString name.text = .ok name := by
  simp [ofString, name.valid]

/-- A text that is no identifier is refused. -/
theorem ofString_of_not_isIdentifier {text : String} (h : isIdentifier text = false) :
    ofString text = .error (.entityName text) := by
  simp [ofString, h]

/-- The name in lower case, as it stands in every derived name. -/
def lowercase (name : EntityName) : String := EntitySchema.lowercase name.text

/-- The name of the entity's table: the plural of the lowercased name. -/
def tableName (name : EntityName) : String := pluralize name.lowercase

/-- The name of the column that refers to the entity, as characters. -/
def foreignKeyColumn (name : EntityName) : String := name.lowercase ++ "_id"

theorem isIdentifier_foreignKeyColumn (name : EntityName) :
    isIdentifier name.foreignKeyColumn = true :=
  isIdentifier_append (isIdentifier_lowercase name.valid) (by decide)

end EntityName

namespace FieldName

/-- Two names with the same characters are the same. -/
@[ext] theorem ext {left right : FieldName} (h : left.text = right.text) : left = right := by
  cases left; cases right; cases h; rfl

/-- The name with the given characters, refused unless they form an identifier. -/
def ofString (text : String) : Except Defect FieldName :=
  if valid : isIdentifier text = true then .ok ⟨text, valid⟩ else .error (.fieldName text)

/-- Every name is accepted again. -/
@[simp] theorem ofString_text (name : FieldName) : ofString name.text = .ok name := by
  simp [ofString, name.valid]

/-- A text that is no identifier is refused. -/
theorem ofString_of_not_isIdentifier {text : String} (h : isIdentifier text = false) :
    ofString text = .error (.fieldName text) := by
  simp [ofString, h]

/-- The column that refers to an entity; it needs no check, being an identifier already. -/
def foreignKeyFor (entity : EntityName) : FieldName :=
  ⟨entity.foreignKeyColumn, entity.isIdentifier_foreignKeyColumn⟩

@[simp] theorem text_foreignKeyFor (entity : EntityName) :
    (foreignKeyFor entity).text = entity.lowercase ++ "_id" := rfl

end FieldName

end EntitySchema
