import EntitySchema.Field.Property
import EntitySchema.Name

/-! # Fields

A field is one column of a table: its name, its type with parameters, its properties, its validation
rules, and where it came from. -/

namespace EntitySchema

/-- Where a field came from. -/
inductive Origin where
  /-- It was written on a line of its own. -/
  | declared
  /-- It was added to satisfy a relation of another entity. -/
  | foreignKey
  /-- It is one of the two columns of a link table. -/
  | link
  deriving DecidableEq, Repr

namespace Origin

/-- Every origin. -/
def all : List Origin := [.declared, .foreignKey, .link]

/-- The word for an origin. -/
def name : Origin → String
  | .declared => "declared"
  | .foreignKey => "foreign_key"
  | .link => "link"

/-- The origin with exactly the given word. -/
def ofName? (name : String) : Option Origin := all.find? (·.name == name)

/-- An origin is found by its own word. -/
@[simp] theorem ofName?_name (origin : Origin) : ofName? origin.name = some origin := by
  cases origin <;> decide

end Origin

/-- One column of a table. -/
structure Field where
  /-- The name of the column. -/
  name : FieldName
  /-- The type, an opaque word such as `string` or `decimal`. -/
  type : String
  /-- The parameters of the type, exactly as written. -/
  params : List String := []
  /-- The properties of the column. -/
  properties : PropertySet := {}
  /-- The default value, when there is one. -/
  default : Option String := none
  /-- The validation rules, in the order written. -/
  rules : List String := []
  /-- Where the field came from. -/
  origin : Origin := .declared
  deriving DecidableEq, Repr

namespace Field

/-- The type of the columns that refer to other tables. -/
def integerType : String := "integer"

/-- A declared field of the given type, refused when the type is empty. -/
def declare (name : FieldName) (type : String) : Except Defect Field :=
  if type.isEmpty then .error (.emptyType name.text) else .ok { name, type }

/-- The integer column that a relation of another entity asks for. -/
def foreignKey (name : FieldName) : Field := { name, type := integerType, origin := .foreignKey }

/-- An integer column of a link table. -/
def linkColumn (name : FieldName) : Field := { name, type := integerType, origin := .link }

/-- Whether a field was written in the source. -/
def isDeclared (field : Field) : Bool := field.origin == .declared

/-- The field on one line: name, type, parameters, properties, default and rules. -/
def summary (field : Field) : String :=
  let params := if field.params.isEmpty then "" else "(" ++ ", ".intercalate field.params ++ ")"
  let properties := String.join (field.properties.toList.map fun property => " " ++ property.keyword)
  let default := match field.default with
    | some value => " default(" ++ value ++ ")"
    | none => ""
  let rules := if field.rules.isEmpty then "" else " [" ++ "|".intercalate field.rules ++ "]"
  field.name.text ++ ": " ++ field.type ++ params ++ properties ++ default ++ rules

@[simp] theorem name_foreignKey (name : FieldName) : (foreignKey name).name = name := rfl

@[simp] theorem isDeclared_foreignKey (name : FieldName) :
    (foreignKey name).isDeclared = false := rfl

@[simp] theorem isDeclared_linkColumn (name : FieldName) :
    (linkColumn name).isDeclared = false := rfl

end Field

end EntitySchema
