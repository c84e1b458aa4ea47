/-! # What keeps a value out of the model

Names, types, properties and relation codes are checked when a value of the model is built. A
*defect* is the reason for refusing one, with the text that was refused. -/

namespace EntitySchema

/-- A reason for refusing a name, a type or a keyword. -/
inductive Defect where
  /-- The name of an entity is not an identifier. -/
  | entityName (text : String)
  /-- The name of a field is not an identifier. -/
  | fieldName (text : String)
  /-- The type of the named field is empty. -/
  | emptyType (field : String)
  /-- The word is not the keyword of a field property. -/
  | property (word : String)
  /-- The word is not the code of a relation. -/
  | relationCode (code : String)
  deriving DecidableEq, Repr

/-- The wording of a defect. -/
def Defect.message : Defect → String
  | .entityName text => s!"invalid entity name '{text}': must be an identifier [A-Za-z0-9_]+"
  | .fieldName text => s!"invalid field name '{text}': must be an identifier [A-Za-z0-9_]+"
  | .emptyType field => s!"field '{field}' has an empty type"
  | .property word => s!"unknown field property '{word}'"
  | .relationCode code => s!"unknown relation code '{code}'"

end EntitySchema
