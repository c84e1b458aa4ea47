import EntitySchema.Defect
import EntitySchema.Text.Span

/-! # Errors in a source

The first error ends the reading of a source. It has a cause, the number of the line on which it was
found, and the place in the source to which it points. -/

namespace EntitySchema

/-- What is wrong with a source. -/
inductive Cause where
  /-- The text fits no kind of token. -/
  | unknownToken
  /-- A field stands before the first entity. -/
  | orphanField
  /-- The named field has no type. -/
  | missingType (field : String)
  /-- The word is not the keyword of a property. -/
  | unknownProperty (property : String)
  /-- The code of the relation to the named entity is unknown. -/
  | unknownRelation (target code : String)
  /-- An entity that has to carry a column was never declared. -/
  | unresolvedReference (entity column : String)
  /-- An entity declares a field twice. -/
  | duplicateField (entity field : String)
  /-- An entity is declared twice where that is not allowed. -/
  | duplicateEntity (entity : String)
  /-- A value of the model was refused. -/
  | refused (defect : Defect)
  deriving DecidableEq, Repr

/-- The wording of a cause. -/
def Cause.message : Cause → String
  | .unknownToken => "invalid token"
  | .orphanField => "field specified, but no entity declared yet"
  | .missingType field => s!"field type not specified for '{field}'"
  | .unknownProperty property => s!"unknown field property '{property}'"
  | .unknownRelation target code =>
    s!"undefined relation '{code}' for '{target}': expected ho, hm, bt or hmb"
  | .unresolvedReference entity column =>
    s!"entity '{entity}' referenced in a relation (needs '{column}'), but not defined"
  | .duplicateField entity field => s!"duplicate field '{field}' in entity '{entity}'"
  | .duplicateEntity entity => s!"entity '{entity}' is already declared"
  | .refused defect => defect.message

/-- An error in a source. -/
structure SourceError where
  /-- What is wrong. -/
  cause : Cause
  /-- The number of the line on which it was found. -/
  line : Nat
  /-- The text to which it points. -/
  span : Span
  deriving DecidableEq, Repr

namespace SourceError

/-- The wording of an error, without its line. -/
def message (error : SourceError) : String := error.cause.message

/-- The wording of an error, with its line in front. -/
def render (error : SourceError) : String := s!"[Line No. {error.line}] {error.message}"

end SourceError

end EntitySchema
