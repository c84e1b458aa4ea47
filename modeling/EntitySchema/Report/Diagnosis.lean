import EntitySchema.Source.Error

/-! # Diagnoses

A diagnosis tells a reader what to do about an error in a source: the message, the place to
underline with a label for it, and a piece of advice. -/

namespace EntitySchema

/-- What to tell a reader about an error. -/
structure Diagnosis where
  /-- The wording of the error, with its line. -/
  message : String
  /-- The label of the underlined text. -/
  label : String
  /-- The offset of the underlined text. -/
  offset : Nat
  /-- The length of the underlined text in bytes. -/
  length : Nat
  /-- What to do about the error. -/
  advice : String
  deriving DecidableEq, Repr

/-- The label for the text to which an error of this cause points. -/
def Cause.label : Cause → String
  | .unknownToken => "unrecognized text"
  | .orphanField => "indented line outside an entity"
  | .missingType _ => "expected name:type"
  | .unknownProperty _ => "unknown property"
  | .unknownRelation _ _ => "unknown relation code"
  | .unresolvedReference _ _ => "input ended here"
  | .duplicateField _ _ => "already defined above"
  | .duplicateEntity _ => "already declared above"
  | .refused _ => "invalid name"

/-- What to do about an error of this cause. -/
def Cause.advice : Cause → String
  | .unknownToken => "Check for typos or unsupported characters."
  | .orphanField => "Declare an entity on a line with no leading whitespace before its fields."
  | .missingType field => s!"Add a type, e.g. '{field}:string'."
  | .unknownProperty _ => "Properties are nullable, fulltext, index, primary, unique and unsigned."
  | .unknownRelation target code =>
    if code.isEmpty then s!"Add a relation code, e.g. '{target}:hm'."
    else "Use ho (has one), hm (has many), bt (belongs to) or hmb (many to many)."
  | .unresolvedReference entity _ => s!"Declare '{entity}' on its own line."
  | .duplicateField _ _ => "Remove the duplicate or rename one of the fields."
  | .duplicateEntity _ => "Merge the two declarations or rename one of the entities."
  | .refused _ => "Names may only contain letters, digits and underscores."

/-- The diagnosis of an error. -/
def SourceError.diagnosis (error : SourceError) : Diagnosis where
  message := error.render
  label := error.cause.label
  offset := error.span.start
  length := error.span.length
  advice := error.cause.advice

end EntitySchema
