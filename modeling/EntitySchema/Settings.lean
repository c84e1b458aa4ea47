import EntitySchema.Reading
import EntitySchema.Toml.Document

/-! # Settings

Settings come from a TOML document. The table `parse` has the policy for repeated entities, the table
`log` the level of the log; either may be missing, and other keys are passed over. A table with
settings may also be written as the list of its values, and the word of a policy as a table whose
only key it is, with an empty value. A date or a time counts as a table whose only member is itself,
so in place of a table of settings it leaves all of them missing. -/

namespace EntitySchema

/-- The settings of a run. -/
structure Settings where
  /-- What happens to an entity that is declared twice. -/
  duplicates : DuplicatePolicy := .replace
  /-- The level of the log, when one is set. -/
  logLevel : Option String := none
  deriving DecidableEq, Repr

namespace Settings

/-- Whether a value is an empty list or table. -/
def isEmptyValue : Toml → Bool
  | .array items => items.isEmpty
  | .tables items => items.isEmpty
  | .table _ members => members.isEmpty
  | _ => false

/-- The policy that a value names. -/
def policyOf? : Toml → Option DuplicatePolicy
  | .string word => DuplicatePolicy.ofName? word
  | .table _ [(word, value)] => if isEmptyValue value then DuplicatePolicy.ofName? word else none
  | _ => none

/-- The text that a value is. -/
def textOf? : Toml → Option String
  | .string text => some text
  | _ => none

/-- Reads the setting of a table that has only one, or the value for a setting that is missing. -/
def readOnly {α : Type} (key : String) (absent : α) (read : Toml → Option α) : Toml → Option α
  | .table _ members =>
    match members.lookup key with
    | some value => read value
    | none => some absent
  | .array [] => some absent
  | .array (first :: _) => read first
  | .tables [] => some absent
  | .tables (first :: _) => read (.table .header first)
  | .datetime _ => some absent
  | _ => none

/-- Reads a table of settings that may be missing as a whole. -/
def section? {α : Type} (name key : String) (absent : α) (read : Toml → Option α)
    (document : Toml.Members) : Option α :=
  match document.lookup name with
  | some value => readOnly key absent read value
  | none => some absent

/-- Reads the settings of a document. -/
def ofDocument (document : Toml.Members) : Option Settings := do
  let duplicates ← section? "parse" "duplicate_entities" .replace policyOf? document
  let logLevel ← section? "log" "level" none (fun value => (textOf? value).map some) document
  return { duplicates, logLevel }

/-- Reads settings from the text of a document. -/
def ofText (text : String) : Option Settings := (Toml.parse text.toList).bind ofDocument

end Settings

end EntitySchema
