import EntitySchema.Json.Schema

/-! # Schemas from JSON

A schema is read from an object. Members are read in the order listed, unknown ones are passed over,
and the first that cannot be read is the error. A member that may be left out stands for its empty
value; only the default of a field may be null. An object may also be written as the array of its
members without their keys, in a fixed order, from which members at the end may be missing. -/

namespace EntitySchema

/-- Why a JSON value cannot be read. -/
inductive DecodeError where
  /-- The value does not have the shape that was expected. -/
  | shape
  /-- The value is the text of a name that was refused. -/
  | name (defect : Defect)
  deriving DecidableEq, Repr

namespace Json

/-- Reads a text. -/
def asString : Json → Except DecodeError String
  | .string value => .ok value
  | _ => .error .shape

/-- Reads a truth value. -/
def asBool : Json → Except DecodeError Bool
  | .bool value => .ok value
  | _ => .error .shape

/-- Reads every item of an array. -/
def asList {α : Type} (decode : Json → Except DecodeError α) : Json → Except DecodeError (List α)
  | .array items => items.mapM decode
  | _ => .error .shape

/-- Reads a value that may be null. -/
def asOption {α : Type} (decode : Json → Except DecodeError α) :
    Json → Except DecodeError (Option α)
  | .null => .ok none
  | value => (decode value).map some

/-- Reads a word; it may also be written as an object whose only member has it as key and is null. -/
def asWord {α : Type} (ofWord? : String → Option α) : Json → Except DecodeError α
  | .string word | .object [(word, .null)] =>
    match ofWord? word with
    | some value => .ok value
    | none => .error .shape
  | _ => .error .shape

/-- The members of an object, or of an array whose items stand in the order of the given keys. -/
def members (keys : List String) : Json → Except DecodeError (List (String × Json))
  | .object members => .ok members
  | .array items => .ok (keys.zip items)
  | _ => .error .shape

/-- Whether a value is not an array with more items than there are keys. -/
def fits (keys : List String) : Json → Bool
  | .array items => items.length ≤ keys.length
  | _ => true

/-- Reads the members of a value one after the other; `decode` passes over those it does not know. -/
def decodeMembers {α : Type} (keys : List String)
    (decode : String → Json → Except DecodeError (Option α)) (value : Json) :
    Except DecodeError (List α) := do
  let members ← value.members keys
  let parts ← members.mapM fun member => decode member.1 member.2
  if value.fits keys then return parts.filterMap id else throw .shape

/-- The first part of a kind, for a member that must be present. -/
def require {α β : Type} (select : α → Option β) (parts : List α) : Except DecodeError β :=
  match parts.findSome? select with
  | some value => .ok value
  | none => .error .shape

/-- The first part of a kind, for a member that may be left out. -/
def optional {α β : Type} (select : α → Option β) (absent : β) (parts : List α) : β :=
  (parts.findSome? select).getD absent

end Json

/-- Reads the name of an entity. -/
def EntityName.ofJson (value : Json) : Except DecodeError EntityName := do
  (ofString (← value.asString)).mapError .name

/-- Reads the name of a field. -/
def FieldName.ofJson (value : Json) : Except DecodeError FieldName := do
  (ofString (← value.asString)).mapError .name

namespace Field

/-- A member of a field, read. -/
inductive Part where
  /-- The name. -/
  | name (value : FieldName)
  /-- The type. -/
  | type (value : String)
  /-- The parameters. -/
  | params (value : List String)
  /-- Whether the field has a property. -/
  | flag (property : Property) (present : Bool)
  /-- The default. -/
  | default (value : Option String)
  /-- The validation rules. -/
  | rules (value : List String)
  /-- The origin. -/
  | origin (value : Origin)

/-- The keys of a field, in the order in which an array lists their members. -/
def keys : List String :=
  ["name", "type", "params", "nullable", "primary", "unique", "indexed", "fulltext", "unsigned",
    "default", "validation_rules", "origin"]

/-- Reads one member of a field. -/
def decodePart (key : String) (value : Json) : Except DecodeError (Option Part) :=
  match key with
  | "name" => return some (.name (← FieldName.ofJson value))
  | "type" => return some (.type (← value.asString))
  | "params" => return some (.params (← value.asList Json.asString))
  | "default" => return some (.default (← value.asOption Json.asString))
  | "validation_rules" => return some (.rules (← value.asList Json.asString))
  | "origin" => return some (.origin (← value.asWord Origin.ofName?))
  | _ =>
    match Property.all.find? (·.key == key) with
    | some property => return some (.flag property (← value.asBool))
    | none => return none

/-- The properties that the read members give a field. -/
def partProperties (parts : List Part) : PropertySet :=
  Property.all.foldl (fun properties property =>
    properties.set property (Json.optional (fun
      | .flag other present => if other = property then some present else none
      | _ => none) false parts)) .empty

/-- Reads a field. -/
def ofJson (value : Json) : Except DecodeError Field := do
  let parts ← value.decodeMembers keys decodePart
  let name ← Json.require (fun | .name value => some value | _ => none) parts
  let type ← Json.require (fun | .type value => some value | _ => none) parts
  return {
    name
    type
    params := Json.optional (fun | .params value => some value | _ => none) [] parts
    properties := partProperties parts
    default := Json.optional (fun | .default value => some value | _ => none) none parts
    rules := Json.optional (fun | .rules value => some value | _ => none) [] parts
    origin := Json.optional (fun | .origin value => some value | _ => none) .declared parts }

end Field

namespace Entity

/-- A member of an entity, read. -/
inductive Part where
  /-- The name. -/
  | name (value : EntityName)
  /-- The name of the table. -/
  | tableName (value : String)
  /-- The fields. -/
  | fields (value : List Field)
  /-- Whether the entity has timestamps. -/
  | timestamps (value : Bool)
  /-- The relations of one kind. -/
  | related (kind : RelationKind) (value : List EntityName)

/-- The keys of an entity, in the order in which an array lists their members. -/
def keys : List String :=
  ["name", "table_name", "fields", "timestamps", "belongs_to", "has_one", "has_many",
    "has_many_and_belongs_to"]

/-- Reads one member of an entity. -/
def decodePart (key : String) (value : Json) : Except DecodeError (Option Part) :=
  match key with
  | "name" => return some (.name (← EntityName.ofJson value))
  | "table_name" => return some (.tableName (← value.asString))
  | "fields" => return some (.fields (← value.asList Field.ofJson))
  | "timestamps" => return some (.timestamps (← value.asBool))
  | _ =>
    match RelationKind.ofName? key with
    | some kind => return some (.related kind (← value.asList EntityName.ofJson))
    | none => return none

/-- The relations of one kind that the read members give an entity. -/
def partRelated (kind : RelationKind) (parts : List Part) : List EntityName :=
  Json.optional (fun
    | .related other value => if other = kind then some value else none
    | _ => none) [] parts

/-- Reads an entity. -/
def ofJson (value : Json) : Except DecodeError Entity := do
  let parts ← value.decodeMembers keys decodePart
  let name ← Json.require (fun | .name value => some value | _ => none) parts
  let tableName ← Json.require (fun | .tableName value => some value | _ => none) parts
  return {
    name
    tableName
    fields := Json.optional (fun | .fields value => some value | _ => none) [] parts
    timestamps := Json.optional (fun | .timestamps value => some value | _ => none) false parts
    hasOne := partRelated .hasOne parts
    hasMany := partRelated .hasMany parts
    belongsTo := partRelated .belongsTo parts
    hasManyAndBelongsTo := partRelated .hasManyAndBelongsTo parts }

end Entity

namespace LinkTable

/-- A member of a link table, read. -/
inductive Part where
  /-- The name of the table. -/
  | tableName (value : String)
  /-- The declaring entity. -/
  | owner (value : EntityName)
  /-- The related entity. -/
  | target (value : EntityName)
  /-- The two columns. -/
  | columns (owner target : Field)

/-- The keys of a link table, in the order in which an array lists their members. -/
def keys : List String := ["table_name", "from", "to", "fields"]

/-- Reads an array of exactly two fields. -/
def decodeColumns : Json → Except DecodeError Part
  | .array (first :: second :: rest) => do
    let owner ← Field.ofJson first
    let target ← Field.ofJson second
    if rest.isEmpty then return .columns owner target else throw .shape
  | .array [single] => do
    let _ ← Field.ofJson single
    throw .shape
  | _ => .error .shape

/-- Reads one member of a link table. -/
def decodePart (key : String) (value : Json) : Except DecodeError (Option Part) :=
  match key with
  | "table_name" => return some (.tableName (← value.asString))
  | "from" => return some (.owner (← EntityName.ofJson value))
  | "to" => return some (.target (← EntityName.ofJson value))
  | "fields" => return some (← decodeColumns value)
  | _ => return none

/-- Reads a link table. -/
def ofJson (value : Json) : Except DecodeError LinkTable := do
  let parts ← value.decodeMembers keys decodePart
  let tableName ← Json.require (fun | .tableName value => some value | _ => none) parts
  let owner ← Json.require (fun | .owner value => some value | _ => none) parts
  let target ← Json.require (fun | .target value => some value | _ => none) parts
  let (ownerColumn, targetColumn) ←
    Json.require (fun | .columns owner target => some (owner, target) | _ => none) parts
  return { tableName, owner, target, ownerColumn, targetColumn }

end LinkTable

namespace Schema

/-- A member of a schema, read. -/
inductive Part where
  /-- The entities. -/
  | entities (value : List Entity)
  /-- The link tables. -/
  | links (value : List LinkTable)

/-- The keys of a schema, in the order in which an array lists their members. -/
def keys : List String := ["entities", "links"]

/-- Reads one member of a schema. -/
def decodePart (key : String) (value : Json) : Except DecodeError (Option Part) :=
  match key with
  | "entities" => return some (.entities (← value.asList Entity.ofJson))
  | "links" => return some (.links (← value.asList LinkTable.ofJson))
  | _ => return none

/-- Reads a schema. -/
def ofJson (value : Json) : Except DecodeError Schema := do
  let parts ← value.decodeMembers keys decodePart
  let entities ← Json.require (fun | .entities value => some value | _ => none) parts
  return {
    entities
    links := Json.optional (fun | .links value => some value | _ => none) [] parts }

end Schema

end EntitySchema
