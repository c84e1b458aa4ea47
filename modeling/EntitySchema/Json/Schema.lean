import EntitySchema.Json.Value
import EntitySchema.Schema

/-! # Schemas as JSON

A schema is written as an object. Members that are empty or missing in most schemas are left out:
parameters, rules, the default, and the relations of each kind. Members stand in alphabetical order
of their keys. -/

namespace EntitySchema

/-- A member for a list, left out when the list is empty. -/
def Json.listMember (key : String) (texts : List String) : List (String × Json) :=
  if texts.isEmpty then [] else [(key, .strings texts)]

/-- The key of the member that tells whether a field has a property. -/
def Property.key : Property → String
  | .primary => "primary"
  | .unique => "unique"
  | .nullable => "nullable"
  | .unsigned => "unsigned"
  | .index => "indexed"
  | .fulltext => "fulltext"

/-- The member that tells whether a field has a property. -/
def Field.flagMember (field : Field) (property : Property) : String × Json :=
  (property.key, .bool (field.properties.contains property))

/-- A field as JSON. -/
def Field.toJson (field : Field) : Json :=
  let default := match field.default with
    | some value => [("default", Json.string value)]
    | none => []
  .object <| default
    ++ [field.flagMember .fulltext, field.flagMember .index, ("name", .string field.name.text),
      field.flagMember .nullable, ("origin", .string field.origin.name)]
    ++ Json.listMember "params" field.params
    ++ [field.flagMember .primary, ("type", .string field.type), field.flagMember .unique,
      field.flagMember .unsigned]
    ++ Json.listMember "validation_rules" field.rules

/-- The member for the relations of one kind. -/
def Entity.relationMember (entity : Entity) (kind : RelationKind) : List (String × Json) :=
  Json.listMember kind.name ((entity.related kind).map (·.text))

/-- An entity as JSON. -/
def Entity.toJson (entity : Entity) : Json :=
  .object <| entity.relationMember .belongsTo
    ++ [("fields", .array (entity.fields.map Field.toJson))]
    ++ entity.relationMember .hasMany
    ++ entity.relationMember .hasManyAndBelongsTo
    ++ entity.relationMember .hasOne
    ++ [("name", .string entity.name.text), ("table_name", .string entity.tableName),
      ("timestamps", .bool entity.timestamps)]

/-- A link table as JSON. -/
def LinkTable.toJson (link : LinkTable) : Json :=
  .object [("fields", .array (link.fields.map Field.toJson)), ("from", .string link.owner.text),
    ("table_name", .string link.tableName), ("to", .string link.target.text)]

/-- A schema as JSON. -/
def Schema.toJson (schema : Schema) : Json :=
  .object [("entities", .array (schema.entities.map Entity.toJson)),
    ("links", .array (schema.links.map LinkTable.toJson))]

end EntitySchema
