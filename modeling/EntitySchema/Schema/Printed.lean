import EntitySchema.Schema
import EntitySchema.Source.FieldLine

/-! # The printed form of a schema

A schema is printed in the notation from which it is read. Columns that other entities asked for and
link tables are left out, since reading the text brings them back. Entities are separated by an
empty line, and the relations of an entity are grouped by kind. -/

namespace EntitySchema

/-- The spaces before a field. -/
def indent : String := "    "

/-- A field as written on its line, without the indent. -/
def Field.printed (field : Field) : String :=
  let params := String.join (field.params.map ("," ++ ·))
  let properties := String.join (field.properties.toList.map (":" ++ ·.keyword))
  let rules :=
    if field.rules.isEmpty then ""
    else " -> " ++ (String.singleton ruleSeparator).intercalate field.rules
  field.name.text ++ ":" ++ field.type ++ params ++ properties ++ rules

/-- An entity as written: its header, its declared fields and its timestamps, a line each. -/
def Entity.printed (entity : Entity) : String :=
  let relations := String.join (entity.relations.map fun relation =>
    " " ++ relation.2.text ++ ":" ++ relation.1.code)
  let fields := String.join ((entity.fields.filter Field.isDeclared).map fun field =>
    indent ++ field.printed ++ "\n")
  let timestamps := if entity.timestamps then indent ++ timestampsWord ++ "\n" else ""
  entity.name.text ++ relations ++ "\n" ++ fields ++ timestamps

/-- The text of a schema: its entities, separated by empty lines. -/
def Schema.printed (schema : Schema) : String :=
  "\n".intercalate (schema.entities.map Entity.printed)

end EntitySchema
