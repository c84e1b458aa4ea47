import EntitySchema.Report.Style
import EntitySchema.Schema

/-! # Schemas for readers

The outline of a schema has a block for each entity and one for the link tables. Columns that other
entities asked for are marked. -/

namespace EntitySchema

/-- The line of a field in an outline. -/
def Field.outline (field : Field) : String :=
  let mark := if field.origin = .foreignKey then " (foreign key)" else ""
  "    " ++ field.summary ++ mark ++ "\n"

/-- The line for the relations of an entity in an outline, left out when there are none. -/
def Entity.relationsOutline (entity : Entity) : String :=
  let relations := entity.relations.map fun relation => relation.1.name ++ " " ++ relation.2.text
  if relations.isEmpty then "" else "  " ++ ", ".intercalate relations ++ "\n"

/-- The block of an entity in an outline, with the empty line after it. -/
def Entity.outline (style : Style) (entity : Entity) : String :=
  let timestamps := if entity.timestamps then "    timestamps\n" else ""
  style.heading (entity.name.text ++ " (" ++ entity.tableName ++ ")") ++ "\n"
    ++ entity.relationsOutline ++ String.join (entity.fields.map Field.outline)
    ++ timestamps ++ "\n"

/-- The outline of a schema. -/
def Schema.outline (style : Style) (schema : Schema) : String :=
  let links :=
    if schema.links.isEmpty then ""
    else
      style.heading "link tables" ++ "\n"
        ++ String.join (schema.links.map fun link => "    " ++ link.summary ++ "\n")
  String.join (schema.entities.map (Entity.outline style)) ++ links

end EntitySchema
