import EntitySchema.Schema

/-! # Schemas as rows

A schema is written as rows of tab-separated columns, one row per line. The first column tells what
the row is about: an entity, one of its fields, one of its relations, or a link table. -/

namespace EntitySchema

/-- The columns of one row. -/
abbrev Row := List String

/-- A row as a line of text. -/
def Row.render (row : Row) : String := "\t".intercalate row ++ "\n"

/-- The row of an entity. -/
def Entity.headRow (entity : Entity) : Row :=
  ["entity", entity.name.text, entity.tableName, toString entity.fields.length,
    if entity.timestamps then "true" else "false"]

/-- The row of a field of the named entity. -/
def Field.row (entity : EntityName) (field : Field) : Row :=
  ["field", entity.text, field.name.text, field.type, field.origin.name]

/-- The row of a relation of the named entity. -/
def relationRow (entity : EntityName) (relation : RelationKind × EntityName) : Row :=
  ["relation", entity.text, relation.1.name, relation.2.text]

/-- The rows of an entity, its fields and its relations. -/
def Entity.rows (entity : Entity) : List Row :=
  entity.headRow :: (entity.fields.map (Field.row entity.name)
    ++ entity.relations.map (relationRow entity.name))

/-- The row of a link table. -/
def LinkTable.row (link : LinkTable) : Row :=
  ["link", link.tableName, link.owner.text, link.target.text]

/-- The rows of a schema, entity by entity, then the link tables. -/
def Schema.rows (schema : Schema) : List Row :=
  schema.entities.flatMap Entity.rows ++ schema.links.map LinkTable.row

/-- The rows of a schema as text. -/
def Schema.renderRows (schema : Schema) : String := String.join (schema.rows.map Row.render)

end EntitySchema
