import EntitySchema.Field

/-! # Link tables

A many-to-many relation is stored in a table of its own, with a column for each of the two entities.
Link tables have no timestamps. -/

namespace EntitySchema

/-- The table that stores a many-to-many relation. -/
structure LinkTable where
  /-- The name of the table. -/
  tableName : String
  /-- The entity that declared the relation. -/
  owner : EntityName
  /-- The entity that the relation names. -/
  target : EntityName
  /-- The column that refers to the declaring entity. -/
  ownerColumn : Field
  /-- The column that refers to the named entity. -/
  targetColumn : Field
  deriving DecidableEq, Repr

namespace LinkTable

/-- The link table of two entities; the name puts the related entity first. -/
def between (owner target : EntityName) : LinkTable where
  tableName := target.lowercase ++ "_" ++ owner.lowercase
  owner := owner
  target := target
  ownerColumn := Field.linkColumn (FieldName.foreignKeyFor owner)
  targetColumn := Field.linkColumn (FieldName.foreignKeyFor target)

/-- The two columns, that of the declaring entity first. -/
def fields (link : LinkTable) : List Field := [link.ownerColumn, link.targetColumn]

/-- The link table on one line: its name, its two entities and its two columns. -/
def summary (link : LinkTable) : String :=
  link.tableName ++ " (" ++ link.owner.text ++ " <-> " ++ link.target.text ++ "): "
    ++ link.ownerColumn.summary ++ ", " ++ link.targetColumn.summary

@[simp] theorem owner_between (owner target : EntityName) :
    (between owner target).owner = owner := rfl

@[simp] theorem target_between (owner target : EntityName) :
    (between owner target).target = target := rfl

end LinkTable

end EntitySchema
