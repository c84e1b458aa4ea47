import EntitySchema.Entity
import EntitySchema.LinkTable

/-! # Schemas

A schema is what a source declares once every relation is resolved: the entities in the order of
their first declaration, and the link tables in the order of their relations. -/

namespace EntitySchema

/-- A resolved set of entities and link tables. -/
structure Schema where
  /-- The entities, in the order of their first declaration. -/
  entities : List Entity
  /-- The link tables, in the order of their relations. -/
  links : List LinkTable := []
  deriving DecidableEq, Repr

namespace Schema

/-- The first entity with exactly the given name. -/
def entity? (schema : Schema) (name : String) : Option Entity :=
  schema.entities.find? (·.name.text == name)

/-- The first link table with exactly the given table name. -/
def link? (schema : Schema) (tableName : String) : Option LinkTable :=
  schema.links.find? (·.tableName == tableName)

/-- The names of the entities, in order. -/
def entityNames (schema : Schema) : List String := schema.entities.map (·.name.text)

/-- Whether a schema has neither entities nor link tables. -/
def isEmpty (schema : Schema) : Bool := schema.entities.isEmpty && schema.links.isEmpty

end Schema

end EntitySchema
