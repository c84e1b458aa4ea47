import EntitySchema.Declarations.EntityTable
import EntitySchema.Declarations.PendingColumns
import EntitySchema.Schema
import EntitySchema.Source.Error
import EntitySchema.Source.Line

/-! # Declarations and their resolution

Declarations are what was collected from a source before relations are resolved. Resolution grants
every pending column: targets in the order of registration, each receiving those of its columns that
it does not have already, after its own fields. A target that was never declared is an error at the
end of the source. -/

namespace EntitySchema

/-- What was collected from a source. -/
structure Declarations where
  /-- The entities. -/
  entities : EntityTable := {}
  /-- The columns that relations ask for. -/
  pending : PendingColumns := {}
  /-- The link tables, in the order of their relations. -/
  links : List LinkTable := []
  deriving DecidableEq, Repr

namespace Declarations

/-- Nothing was declared. -/
def empty : Declarations := {}

/-- The entity with a foreign key for the column, or the same entity when it has the column. -/
def grant (entity : Entity) (column : FieldName) : Entity :=
  if entity.hasField column then entity else entity.addField (.foreignKey column)

/-- Grants the columns of one target. -/
def grantAll (finish : EndOfSource) (table : EntityTable) (entry : EntityName × List FieldName) :
    Except SourceError EntityTable :=
  let (target, columns) := entry
  if table.contains target.text then
    .ok (table.modify target.text fun entity => columns.foldl grant entity)
  else
    let column := (columns.head?.map (·.text)).getD ""
    .error ⟨.unresolvedReference target.text column, finish.line, .emptyAt finish.offset⟩

/-- The schema of declarations whose source ends at the given place. -/
def resolve (declarations : Declarations) (finish : EndOfSource) : Except SourceError Schema :=
  match declarations.pending.entries.foldlM (grantAll finish) declarations.entities with
  | .ok table => .ok ⟨table.toList, declarations.links⟩
  | .error error => .error error

end Declarations

end EntitySchema
