import EntitySchema.Field
import EntitySchema.Relation

/-! # Entities

An entity is a table with its fields and its relations to other entities. Fields keep the order in
which they were added; relations keep their order within each kind, repeats included. -/

namespace EntitySchema

/-- A table with its fields and relations. -/
structure Entity where
  /-- The name of the entity. -/
  name : EntityName
  /-- The name of its table. -/
  tableName : String
  /-- The fields, in the order added. -/
  fields : List Field := []
  /-- Whether the table records when a row was created and changed. -/
  timestamps : Bool := false
  /-- The entities of which it has one. -/
  hasOne : List EntityName := []
  /-- The entities of which it has many. -/
  hasMany : List EntityName := []
  /-- The entities to which it belongs. -/
  belongsTo : List EntityName := []
  /-- The entities to which it relates through a link table. -/
  hasManyAndBelongsTo : List EntityName := []
  deriving DecidableEq, Repr

namespace Entity

/-- The entity without fields or relations; the name of its table is derived. -/
def named (name : EntityName) : Entity := { name, tableName := name.tableName }

/-- The first field with the given name. -/
def field? (entity : Entity) (name : String) : Option Field :=
  entity.fields.find? (·.name.text == name)

/-- Whether some field has the given name. -/
def hasField (entity : Entity) (name : FieldName) : Bool :=
  entity.fields.any (·.name == name)

/-- The entity with a field added after all others. -/
def addField (entity : Entity) (field : Field) : Entity :=
  { entity with fields := entity.fields ++ [field] }

/-- The entity with timestamps. -/
def withTimestamps (entity : Entity) : Entity := { entity with timestamps := true }

/-- The entities related in one way, in the order added. -/
def related (entity : Entity) : RelationKind → List EntityName
  | .hasOne => entity.hasOne
  | .hasMany => entity.hasMany
  | .belongsTo => entity.belongsTo
  | .hasManyAndBelongsTo => entity.hasManyAndBelongsTo

/-- The entity with a relation added after all others of its kind. -/
def addRelation (entity : Entity) (kind : RelationKind) (target : EntityName) : Entity :=
  match kind with
  | .hasOne => { entity with hasOne := entity.hasOne ++ [target] }
  | .hasMany => { entity with hasMany := entity.hasMany ++ [target] }
  | .belongsTo => { entity with belongsTo := entity.belongsTo ++ [target] }
  | .hasManyAndBelongsTo =>
    { entity with hasManyAndBelongsTo := entity.hasManyAndBelongsTo ++ [target] }

/-- Every relation, grouped by kind in canonical order. -/
def relations (entity : Entity) : List (RelationKind × EntityName) :=
  RelationKind.all.flatMap fun kind => (entity.related kind).map fun target => (kind, target)

/-- The entity in full: a line for its name, table and relations, then a line per field. -/
def summary (entity : Entity) : String :=
  let relations := String.join (entity.relations.map fun relation =>
    " " ++ relation.1.name ++ " " ++ relation.2.text)
  let fields := String.join (entity.fields.map fun field => "  " ++ field.summary ++ "\n")
  let timestamps := if entity.timestamps then "  timestamps\n" else ""
  entity.name.text ++ " (" ++ entity.tableName ++ ")" ++ relations ++ "\n" ++ fields ++ timestamps

@[simp] theorem name_addField (entity : Entity) (field : Field) :
    (entity.addField field).name = entity.name := rfl

@[simp] theorem fields_addField (entity : Entity) (field : Field) :
    (entity.addField field).fields = entity.fields ++ [field] := rfl

@[simp] theorem name_withTimestamps (entity : Entity) :
    entity.withTimestamps.name = entity.name := rfl

@[simp] theorem fields_withTimestamps (entity : Entity) :
    entity.withTimestamps.fields = entity.fields := rfl

@[simp] theorem name_addRelation (entity : Entity) (kind : RelationKind) (target : EntityName) :
    (entity.addRelation kind target).name = entity.name := by
  cases kind <;> rfl

@[simp] theorem fields_addRelation (entity : Entity) (kind : RelationKind) (target : EntityName) :
    (entity.addRelation kind target).fields = entity.fields := by
  cases kind <;> rfl

@[simp] theorem tableName_addRelation (entity : Entity) (kind : RelationKind)
    (target : EntityName) : (entity.addRelation kind target).tableName = entity.tableName := by
  cases kind <;> rfl

@[simp] theorem timestamps_addRelation (entity : Entity) (kind : RelationKind)
    (target : EntityName) : (entity.addRelation kind target).timestamps = entity.timestamps := by
  cases kind <;> rfl

/-- A new relation goes to the end of its kind; the other kinds stay as they were. -/
theorem related_addRelation (entity : Entity) (kind other : RelationKind) (target : EntityName) :
    (entity.addRelation kind target).related other
      = if other = kind then entity.related other ++ [target] else entity.related other := by
  cases kind <;> cases other <;> rfl

/-- Entities are the same when they have the same relations of every kind and agree in all else. -/
theorem ext_related {entity other : Entity} (name : entity.name = other.name)
    (tableName : entity.tableName = other.tableName) (fields : entity.fields = other.fields)
    (timestamps : entity.timestamps = other.timestamps)
    (related : ∀ kind, entity.related kind = other.related kind) : entity = other := by
  cases entity
  cases other
  rw [mk.injEq]
  exact ⟨name, tableName, fields, timestamps, related .hasOne, related .hasMany,
    related .belongsTo, related .hasManyAndBelongsTo⟩

/-- A field is present exactly when its name is among the names of the fields. -/
theorem hasField_iff {entity : Entity} {name : FieldName} :
    entity.hasField name = true ↔ name ∈ entity.fields.map (·.name) := by
  simp [hasField]

end Entity

end EntitySchema
