import EntitySchema.Defect

/-! # Kinds of relation

An entity relates to others in four ways. Each kind has a short code, used in declarations, and a
long name, used in reports. -/

namespace EntitySchema

/-- A way in which the declaring entity relates to another. -/
inductive RelationKind where
  /-- The declaring entity has at most one of the other. -/
  | hasOne
  /-- The declaring entity has any number of the other. -/
  | hasMany
  /-- The declaring entity belongs to one of the other. -/
  | belongsTo
  /-- Any number of each relates to any number of the other. -/
  | hasManyAndBelongsTo
  deriving DecidableEq, Repr

namespace RelationKind

/-- Every kind, in canonical order. -/
def all : List RelationKind := [.hasOne, .hasMany, .belongsTo, .hasManyAndBelongsTo]

/-- The code of a kind in a declaration. -/
def code : RelationKind → String
  | .hasOne => "ho"
  | .hasMany => "hm"
  | .belongsTo => "bt"
  | .hasManyAndBelongsTo => "hmb"

/-- The long name of a kind. -/
def name : RelationKind → String
  | .hasOne => "has_one"
  | .hasMany => "has_many"
  | .belongsTo => "belongs_to"
  | .hasManyAndBelongsTo => "has_many_and_belongs_to"

/-- The kind with exactly the given code. -/
def ofCode? (code : String) : Option RelationKind := all.find? (·.code == code)

/-- The kind with exactly the given code, with the defect of any other text. -/
def ofCode (code : String) : Except Defect RelationKind :=
  match ofCode? code with
  | some kind => .ok kind
  | none => .error (.relationCode code)

/-- The kind with exactly the given long name. -/
def ofName? (name : String) : Option RelationKind := all.find? (·.name == name)

/-- Whether the related entity must carry a column that refers to the declaring one. -/
def needsForeignKey : RelationKind → Bool
  | .hasOne | .hasMany => true
  | .belongsTo | .hasManyAndBelongsTo => false

/-- Every kind is in the canonical list. -/
@[simp] theorem mem_all (kind : RelationKind) : kind ∈ all := by
  cases kind <;> decide

/-- A kind is found by its own code. -/
@[simp] theorem ofCode?_code (kind : RelationKind) : ofCode? kind.code = some kind := by
  cases kind <;> decide

/-- The kind found by a code has that code. -/
theorem code_of_ofCode? {code : String} {kind : RelationKind} (h : ofCode? code = some kind) :
    kind.code = code := by
  simpa using List.find?_some h

/-- A kind is found by its own long name. -/
@[simp] theorem ofName?_name (kind : RelationKind) : ofName? kind.name = some kind := by
  cases kind <;> decide

/-- The kind found by a long name has that name. -/
theorem name_of_ofName? {name : String} {kind : RelationKind} (h : ofName? name = some kind) :
    kind.name = name := by
  simpa using List.find?_some h

end RelationKind

end EntitySchema
