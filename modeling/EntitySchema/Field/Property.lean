import EntitySchema.Defect

/-! # Field properties

A field can carry six properties, each written as a keyword. A set of properties is a flag per
property, so adding one twice changes nothing and the order of adding is forgotten; lists of
properties are given in one canonical order. -/

namespace EntitySchema

/-- A property of a field. -/
inductive Property where
  /-- The field is part of the primary key. -/
  | primary
  /-- No two rows share a value. -/
  | unique
  /-- The value may be missing. -/
  | nullable
  /-- The number has no sign. -/
  | unsigned
  /-- The field is indexed. -/
  | index
  /-- The field is indexed for text search. -/
  | fulltext
  deriving DecidableEq, Repr

namespace Property

/-- Every property, in canonical order. -/
def all : List Property := [.primary, .unique, .nullable, .unsigned, .index, .fulltext]

/-- The keyword of a property. -/
def keyword : Property → String
  | .primary => "primary"
  | .unique => "unique"
  | .nullable => "nullable"
  | .unsigned => "unsigned"
  | .index => "index"
  | .fulltext => "fulltext"

/-- The property with exactly the given keyword. -/
def ofKeyword? (word : String) : Option Property := all.find? (·.keyword == word)

/-- The property with exactly the given keyword, with the defect of any other word. -/
def ofKeyword (word : String) : Except Defect Property :=
  match ofKeyword? word with
  | some property => .ok property
  | none => .error (.property word)

/-- Every property is in the canonical list. -/
@[simp] theorem mem_all (property : Property) : property ∈ all := by
  cases property <;> decide

/-- A property is found by its own keyword. -/
@[simp] theorem ofKeyword?_keyword (property : Property) :
    ofKeyword? property.keyword = some property := by
  cases property <;> decide

/-- The property found by a word has that word as its keyword. -/
theorem keyword_of_ofKeyword? {word : String} {property : Property}
    (h : ofKeyword? word = some property) : property.keyword = word := by
  simpa using List.find?_some h

end Property

/-- A set of field properties, as a flag for each. -/
structure PropertySet where
  /-- Whether the set has `primary`. -/
  primary : Bool := false
  /-- Whether the set has `unique`. -/
  unique : Bool := false
  /-- Whether the set has `nullable`. -/
  nullable : Bool := false
  /-- Whether the set has `unsigned`. -/
  unsigned : Bool := false
  /-- Whether the set has `index`. -/
  index : Bool := false
  /-- Whether the set has `fulltext`. -/
  fulltext : Bool := false
  deriving DecidableEq, Repr

namespace PropertySet

/-- The set of no property. -/
def empty : PropertySet := {}

/-- Whether a property is in the set. -/
def contains (set : PropertySet) : Property → Bool
  | .primary => set.primary
  | .unique => set.unique
  | .nullable => set.nullable
  | .unsigned => set.unsigned
  | .index => set.index
  | .fulltext => set.fulltext

/-- The set in which a property is present or absent as told, and every other as before. -/
def set (properties : PropertySet) (property : Property) (present : Bool) : PropertySet :=
  match property with
  | .primary => { properties with primary := present }
  | .unique => { properties with unique := present }
  | .nullable => { properties with nullable := present }
  | .unsigned => { properties with unsigned := present }
  | .index => { properties with index := present }
  | .fulltext => { properties with fulltext := present }

/-- The set with a property added. -/
def insert (properties : PropertySet) (property : Property) : PropertySet :=
  properties.set property true

/-- The properties of a set, in canonical order. -/
def toList (properties : PropertySet) : List Property :=
  Property.all.filter properties.contains

@[simp] theorem contains_empty (property : Property) : empty.contains property = false := by
  cases property <;> rfl

/-- Setting one property decides it and leaves every other as it was. -/
theorem contains_set (properties : PropertySet) (property other : Property) (present : Bool) :
    (properties.set property present).contains other
      = if other = property then present else properties.contains other := by
  cases property <;> cases other <;> rfl

/-- Adding a property makes it present and leaves every other as it was. -/
theorem contains_insert (properties : PropertySet) (property other : Property) :
    (properties.insert property).contains other
      = if other = property then true else properties.contains other :=
  contains_set properties property other true

/-- The list of a set holds exactly the properties in the set. -/
@[simp] theorem mem_toList {properties : PropertySet} {property : Property} :
    property ∈ properties.toList ↔ properties.contains property = true := by
  simp [toList]

/-- Sets with the same members are equal. -/
theorem ext_contains {left right : PropertySet}
    (h : ∀ property, left.contains property = right.contains property) : left = right := by
  cases left; cases right
  have hp := h .primary
  have hu := h .unique
  have hn := h .nullable
  have hs := h .unsigned
  have hi := h .index
  have hf := h .fulltext
  simp_all [contains]

end PropertySet

end EntitySchema
