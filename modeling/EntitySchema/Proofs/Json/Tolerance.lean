import EntitySchema.Proofs.Json.Loosening

/-! # What a schema in JSON may leave out

Fields, entities, link tables and schemas are read from objects that may have more members than are
known. All members of a field but its name and its type may be left out when they hold their
defaults, and so may those of an entity but its two names, and the link tables of a schema; all
members of a link table are needed. -/

namespace EntitySchema

open Json

/-! ## Fields -/

namespace Field

/-- The members of a field that may be left out, with their defaults. -/
def defaults : List (String × Json) :=
  Property.all.map (fun property => (property.key, Json.bool false)) ++
    [("params", .array []), ("default", .null), ("validation_rules", .array []),
      ("origin", .string "declared")]

/-- The key of a member that was read. -/
def Part.key : Part → String
  | .name _ => "name"
  | .type _ => "type"
  | .params _ => "params"
  | .flag property _ => property.key
  | .default _ => "default"
  | .rules _ => "validation_rules"
  | .origin _ => "origin"

/-- Whether a member that was read holds its default. -/
def Part.IsDefault : Part → Prop
  | .name _ | .type _ => False
  | .params value => value = []
  | .flag _ present => present = false
  | .default value => value = none
  | .rules value => value = []
  | .origin value => value = .declared

/-- Whether a field in JSON becomes another when unknown members are added and defaults left out. -/
def Loosened : Json → Json → Prop := ObjectLoosened keys defaults fun _ _ _ => False

/-- The member for a property is read as the flag of that property. -/
theorem decodePart_key (property : Property) (value : Json) :
    decodePart property.key value =
      value.asBool >>= fun present => .ok (some (.flag property present)) := by
  cases property <;> rfl

/-- Reading a field tolerates loosening. -/
theorem tolerant :
    Tolerant keys defaults (fun _ _ _ => False) decodePart Part.key Part.IsDefault where
  unknown := by
    intro name value unknown
    rw [decodePart]
    -- a key that no branch of the reader has may still be that of a property
    · split
      · rename_i property found
        have key : property.key = name := by simpa using List.find?_some found
        exact absurd (by cases property <;> decide) (key ▸ unknown)
      · rfl
    all_goals
      rintro rfl
      exact unknown (by decide)
  key_eq := by
    intro name value part h
    unfold decodePart at h
    split at h
    -- the key of a flag is looked up, and every other key stands in the reader itself
    case h_7 =>
      split at h
      · rename_i property found
        obtain ⟨present, -, h⟩ := Outcome.bind_eq_ok_iff.1 h
        cases h
        have key : property.key = name := by simpa using List.find?_some found
        exact key
      · cases h
    all_goals
      obtain ⟨value, -, h⟩ := Outcome.bind_eq_ok_iff.1 h
      cases h
      rfl
  within := fun _ _ _ absurd => absurd.elim
  default := by
    intro name value inside
    rcases List.mem_append.1 inside with flag | other
    · obtain ⟨property, -, same⟩ := List.mem_map.1 flag
      obtain ⟨rfl, rfl⟩ := Prod.mk.inj same
      exact ⟨.flag property false, decodePart_key property _, rfl⟩
    · simp only [List.mem_cons, Prod.mk.injEq, List.not_mem_nil, or_false] at other
      rcases other with ⟨rfl, rfl⟩ | ⟨rfl, rfl⟩ | ⟨rfl, rfl⟩ | ⟨rfl, rfl⟩
      · exact ⟨.params [], rfl, rfl⟩
      · exact ⟨.default none, rfl, rfl⟩
      · exact ⟨.rules [], rfl, rfl⟩
      · exact ⟨.origin .declared, rfl, rfl⟩

/-- The properties of a field do not change when flags that are not set are left out. -/
theorem partProperties_eq {parts others : List Part}
    (h : PartsLoosened Part.key Part.IsDefault parts others) :
    partProperties others = partProperties parts := by
  rw [partProperties, partProperties]
  congr 1
  funext properties property
  rw [h.optional_eq property.key]
  intro part value selected
  cases part with
  | flag other present =>
    dsimp only at selected
    split at selected
    · rename_i same
      cases selected
      exact ⟨congrArg Property.key same, id⟩
    · cases selected
  | _ => cases selected

/-- A loosened field is read as the same field. -/
theorem ofJson_of_loosened {value other : Json} (h : Loosened value other) :
    ofJson other = ofJson value := by
  obtain ⟨members⟩ := h
  refine (tolerant.related_decodeMembers members).bind_eq fun parts others less => ?_
  rw [less.require_eq, less.require_eq, less.optional_eq "params", partProperties_eq less,
    less.optional_eq "default", less.optional_eq "validation_rules", less.optional_eq "origin"]
  all_goals
    rintro part value selected
    cases part <;> cases selected
  -- first the members that may be left out, and then the two that must be present
  iterate 4 exact ⟨rfl, id⟩
  all_goals exact id

end Field

/-! ## Entities -/

namespace Entity

/-- The members of an entity that may be left out, with their defaults. -/
def defaults : List (String × Json) :=
  [("fields", .array []), ("timestamps", .bool false)] ++
    RelationKind.all.map fun kind => (kind.name, .array [])

/-- The key of a member that was read. -/
def Part.key : Part → String
  | .name _ => "name"
  | .tableName _ => "table_name"
  | .fields _ => "fields"
  | .timestamps _ => "timestamps"
  | .related kind _ => kind.name

/-- Whether a member that was read holds its default. -/
def Part.IsDefault : Part → Prop
  | .name _ | .tableName _ => False
  | .fields value => value = []
  | .timestamps value => value = false
  | .related _ value => value = []

/-- Whether the fields of an entity are loosened. -/
def Changed (name : String) (value other : Json) : Prop :=
  name = "fields" ∧ ItemsLoosened Field.Loosened value other

/-- Whether an entity in JSON becomes another when unknown members are added and defaults left out,
in the entity and in its fields. -/
def Loosened : Json → Json → Prop := ObjectLoosened keys defaults Changed

/-- The member for the relations of one kind is read as these relations. -/
theorem decodePart_name (kind : RelationKind) (value : Json) :
    decodePart kind.name value =
      value.asList EntityName.ofJson >>= fun names => .ok (some (.related kind names)) := by
  cases kind <;> rfl

/-- Reading an entity tolerates loosening. -/
theorem tolerant : Tolerant keys defaults Changed decodePart Part.key Part.IsDefault where
  unknown := by
    intro name value unknown
    rw [decodePart]
    · split
      · rename_i kind found
        have key : kind.name = name := RelationKind.name_of_ofName? found
        exact absurd (by cases kind <;> decide) (key ▸ unknown)
      · rfl
    all_goals
      rintro rfl
      exact unknown (by decide)
  key_eq := by
    intro name value part h
    unfold decodePart at h
    split at h
    case h_5 =>
      split at h
      · rename_i kind found
        obtain ⟨names, -, h⟩ := Outcome.bind_eq_ok_iff.1 h
        cases h
        exact RelationKind.name_of_ofName? found
      · cases h
    all_goals
      obtain ⟨value, -, h⟩ := Outcome.bind_eq_ok_iff.1 h
      cases h
      rfl
  within := by
    rintro _ value other ⟨rfl, items⟩
    have same : other.asList Field.ofJson = value.asList Field.ofJson :=
      asList_eq_of_itemsLoosened (fun _ _ h => Field.ofJson_of_loosened h) items
    rw [decodePart, decodePart, same]
  default := by
    intro name value inside
    rcases List.mem_append.1 inside with own | related
    · simp only [List.mem_cons, Prod.mk.injEq, List.not_mem_nil, or_false] at own
      rcases own with ⟨rfl, rfl⟩ | ⟨rfl, rfl⟩
      · exact ⟨.fields [], rfl, rfl⟩
      · exact ⟨.timestamps false, rfl, rfl⟩
    · obtain ⟨kind, -, same⟩ := List.mem_map.1 related
      obtain ⟨rfl, rfl⟩ := Prod.mk.inj same
      exact ⟨.related kind [], decodePart_name kind _, rfl⟩

/-- The relations of an entity do not change when kinds without any are left out. -/
theorem partRelated_eq (kind : RelationKind) {parts others : List Part}
    (h : PartsLoosened Part.key Part.IsDefault parts others) :
    partRelated kind others = partRelated kind parts := by
  rw [partRelated, partRelated, h.optional_eq kind.name]
  intro part value selected
  cases part with
  | related other names =>
    dsimp only at selected
    split at selected
    · rename_i same
      cases selected
      exact ⟨congrArg RelationKind.name same, id⟩
    · cases selected
  | _ => cases selected

/-- A loosened entity is read as the same entity. -/
theorem ofJson_of_loosened {value other : Json} (h : Loosened value other) :
    ofJson other = ofJson value := by
  obtain ⟨members⟩ := h
  refine (tolerant.related_decodeMembers members).bind_eq fun parts others less => ?_
  rw [less.require_eq, less.require_eq, less.optional_eq "fields", less.optional_eq "timestamps",
    partRelated_eq _ less, partRelated_eq _ less, partRelated_eq _ less, partRelated_eq _ less]
  all_goals
    rintro part value selected
    cases part <;> cases selected
  iterate 2 exact ⟨rfl, id⟩
  all_goals exact id

end Entity

/-! ## Link tables -/

namespace LinkTable

/-- The key of a member that was read. -/
def Part.key : Part → String
  | .tableName _ => "table_name"
  | .owner _ => "from"
  | .target _ => "to"
  | .columns _ _ => "fields"

/-- Whether the columns of a link table are loosened. -/
def Changed (name : String) (value other : Json) : Prop :=
  name = "fields" ∧ ItemsLoosened Field.Loosened value other

/-- Whether a link table in JSON becomes another when unknown members are added, and also defaults
left out in its columns. -/
def Loosened : Json → Json → Prop := ObjectLoosened keys [] Changed

/-- What is read as the columns is told as such. -/
theorem key_of_decodeColumns {value : Json} {part : Part} (h : decodeColumns value = .ok part) :
    part.key = "fields" := by
  unfold decodeColumns at h
  split at h
  · obtain ⟨owner, -, h⟩ := Outcome.bind_eq_ok_iff.1 h
    obtain ⟨target, -, h⟩ := Outcome.bind_eq_ok_iff.1 h
    split at h
    · cases h
      rfl
    · cases h
  · obtain ⟨single, -, h⟩ := Outcome.bind_eq_ok_iff.1 h
    cases h
  · cases h

/-- Loosened columns are read as the same columns. -/
theorem decodeColumns_eq {value other : Json} (h : ItemsLoosened Field.Loosened value other) :
    decodeColumns other = decodeColumns value := by
  obtain ⟨items⟩ := h
  cases items with
  | nil => rfl
  | cons first rest =>
    cases rest with
    | nil => rw [decodeColumns, decodeColumns, Field.ofJson_of_loosened first]
    | cons second others =>
      rw [decodeColumns, decodeColumns, Field.ofJson_of_loosened first,
        Field.ofJson_of_loosened second]
      cases others <;> rfl

/-- Reading a link table tolerates loosening. -/
theorem tolerant : Tolerant keys [] Changed decodePart Part.key fun _ => False where
  unknown := by
    intro name value unknown
    rw [decodePart]
    · rfl
    all_goals
      rintro rfl
      exact unknown (by decide)
  key_eq := by
    intro name value part h
    unfold decodePart at h
    split at h
    case h_4 =>
      obtain ⟨columns, read, h⟩ := Outcome.bind_eq_ok_iff.1 h
      cases h
      exact key_of_decodeColumns read
    case h_5 => cases h
    all_goals
      obtain ⟨value, -, h⟩ := Outcome.bind_eq_ok_iff.1 h
      cases h
      rfl
  within := by
    rintro _ value other ⟨rfl, items⟩
    exact congrArg (· >>= fun part => .ok (some part)) (decodeColumns_eq items)
  default := fun _ _ absurd => (List.not_mem_nil absurd).elim

/-- A loosened link table is read as the same link table. -/
theorem ofJson_of_loosened {value other : Json} (h : Loosened value other) :
    ofJson other = ofJson value := by
  obtain ⟨members⟩ := h
  refine (tolerant.related_decodeMembers members).bind_eq fun parts others less => ?_
  rw [less.require_eq, less.require_eq, less.require_eq, less.require_eq]
  all_goals exact fun _ _ _ => id

end LinkTable

/-! ## Schemas -/

namespace Schema

/-- The members of a schema that may be left out, with their defaults. -/
def defaults : List (String × Json) := [("links", .array [])]

/-- The key of a member that was read. -/
def Part.key : Part → String
  | .entities _ => "entities"
  | .links _ => "links"

/-- Whether a member that was read holds its default. -/
def Part.IsDefault : Part → Prop
  | .entities _ => False
  | .links value => value = []

/-- Whether the entities or the link tables of a schema are loosened. -/
def Changed (name : String) (value other : Json) : Prop :=
  name = "entities" ∧ ItemsLoosened Entity.Loosened value other ∨
    name = "links" ∧ ItemsLoosened LinkTable.Loosened value other

/-- Whether a schema in JSON becomes another when, in any of its objects, unknown members are added
and defaults left out. -/
def Loosened : Json → Json → Prop := ObjectLoosened keys defaults Changed

/-- Reading a schema tolerates loosening. -/
theorem tolerant : Tolerant keys defaults Changed decodePart Part.key Part.IsDefault where
  unknown := by
    intro name value unknown
    rw [decodePart]
    · rfl
    all_goals
      rintro rfl
      exact unknown (by decide)
  key_eq := by
    intro name value part h
    unfold decodePart at h
    split at h
    case h_3 => cases h
    all_goals
      obtain ⟨value, -, h⟩ := Outcome.bind_eq_ok_iff.1 h
      cases h
      rfl
  within := by
    rintro _ value other (⟨rfl, items⟩ | ⟨rfl, items⟩)
    · have same : other.asList Entity.ofJson = value.asList Entity.ofJson :=
        asList_eq_of_itemsLoosened (fun _ _ h => Entity.ofJson_of_loosened h) items
      rw [decodePart, decodePart, same]
    · have same : other.asList LinkTable.ofJson = value.asList LinkTable.ofJson :=
        asList_eq_of_itemsLoosened (fun _ _ h => LinkTable.ofJson_of_loosened h) items
      rw [decodePart, decodePart, same]
  default := by
    intro name value inside
    obtain ⟨rfl, rfl⟩ := Prod.mk.inj (List.mem_singleton.1 inside)
    exact ⟨.links [], rfl, rfl⟩

/-- A loosened schema is read as the same schema. -/
theorem ofJson_of_loosened {value other : Json} (h : Loosened value other) :
    ofJson other = ofJson value := by
  obtain ⟨members⟩ := h
  refine (tolerant.related_decodeMembers members).bind_eq fun parts others less => ?_
  rw [less.require_eq, less.optional_eq "links"]
  all_goals
    rintro part value selected
    cases part <;> cases selected
  · exact ⟨rfl, id⟩
  · exact id

end Schema

end EntitySchema
