import EntitySchema.Proofs.Json.Tolerance

/-! # Schemas that are written and read again

A schema that is written as JSON is read back as it was. The members that are left out when it is
written are among those that a reader takes for their defaults, so it is enough to read every object
with all its members. -/

namespace EntitySchema

open Json

namespace Json

variable {α : Type} {keys : List String} {defaults : List (String × Json)}
  {changed : String → Json → Json → Prop} {decode : String → Json → Except DecodeError (Option α)}
  {members others : List (String × Json)}

/-! ## Objects and arrays -/

/-- Members that are read one by one are read together. -/
theorem decodeMembers_eq_ok {parts : List α}
    (read : List.Forall₂ (fun member part => decode member.1 member.2 = .ok (some part))
      members parts) :
    decodeMembers keys decode (.object members) = .ok parts := by
  induction read with
  | nil => rfl
  | @cons member part _ _ first _ ih =>
    obtain ⟨name, value⟩ := member
    rw [decodeMembers_cons, first, ih]
    rfl

/-- Items that are read back one by one are read back together. -/
theorem asList_map {decode : Json → Except DecodeError α} {encode : α → Json}
    (read : ∀ value, decode (encode value) = .ok value) (values : List α) :
    asList decode (.array (values.map encode)) = .ok values := by
  rw [asList]
  induction values with
  | nil => rfl
  | cons first rest ih =>
    rw [List.map_cons, List.mapM_cons, read, ih]
    rfl

/-- Texts are read back. -/
theorem asList_strings (texts : List String) : (strings texts).asList asString = .ok texts := by
  have read : ∀ text, asString (.string text) = .ok text := fun _ => rfl
  exact asList_map read texts

/-- All members may stay. -/
theorem MembersLoosened.refl (members : List (String × Json)) :
    MembersLoosened keys defaults changed members members := by
  induction members with
  | nil => exact .nil
  | cons member rest ih => exact .kept member ih

/-- Members in front of others stay. -/
theorem MembersLoosened.append (front : List (String × Json))
    (rest : MembersLoosened keys defaults changed members others) :
    MembersLoosened keys defaults changed (front ++ members) (front ++ others) := by
  induction front with
  | nil => exact rest
  | cons member front ih => exact .kept member ih

/-- A member for a list is left out only when the list is empty. -/
theorem MembersLoosened.listMember (key : String) (texts : List String)
    (default : (key, .array []) ∈ defaults) (alone : key ∉ members.map (·.1))
    (rest : MembersLoosened keys defaults changed members others) :
    MembersLoosened keys defaults changed ((key, .strings texts) :: members)
      (Json.listMember key texts ++ others) := by
  cases texts with
  | nil => exact .leftOut default alone rest
  | cons first texts => exact .kept _ rest

end Json

/-! ## Names -/

/-- The name of an entity is read back. -/
theorem EntityName.ofJson_text (name : EntityName) : ofJson (.string name.text) = .ok name := by
  show (ofString name.text).mapError DecodeError.name = .ok name
  rw [ofString_text]
  rfl

/-- The name of a field is read back. -/
theorem FieldName.ofJson_text (name : FieldName) : ofJson (.string name.text) = .ok name := by
  show (ofString name.text).mapError DecodeError.name = .ok name
  rw [ofString_text]
  rfl

/-- The names of entities are read back. -/
theorem EntityName.asList_strings (names : List EntityName) :
    (strings (names.map (·.text))).asList EntityName.ofJson = .ok names := by
  rw [strings, List.map_map]
  exact asList_map EntityName.ofJson_text names

/-! ## Fields -/

namespace Field

/-- All members of a field. -/
def allMembers (field : Field) : List (String × Json) :=
  ("default", (field.default.map Json.string).getD .null) ::
    ([field.flagMember .fulltext, field.flagMember .index, ("name", .string field.name.text),
        field.flagMember .nullable, ("origin", .string field.origin.name)] ++
      ("params", .strings field.params) ::
        ([field.flagMember .primary, ("type", .string field.type), field.flagMember .unique,
            field.flagMember .unsigned] ++
          [("validation_rules", .strings field.rules)]))

/-- A field is written with all its members, but for those that are left out. -/
theorem loosened_toJson (field : Field) : Loosened (.object field.allMembers) field.toJson := by
  have absent : ("default", Json.null) ∈ defaults ∧ ("params", Json.array []) ∈ defaults ∧
      ("validation_rules", Json.array []) ∈ defaults := by
    simp [defaults]
  have rules : MembersLoosened keys defaults (fun _ _ _ => False)
      [("validation_rules", .strings field.rules)]
      (Json.listMember "validation_rules" field.rules ++ []) :=
    .listMember _ field.rules absent.2.2 List.not_mem_nil .nil
  rw [List.append_nil] at rules
  -- from the last member to the first, each list is put in front of the members after it
  have params := MembersLoosened.listMember "params" field.params absent.2.1
    (by simp [flagMember, Property.key])
    (rules.append [field.flagMember .primary, ("type", .string field.type),
      field.flagMember .unique, field.flagMember .unsigned])
  have others := params.append
    [field.flagMember .fulltext, field.flagMember .index, ("name", .string field.name.text),
      field.flagMember .nullable, ("origin", .string field.origin.name)]
  rw [toJson, allMembers]
  simp only [List.append_assoc]
  refine .object ?_
  cases field.default with
  | none => exact .leftOut absent.1 (by simp [flagMember, Property.key]) others
  | some value => exact .kept _ others

/-- A field is read from all its members. -/
theorem ofJson_allMembers (field : Field) : ofJson (.object field.allMembers) = .ok field := by
  have parts : List.Forall₂ (fun member part => decodePart member.1 member.2 = .ok (some part))
      field.allMembers
      [.default field.default, .flag .fulltext (field.properties.contains .fulltext),
        .flag .index (field.properties.contains .index), .name field.name,
        .flag .nullable (field.properties.contains .nullable), .origin field.origin,
        .params field.params, .flag .primary (field.properties.contains .primary),
        .type field.type, .flag .unique (field.properties.contains .unique),
        .flag .unsigned (field.properties.contains .unsigned), .rules field.rules] := by
    have flag : ∀ property, decodePart (field.flagMember property).1 (field.flagMember property).2 =
        .ok (some (.flag property (field.properties.contains property))) := by
      intro property
      exact decodePart_key property _
    refine .cons ?_ (.cons (flag _) (.cons (flag _) (.cons ?_ (.cons (flag _) (.cons ?_ (.cons ?_
      (.cons (flag _) (.cons rfl (.cons (flag _) (.cons (flag _) (.cons ?_ .nil)))))))))))
    · cases field.default <;> rfl
    · rw [decodePart, FieldName.ofJson_text]
      rfl
    · cases field.origin <;> rfl
    · rw [decodePart, asList_strings]
      rfl
    · rw [decodePart, asList_strings]
      rfl
  rw [ofJson, decodeMembers_eq_ok parts]
  rfl

/-- A field is read back. -/
theorem ofJson_toJson (field : Field) : ofJson field.toJson = .ok field :=
  (ofJson_of_loosened field.loosened_toJson).trans field.ofJson_allMembers

end Field

/-! ## Entities -/

namespace Entity

/-- The names of the entities that are related in one way, as JSON. -/
def relatedNames (entity : Entity) (kind : RelationKind) : Json :=
  .strings ((entity.related kind).map (·.text))

/-- All members of an entity. -/
def allMembers (entity : Entity) : List (String × Json) :=
  ("belongs_to", entity.relatedNames .belongsTo) ::
    ("fields", .array (entity.fields.map Field.toJson)) ::
    ("has_many", entity.relatedNames .hasMany) ::
    ("has_many_and_belongs_to", entity.relatedNames .hasManyAndBelongsTo) ::
    ("has_one", entity.relatedNames .hasOne) ::
    [("name", .string entity.name.text), ("table_name", .string entity.tableName),
      ("timestamps", .bool entity.timestamps)]

/-- The relations of every kind may be left out when there are none. -/
theorem mem_defaults (kind : RelationKind) : (kind.name, Json.array []) ∈ defaults :=
  List.mem_append_right _ (List.mem_map_of_mem kind.mem_all)

/-- An entity is written with all its members, but for those that are left out. -/
theorem loosened_toJson (entity : Entity) : Loosened (.object entity.allMembers) entity.toJson := by
  let names kind := (entity.related kind).map (·.text)
  have own : MembersLoosened keys defaults Changed
      [("name", .string entity.name.text), ("table_name", .string entity.tableName),
        ("timestamps", .bool entity.timestamps)] _ := .refl _
  have one := own.listMember "has_one" (names .hasOne) (mem_defaults .hasOne) (by simp)
  have both := one.listMember "has_many_and_belongs_to" (names .hasManyAndBelongsTo)
    (mem_defaults .hasManyAndBelongsTo) (by simp)
  have many := both.listMember "has_many" (names .hasMany) (mem_defaults .hasMany) (by simp)
  have fields := many.kept ("fields", .array (entity.fields.map Field.toJson))
  -- the fields are written even when there are none
  have all := fields.listMember "belongs_to" (names .belongsTo) (mem_defaults .belongsTo) (by simp)
  rw [toJson]
  simp only [List.append_assoc]
  exact .object all

/-- An entity is read from all its members. -/
theorem ofJson_allMembers (entity : Entity) :
    ofJson (.object entity.allMembers) = .ok entity := by
  have parts : List.Forall₂ (fun member part => decodePart member.1 member.2 = .ok (some part))
      entity.allMembers
      [.related .belongsTo entity.belongsTo, .fields entity.fields,
        .related .hasMany entity.hasMany,
        .related .hasManyAndBelongsTo entity.hasManyAndBelongsTo,
        .related .hasOne entity.hasOne, .name entity.name, .tableName entity.tableName,
        .timestamps entity.timestamps] := by
    have related : ∀ kind, decodePart kind.name (entity.relatedNames kind) =
        .ok (some (.related kind (entity.related kind))) := by
      intro kind
      rw [decodePart_name, relatedNames, EntityName.asList_strings]
      rfl
    refine .cons (related .belongsTo) (.cons ?_ (.cons (related .hasMany)
      (.cons (related .hasManyAndBelongsTo) (.cons (related .hasOne) (.cons ?_ (.cons rfl
        (.cons rfl .nil)))))))
    · rw [decodePart, asList_map Field.ofJson_toJson]
      rfl
    · rw [decodePart, EntityName.ofJson_text]
      rfl
  rw [ofJson, decodeMembers_eq_ok parts]
  rfl

/-- An entity is read back. -/
theorem ofJson_toJson (entity : Entity) : ofJson entity.toJson = .ok entity :=
  (ofJson_of_loosened entity.loosened_toJson).trans entity.ofJson_allMembers

end Entity

/-! ## Link tables -/

/-- A link table is read back. -/
theorem LinkTable.ofJson_toJson (link : LinkTable) : ofJson link.toJson = .ok link := by
  have parts : List.Forall₂ (fun member part => decodePart member.1 member.2 = .ok (some part))
      [("fields", .array (link.fields.map Field.toJson)), ("from", .string link.owner.text),
        ("table_name", .string link.tableName), ("to", .string link.target.text)]
      [.columns link.ownerColumn link.targetColumn, .owner link.owner, .tableName link.tableName,
        .target link.target] := by
    refine .cons ?_ (.cons ?_ (.cons rfl (.cons ?_ .nil)))
    · rw [fields, List.map_cons, List.map_cons, List.map_nil, decodePart, decodeColumns,
        Field.ofJson_toJson, Field.ofJson_toJson]
      rfl
    · rw [decodePart, EntityName.ofJson_text]
      rfl
    · rw [decodePart, EntityName.ofJson_text]
      rfl
  rw [ofJson, toJson, decodeMembers_eq_ok parts]
  rfl

/-! ## Schemas -/

namespace Schema

/-- A schema is read back. -/
theorem ofJson_toJson (schema : Schema) : ofJson schema.toJson = .ok schema := by
  have parts : List.Forall₂ (fun member part => decodePart member.1 member.2 = .ok (some part))
      [("entities", .array (schema.entities.map Entity.toJson)),
        ("links", .array (schema.links.map LinkTable.toJson))]
      [.entities schema.entities, .links schema.links] := by
    refine .cons ?_ (.cons ?_ .nil)
    · rw [decodePart, asList_map Entity.ofJson_toJson]
      rfl
    · rw [decodePart, asList_map LinkTable.ofJson_toJson]
      rfl
  rw [ofJson, toJson, decodeMembers_eq_ok parts]
  rfl

/-- Every schema is read back from the JSON that is written for it, so no two schemas are written
alike. Nothing else is read when, in any of the objects, unknown members are added and members that
hold their default are left out. -/
theorem ofJson_toJson_loosened :
    (∀ schema : Schema, ofJson schema.toJson = .ok schema) ∧
      Function.Injective toJson ∧
      ∀ value other, Loosened value other → ofJson other = ofJson value := by
  refine ⟨ofJson_toJson, fun schema other same => ?_, fun _ _ => ofJson_of_loosened⟩
  have read := schema.ofJson_toJson
  rw [same, other.ofJson_toJson] at read
  exact (Except.ok.inj read).symm

/-- A schema is read from the names and the type that it needs, with members that are unknown. -/
theorem ofJson_toJson_loosened_user :
    let column : Field := { name := ⟨"id", by decide⟩, type := "big" }
    let user : Entity := { name := ⟨"User", by decide⟩, tableName := "users", fields := [column] }
    ofJson (.object [("version", .number 1), ("entities", .array [.object [
      ("fields", .array [.object [("name", .string "id"), ("type", .string "big"),
        ("comment", .null)]]),
      ("name", .string "User"), ("table_name", .string "users")]])]) = .ok ⟨[user], []⟩ := by
  intro column user
  have flag : ∀ property : Property, (property.key, Json.bool false) ∈ Field.defaults := by
    intro property
    exact List.mem_append_left _ (List.mem_map_of_mem property.mem_all)
  have origin : ("origin", Json.string "declared") ∈ Field.defaults := by simp [Field.defaults]
  have timestamps : ("timestamps", Json.bool false) ∈ Entity.defaults := by simp [Entity.defaults]
  have field : Field.Loosened column.toJson
      (.object [("name", .string "id"), ("type", .string "big"), ("comment", .null)]) :=
    .object (.leftOut (flag .fulltext) (by decide) (.leftOut (flag .index) (by decide) (.kept _
      (.leftOut (flag .nullable) (by decide) (.leftOut origin (by decide)
        (.leftOut (flag .primary) (by decide) (.kept _ (.leftOut (flag .unique) (by decide)
          (.leftOut (flag .unsigned) (by decide) (.added (by decide) _ .nil))))))))))
  have entity : Entity.Loosened user.toJson (.object [
      ("fields", .array [.object [("name", .string "id"), ("type", .string "big"),
        ("comment", .null)]]),
      ("name", .string "User"), ("table_name", .string "users")]) :=
    .object (.within ⟨rfl, .array (.cons field .nil)⟩ (.kept _ (.kept _
      (.leftOut timestamps (by decide) .nil))))
  have schema : Loosened (toJson ⟨[user], []⟩) _ :=
    .object (.added (by decide : "version" ∉ keys) (.number 1)
      (.within (.inl ⟨rfl, .array (.cons entity .nil)⟩)
        (.leftOut (List.mem_singleton.2 rfl) (by decide) .nil)))
  exact (ofJson_toJson_loosened.2.2 _ _ schema).trans (ofJson_toJson_loosened.1 _)

end Schema

end EntitySchema
