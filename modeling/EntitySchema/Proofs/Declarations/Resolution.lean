import EntitySchema.Declarations
import EntitySchema.Proofs.Declarations.Columns
import EntitySchema.Proofs.Declarations.Tables
import EntitySchema.Proofs.Outcome

/-! # What resolution gives

Resolution succeeds when every target was declared. It then changes nothing but the fields: every
entity has, after its own fields, a foreign key for each column that was asked of it and that it
does not have already. -/

namespace EntitySchema

/-- The entity with a foreign key, after its own fields, for each of the columns that it lacks. -/
def Entity.withForeignKeys (entity : Entity) (columns : List FieldName) : Entity :=
  { entity with
    fields := entity.fields ++ (columns.filter (!entity.hasField ·)).map Field.foreignKey }

@[simp] theorem Entity.name_withForeignKeys (entity : Entity) (columns : List FieldName) :
    (entity.withForeignKeys columns).name = entity.name := rfl

@[simp] theorem Entity.withForeignKeys_nil (entity : Entity) :
    entity.withForeignKeys [] = entity := by
  simp [withForeignKeys]

namespace Entity

variable {entity : Entity} {columns : List FieldName} {column : FieldName}

/-- The fields have the names of the own fields, and then those of the columns that were lacking. -/
theorem map_name_withForeignKeys (entity : Entity) (columns : List FieldName) :
    (entity.withForeignKeys columns).fields.map (·.name) =
      entity.fields.map (·.name) ++ columns.filter (!entity.hasField ·) := by
  rw [withForeignKeys, List.map_append, List.map_map]
  exact congrArg _ (List.map_id' _)

/-- Different columns do not repeat a name. -/
theorem nodup_map_name_withForeignKeys (own : (entity.fields.map (·.name)).Nodup)
    (distinct : columns.Nodup) :
    ((entity.withForeignKeys columns).fields.map (·.name)).Nodup := by
  rw [map_name_withForeignKeys, List.nodup_append]
  refine ⟨own, distinct.filter _, fun name inside other added => ?_⟩
  rintro rfl
  have lacking := (List.mem_filter.1 added).2
  rw [hasField_iff.2 inside] at lacking
  cases lacking

/-- Every column is there, as an own field or as a foreign key. -/
theorem mem_map_name_withForeignKeys (entity : Entity) (h : column ∈ columns) :
    column ∈ (entity.withForeignKeys columns).fields.map (·.name) := by
  rw [map_name_withForeignKeys, List.mem_append]
  by_cases own : entity.hasField column = true
  · exact .inl (hasField_iff.1 own)
  · exact .inr (List.mem_filter.2 ⟨h, by simpa using own⟩)

end Entity

namespace Declarations

/-! ## The columns of one target -/

/-- Granting different columns one by one is granting those that the entity lacks. -/
theorem foldl_grant (entity : Entity) {columns : List FieldName} (distinct : columns.Nodup) :
    columns.foldl grant entity = entity.withForeignKeys columns := by
  induction columns using List.reverseRecOn with
  | nil => exact entity.withForeignKeys_nil.symm
  | append_singleton front last ih =>
    rw [List.nodup_append_comm, List.singleton_append, List.nodup_cons] at distinct
    -- the columns granted before are different, so only the own fields can have the name
    have own : (entity.withForeignKeys front).hasField last = entity.hasField last := by
      rw [Bool.eq_iff_iff, Entity.hasField_iff, Entity.hasField_iff]
      simp only [Entity.withForeignKeys, List.map_append, List.mem_append, List.map_map,
        Function.comp_def, Field.name_foreignKey, List.map_id', List.mem_filter, distinct.1,
        false_and, or_false]
    rw [List.foldl_concat, ih distinct.2, grant, own, Entity.withForeignKeys,
      Entity.withForeignKeys, List.filter_append, List.filter_singleton]
    cases entity.hasField last with
    | true => simp
    | false => simp [Entity.addField]

/-- What the entries of all targets give to one entity. -/
def granted (entries : List (EntityName × List FieldName)) (entity : Entity) : Entity :=
  entries.foldl (fun entity entry =>
    if entity.name.text = entry.1.text then entry.2.foldl grant entity else entity) entity

/-- Granting columns keeps the name of an entity. -/
theorem name_foldl_grant (columns : List FieldName) (entity : Entity) :
    (columns.foldl grant entity).name = entity.name := by
  induction columns generalizing entity with
  | nil => rfl
  | cons column rest ih =>
    rw [List.foldl_cons, ih, grant]
    split <;> rfl

/-- An entity is given the columns of the entry of its name. -/
theorem granted_map {names : List EntityName} {columns : EntityName → List FieldName}
    (distinct : names.Nodup) (entity : Entity) :
    granted (names.map fun name => (name, columns name)) entity =
      if entity.name ∈ names then (columns entity.name).foldl grant entity else entity := by
  induction names generalizing entity with
  | nil => rfl
  | cons first rest ih =>
    rw [List.nodup_cons] at distinct
    rw [List.map_cons, granted, List.foldl_cons, ← granted, ih distinct.2]
    by_cases here : entity.name = first
    · -- granting keeps the name, so no later entry is for this entity
      subst here
      rw [if_pos rfl, name_foldl_grant, if_neg distinct.1, if_pos List.mem_cons_self]
    · have differs : entity.name.text ≠ first.text := fun same => here (EntityName.ext same)
      rw [if_neg differs]
      simp only [List.mem_cons, here, false_or]

/-! ## All targets -/

/-- Granting the columns of one target succeeds when the target is in the table. -/
theorem grantAll_eq_ok_iff {finish : EndOfSource} {table next : EntityTable} {target : EntityName}
    {columns : List FieldName} (distinct : (table.toList.map (·.name)).Nodup) :
    grantAll finish table (target, columns) = .ok next ↔
      target ∈ table.toList.map (·.name) ∧
        next = ⟨Entity.changeNamed target.text (columns.foldl grant ·) table.toList⟩ := by
  rw [grantAll, ← EntityTable.contains_text_iff, ← EntityTable.toList_modify distinct]
  by_cases known : table.contains target.text = true
  · rw [if_pos known, Except.ok.injEq, and_iff_right known]
    exact eq_comm
  · rw [if_neg known]
    constructor
    · intro h
      cases h
    · exact fun h => absurd h.1 known

/-- Granting the columns of one target keeps all names. -/
theorem map_name_grantNamed (target : String) (columns : List FieldName)
    (entities : List Entity) :
    (Entity.changeNamed target (columns.foldl grant ·) entities).map (·.name) =
      entities.map (·.name) :=
  Entity.map_name_changeNamed (fun entity _ => name_foldl_grant columns entity) entities

/-- Granting the columns of all targets succeeds when each of them is in the table. -/
theorem foldlM_grantAll_eq_ok_iff {finish : EndOfSource}
    {entries : List (EntityName × List FieldName)} {table result : EntityTable}
    (distinct : (table.toList.map (·.name)).Nodup) :
    entries.foldlM (grantAll finish) table = .ok result ↔
      (∀ entry ∈ entries, entry.1 ∈ table.toList.map (·.name)) ∧
        result = ⟨table.toList.map (granted entries)⟩ := by
  induction entries generalizing table with
  | nil =>
    have same : granted [] = id := rfl
    rw [List.foldlM_nil, same, List.map_id, and_iff_right (List.forall_mem_nil _)]
    exact ⟨fun h => (Except.ok.inj h).symm, fun h => congrArg Except.ok h.symm⟩
  | cons entry rest ih =>
    obtain ⟨target, columns⟩ := entry
    -- the rest of the entries meets the table in which the first target has its columns
    have later : ∀ entities : List Entity,
        (Entity.changeNamed target.text (columns.foldl grant ·) entities).map (granted rest) =
          entities.map (granted ((target, columns) :: rest)) := fun entities => by
      rw [Entity.changeNamed, List.map_map]
      rfl
    rw [List.foldlM_cons, Outcome.bind_eq_ok_iff, List.forall_mem_cons]
    constructor
    · rintro ⟨next, first, others⟩
      obtain ⟨known, rfl⟩ := (grantAll_eq_ok_iff distinct).1 first
      rw [ih (by rwa [map_name_grantNamed]), map_name_grantNamed, later] at others
      exact ⟨⟨known, others.1⟩, others.2⟩
    · rintro ⟨⟨known, others⟩, rfl⟩
      refine ⟨_, (grantAll_eq_ok_iff distinct).2 ⟨known, rfl⟩, ?_⟩
      rw [ih (by rwa [map_name_grantNamed]), map_name_grantNamed, later]
      exact ⟨others, rfl⟩

/-- What is pending after requests gives an entity the columns that were asked of it. -/
theorem granted_askedByTarget (requests : List (EntityName × FieldName)) (entity : Entity) :
    granted (PendingColumns.askedByTarget requests) entity =
      entity.withForeignKeys (PendingColumns.asked requests entity.name) := by
  rw [PendingColumns.askedByTarget, granted_map (Repeats.nodup_eraseDups _)]
  split
  · exact foldl_grant entity (PendingColumns.nodup_asked requests entity.name)
  · -- an entity that is no target has no columns to be given
    rename_i untouched
    rw [List.mem_eraseDups] at untouched
    rw [PendingColumns.asked_eq_nil untouched, Entity.withForeignKeys_nil]

/-- Declarations with what is pending after some requests are resolved when all targets of the
requests were declared. -/
theorem resolve_eq_ok_iff {declarations : Declarations} {finish : EndOfSource} {schema : Schema}
    {requests : List (EntityName × FieldName)}
    (distinct : (declarations.entities.toList.map (·.name)).Nodup)
    (pending : declarations.pending = ⟨PendingColumns.askedByTarget requests⟩) :
    declarations.resolve finish = .ok schema ↔
      (∀ request ∈ requests, request.1 ∈ declarations.entities.toList.map (·.name)) ∧
        schema = ⟨declarations.entities.toList.map fun entity =>
          entity.withForeignKeys (PendingColumns.asked requests entity.name),
          declarations.links⟩ := by
  have fields : granted (PendingColumns.askedByTarget requests) = fun entity =>
      entity.withForeignKeys (PendingColumns.asked requests entity.name) := by
    funext entity
    exact granted_askedByTarget requests entity
  have targets : (∀ entry ∈ PendingColumns.askedByTarget requests,
      entry.1 ∈ declarations.entities.toList.map (·.name)) ↔
        ∀ request ∈ requests, request.1 ∈ declarations.entities.toList.map (·.name) := by
    simp only [PendingColumns.askedByTarget, List.forall_mem_map, List.mem_eraseDups]
  rw [resolve, pending]
  constructor
  · intro h
    cases granting : (PendingColumns.askedByTarget requests).foldlM (grantAll finish)
        declarations.entities with
    | error error =>
      rw [granting] at h
      cases h
    | ok table =>
      obtain ⟨known, rfl⟩ := (foldlM_grantAll_eq_ok_iff distinct).1 granting
      rw [granting, fields] at h
      exact ⟨targets.1 known, (Except.ok.inj h).symm⟩
  · rintro ⟨known, rfl⟩
    rw [(foldlM_grantAll_eq_ok_iff distinct).2 ⟨targets.2 known, rfl⟩, fields]

end Declarations

end EntitySchema
