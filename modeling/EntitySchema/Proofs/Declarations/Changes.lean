import EntitySchema.Proofs.Declarations.Resolution

/-! # Resolution after any changes

Declarations are built by changes: entities are put into the table, fields are added to them, columns
are registered and link tables are added, in any order and with names that may repeat. Whatever the
changes were, resolution fails exactly when the target of some registration is not in the table, and
it names the first such registration. Otherwise it adds to every entity the columns that were
registered for it and that it lacks, and changes nothing else. -/

namespace EntitySchema

/-! ## The first request with a target of some kind -/

namespace PendingColumns

variable {requests : List (EntityName × FieldName)} {target : EntityName} {column : FieldName}

/-- The first request with a target of some kind is the first of all requests with that target. -/
theorem head?_asked_of_find? (kind : EntityName → Bool)
    (h : requests.find? (kind ·.1) = some (target, column)) :
    (asked requests target).head? = some column := by
  obtain ⟨holds, front, others, rfl, before⟩ := List.find?_eq_some_iff_append.1 h
  -- the requests before have targets of another kind
  have none : front.filter (·.1 = target) = [] := by
    rw [List.filter_eq_nil_iff]
    intro request inside same
    have other := before request inside
    rw [of_decide_eq_true same, holds] at other
    cases other
  rw [asked, List.filter_append, none, List.nil_append, List.filter_cons_of_pos (by simp),
    List.map_cons, Repeats.head?_eraseDups, List.head?_cons]

/-- The first entry with a target of some kind is that of the first request with such a target. -/
theorem find?_askedByTarget (requests : List (EntityName × FieldName)) (kind : EntityName → Bool) :
    (askedByTarget requests).find? (kind ·.1) =
      (requests.find? (kind ·.1)).map fun request => (request.1, asked requests request.1) := by
  have targets : (requests.map (·.1)).eraseDups.find? kind =
      (requests.find? (kind ·.1)).map (·.1) := by
    rw [Repeats.find?_eraseDups, List.find?_map]
    rfl
  have sameKind : (fun entry : EntityName × List FieldName => kind entry.1) ∘
      (fun target => (target, asked requests target)) = kind := rfl
  rw [askedByTarget, List.find?_map, sameKind, targets, Option.map_map]
  rfl

/-- The columns that are pending for a target are those that were asked of it. -/
theorem columns?_askedByTarget (requests : List (EntityName × FieldName)) (target : EntityName) :
    (columns? ⟨askedByTarget requests⟩ target.text).getD [] = asked requests target := by
  rw [askedByTarget]
  by_cases known : target ∈ (requests.map (·.1)).eraseDups
  · rw [columns?_map known, Option.getD_some]
  · rw [columns?_map_of_not_mem known, Option.getD_none]
    rw [List.mem_eraseDups] at known
    exact (asked_eq_nil known).symm

end PendingColumns

namespace EntityTable

variable {table : EntityTable}

/-- Whether a table has no entity of a name. -/
def lacks (table : EntityTable) (name : EntityName) : Bool := !table.contains name.text

/-- A table lacks the names that none of its entities has. -/
theorem lacks_iff {name : EntityName} :
    table.lacks name = true ↔ name ∉ table.toList.map (·.name) := by
  rw [lacks, Bool.not_eq_true', ← Bool.not_eq_true, contains_text_iff]

/-- Tables with the same names lack the same names. -/
theorem lacks_congr {other : EntityTable}
    (same : other.toList.map (·.name) = table.toList.map (·.name)) : other.lacks = table.lacks := by
  funext name
  rw [Bool.eq_iff_iff, lacks_iff, lacks_iff, same]

/-- Putting an entity into a table keeps the names in it different. -/
theorem nodup_map_name_insert (distinct : (table.toList.map (·.name)).Nodup) (entity : Entity) :
    ((table.insert entity).2.toList.map (·.name)).Nodup := by
  rw [toList_insert distinct]
  split
  · rw [Entity.map_name_changeNamed fun other same => (EntityName.ext same).symm]
    exact distinct
  · rename_i new
    rw [List.map_append, List.map_singleton, List.nodup_append_comm, List.singleton_append,
      List.nodup_cons]
    exact ⟨new, distinct⟩

end EntityTable

namespace Declarations

variable {declarations : Declarations} {finish : EndOfSource} {error : SourceError}

/-! ## The first target that was not declared -/

/-- The error for a target that was not declared and a column that was asked of it. -/
def unresolved (finish : EndOfSource) (target : EntityName) (column : String) : SourceError :=
  ⟨.unresolvedReference target.text column, finish.line, .emptyAt finish.offset⟩

/-- Granting the columns of all targets fails at the first target that the table lacks, whatever was
granted to the targets before it. -/
theorem foldlM_grantAll_eq_error_iff {entries : List (EntityName × List FieldName)}
    {table : EntityTable} (distinct : (table.toList.map (·.name)).Nodup) :
    entries.foldlM (grantAll finish) table = .error error ↔
      ∃ target columns, entries.find? (table.lacks ·.1) = some (target, columns) ∧
        error = unresolved finish target ((columns.head?.map (·.text)).getD "") := by
  induction entries generalizing table with
  | nil =>
    constructor
    · intro h
      cases h
    · rintro ⟨target, columns, h, -⟩
      cases h
  | cons entry rest ih =>
    obtain ⟨target, columns⟩ := entry
    rw [List.foldlM_cons, Outcome.bind_eq_error_iff, List.find?_cons]
    cases known : table.lacks target with
    | true =>
      have refused : grantAll finish table (target, columns) =
          .error (unresolved finish target ((columns.head?.map (·.text)).getD "")) := by
        rw [EntityTable.lacks, Bool.not_eq_true'] at known
        rw [grantAll, known]
        rfl
      simp [refused, eq_comm]
    | false =>
      -- granting the columns of the first target keeps the names in the table
      have present : target ∈ table.toList.map (·.name) := by
        rwa [← Bool.not_eq_true, EntityTable.lacks_iff, not_not] at known
      let next : EntityTable :=
        ⟨Entity.changeNamed target.text (columns.foldl grant ·) table.toList⟩
      have granted : grantAll finish table (target, columns) = .ok next :=
        (grantAll_eq_ok_iff distinct).2 ⟨present, rfl⟩
      have names : next.toList.map (·.name) = table.toList.map (·.name) :=
        map_name_grantNamed target.text columns table.toList
      rw [granted]
      simp only [Except.ok.injEq, exists_eq_left', reduceCtorEq, false_or]
      rw [ih (by rwa [names]), EntityTable.lacks_congr names]

/-- Declarations with what is pending after some requests are not resolved when the table lacks the
target of a request, and the first such request is reported. -/
theorem resolve_eq_error_iff {requests : List (EntityName × FieldName)}
    (distinct : (declarations.entities.toList.map (·.name)).Nodup)
    (pending : declarations.pending = ⟨PendingColumns.askedByTarget requests⟩) :
    declarations.resolve finish = .error error ↔
      ∃ target column,
        requests.find? (declarations.entities.lacks ·.1) = some (target, column) ∧
          error = unresolved finish target column.text := by
  have failing : declarations.resolve finish = .error error ↔
      (PendingColumns.askedByTarget requests).foldlM (grantAll finish) declarations.entities =
        .error error := by
    rw [resolve, pending]
    cases (PendingColumns.askedByTarget requests).foldlM (grantAll finish)
      declarations.entities <;> simp
  have column : ∀ target column,
      requests.find? (declarations.entities.lacks ·.1) = some (target, column) →
        ((PendingColumns.asked requests target).head?.map (·.text)).getD "" = column.text := by
    intro target column found
    rw [PendingColumns.head?_asked_of_find? _ found]
    rfl
  rw [failing, foldlM_grantAll_eq_error_iff distinct, PendingColumns.find?_askedByTarget]
  constructor
  · rintro ⟨target, columns, h, rfl⟩
    obtain ⟨⟨other, first⟩, found, same⟩ := Option.map_eq_some_iff.1 h
    obtain ⟨rfl, rfl⟩ := Prod.mk.inj same
    exact ⟨other, first, found, by rw [column other first found]⟩
  · rintro ⟨target, first, found, rfl⟩
    refine ⟨target, PendingColumns.asked requests target, ?_, ?_⟩
    · rw [found, Option.map_some]
    · rw [column target first found]

/-- Declarations are not resolved exactly when the table lacks the target of some request. -/
theorem exists_resolve_eq_error_iff {requests : List (EntityName × FieldName)}
    (distinct : (declarations.entities.toList.map (·.name)).Nodup)
    (pending : declarations.pending = ⟨PendingColumns.askedByTarget requests⟩) :
    (∃ error, declarations.resolve finish = .error error) ↔
      ∃ request ∈ requests, declarations.entities.lacks request.1 = true := by
  simp only [resolve_eq_error_iff distinct pending]
  constructor
  · rintro ⟨error, target, column, found, -⟩
    have lacking := List.find?_some found
    exact ⟨(target, column), List.mem_of_find?_eq_some found, lacking⟩
  · rintro ⟨request, inside, lacking⟩
    have present : (requests.find? (declarations.entities.lacks ·.1)).isSome = true :=
      List.find?_isSome.2 ⟨request, inside, lacking⟩
    obtain ⟨⟨target, column⟩, found⟩ := Option.isSome_iff_exists.1 present
    exact ⟨_, target, column, found, rfl⟩

/-! ## Changes -/

/-- One change to declarations. -/
inductive Change where
  /-- Puts an entity into the table. -/
  | insert (entity : Entity)
  /-- Adds a field to the entity of a name, if the table has one. -/
  | addField (name : String) (field : Field)
  /-- Registers a column for a target. -/
  | register (target : EntityName) (column : FieldName)
  /-- Adds a link table. -/
  | link (table : LinkTable)
  deriving DecidableEq, Repr

/-- The registration that a change makes. -/
def Change.registration? : Change → Option (EntityName × FieldName)
  | .register target column => some (target, column)
  | .insert _ | .addField _ _ | .link _ => none

/-- The declarations after one change. -/
def apply (declarations : Declarations) : Change → Declarations
  | .insert entity =>
    { declarations with entities := (declarations.entities.insert entity).2 }
  | .addField name field =>
    { declarations with entities := declarations.entities.modify name (·.addField field) }
  | .register target column =>
    { declarations with pending := (declarations.pending.register target column).2 }
  | .link table => { declarations with links := declarations.links ++ [table] }

/-- The declarations after changes to none. -/
def ofChanges (changes : List Change) : Declarations := changes.foldl apply empty

/-- The registrations among changes, in their order. -/
def registrations (changes : List Change) : List (EntityName × FieldName) :=
  changes.filterMap Change.registration?

/-- One more change is applied after the others. -/
theorem ofChanges_concat (changes : List Change) (last : Change) :
    ofChanges (changes ++ [last]) = (ofChanges changes).apply last := by
  rw [ofChanges, List.foldl_concat]
  rfl

/-- One change keeps the names in the table different. -/
theorem nodup_map_name_apply (distinct : (declarations.entities.toList.map (·.name)).Nodup)
    (change : Change) : ((declarations.apply change).entities.toList.map (·.name)).Nodup := by
  cases change with
  | insert entity => exact EntityTable.nodup_map_name_insert distinct entity
  | addField name field =>
    rw [apply, EntityTable.toList_modify distinct,
      Entity.map_name_changeNamed fun entity _ => entity.name_addField field]
    exact distinct
  | register target column => exact distinct
  | link table => exact distinct

/-- After a change there is pending what was pending before and what the change registers. -/
theorem pending_apply (declarations : Declarations) (change : Change) :
    (declarations.apply change).pending =
      declarations.pending.registerAll change.registration?.toList := by
  cases change <;> rfl

/-- The names in a table that was built by changes differ. -/
theorem nodup_map_name_ofChanges (changes : List Change) :
    ((ofChanges changes).entities.toList.map (·.name)).Nodup := by
  induction changes using List.reverseRecOn with
  | nil => exact List.nodup_nil
  | append_singleton front last ih =>
    rw [ofChanges_concat]
    exact nodup_map_name_apply ih last

/-- What is pending after changes are their registrations, by target. -/
theorem pending_ofChanges (changes : List Change) :
    (ofChanges changes).pending = ⟨PendingColumns.askedByTarget (registrations changes)⟩ := by
  rw [← PendingColumns.registerAll_empty]
  induction changes using List.reverseRecOn with
  | nil => rfl
  | append_singleton front last ih =>
    have split : registrations (front ++ [last]) =
        registrations front ++ last.registration?.toList := by
      rw [registrations, List.filterMap_append]
      cases last <;> rfl
    rw [ofChanges_concat, pending_apply, ih, split, PendingColumns.registerAll_append]

/-- After any changes, resolution fails exactly when the target of some registration has no entity,
and the first such registration is reported at the end of the source. Otherwise the link tables stay
as they are, and so do the entities, in their order, up to their fields: each entity has, after its
own fields, a foreign key for each of the columns that are pending for it and that it lacks. These
are the columns that were registered for it, each of them once, in the order of their first
registrations. -/
theorem resolve_ofChanges (changes : List Change) (finish : EndOfSource) :
    (∀ target, ((ofChanges changes).pending.columns? target.text).getD [] =
      PendingColumns.asked (registrations changes) target) ∧
    ((∃ error, (ofChanges changes).resolve finish = .error error) ↔
      ∃ request ∈ registrations changes, (ofChanges changes).entities.lacks request.1 = true) ∧
    (∀ error, (ofChanges changes).resolve finish = .error error ↔
      ∃ target column,
        (registrations changes).find? ((ofChanges changes).entities.lacks ·.1) =
          some (target, column) ∧
        error = ⟨.unresolvedReference target.text column.text, finish.line,
          .emptyAt finish.offset⟩) ∧
    ∀ schema, (ofChanges changes).resolve finish = .ok schema ↔
      (∀ request ∈ registrations changes,
        (ofChanges changes).entities.contains request.1.text = true) ∧
      schema.entities = ((ofChanges changes).entities.toList.map fun entity =>
        { entity with fields := entity.fields ++
          ((PendingColumns.asked (registrations changes) entity.name).filter
            (!entity.hasField ·)).map Field.foreignKey }) ∧
      schema.links = (ofChanges changes).links := by
  have distinct := nodup_map_name_ofChanges changes
  have pending := pending_ofChanges changes
  refine ⟨fun target => ?_, exists_resolve_eq_error_iff distinct pending,
    fun error => resolve_eq_error_iff distinct pending, fun schema => ?_⟩
  · rw [pending]
    exact PendingColumns.columns?_askedByTarget (registrations changes) target
  · obtain ⟨entities, links⟩ := schema
    simp only [resolve_eq_ok_iff distinct pending, EntityTable.contains_text_iff, Schema.mk.injEq]
    rfl

end Declarations

end EntitySchema
