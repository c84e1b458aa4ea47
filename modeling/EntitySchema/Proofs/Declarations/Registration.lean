import EntitySchema.Proofs.Declarations.Columns

/-! # Registering requests

Every request is answered by whether it is new. The answers and what is pending afterwards are
determined by the requests alone: which of them are repeats, which targets they have, and in which
order targets and columns were asked for first. -/

namespace EntitySchema.PendingColumns

open Repeats

/-- The answers to requests, each of which is registered before the next one is answered. -/
def answers (pending : PendingColumns) : List (EntityName × FieldName) → List Bool
  | [] => []
  | request :: rest =>
    let (isNew, next) := pending.register request.1 request.2
    isNew :: answers next rest

variable {pending : PendingColumns} {requests : List (EntityName × FieldName)}
  {target : EntityName} {columns : List FieldName} {name : String}

/-! ## Answers -/

/-- After requests, another one is answered by whether it is none of them. -/
theorem register_registerAll (requests : List (EntityName × FieldName))
    (request : EntityName × FieldName) :
    ((registerAll empty requests).register request.1 request.2).1 =
      decide (request ∉ requests) := by
  rw [registerAll_empty]
  by_cases old : request ∈ requests
  · rw [register_of_contains (contains_askedByTarget.2 old), decide_eq_false (not_not_intro old)]
  · have absent : contains ⟨askedByTarget requests⟩ request.1 request.2 = false := by
      rw [Bool.eq_false_iff, Ne, contains_askedByTarget]
      exact old
    rw [register_of_not_contains absent, decide_eq_true old]

/-- After earlier requests, each request is answered by whether it was made neither earlier nor
before it in the list. -/
theorem getElem?_answers_registerAll (earlier requests : List (EntityName × FieldName))
    (place : Nat) :
    (answers (registerAll empty earlier) requests)[place]? =
      requests[place]?.map fun request => decide (request ∉ earlier ++ requests.take place) := by
  induction requests generalizing earlier place with
  | nil => rfl
  | cons request rest ih =>
    rw [answers]
    cases place with
    | zero => simp [register_registerAll]
    | succ place =>
      have next : ((registerAll empty earlier).register request.1 request.2).2 =
          registerAll empty (earlier ++ [request]) := by
        rw [registerAll_append]
        rfl
      rw [List.getElem?_cons_succ, next, ih, List.getElem?_cons_succ, List.take_succ_cons,
        ← List.append_cons]

/-! ## Sizes -/

/-- Adding a column to its entry makes for one column more. -/
theorem size_addTo (target : EntityName) (column : FieldName)
    (entries : List (EntityName × List FieldName)) :
    size ⟨addTo target column entries⟩ = size ⟨entries⟩ + 1 := by
  induction entries with
  | nil => rfl
  | cons entry rest ih =>
    obtain ⟨name, columns⟩ := entry
    rw [size, size] at ih ⊢
    rw [addTo]
    split
    · simp only [List.foldr_cons, List.length_append, List.length_singleton]
      omega
    · simp only [List.foldr_cons, ih]
      omega

/-- A request makes for one column more when it is answered to be new. -/
theorem size_register (pending : PendingColumns) (target : EntityName) (column : FieldName) :
    (pending.register target column).2.size =
      pending.size + (pending.register target column).1.toNat := by
  rw [register]
  split
  · rfl
  · exact size_addTo target column pending.entries

/-- Requests make for as many columns more as are answered to be new. -/
theorem size_registerAll (pending : PendingColumns) (requests : List (EntityName × FieldName)) :
    (pending.registerAll requests).size = pending.size + (pending.answers requests).count true := by
  induction requests generalizing pending with
  | nil => rfl
  | cons request rest ih =>
    have step := size_register pending request.1 request.2
    rw [registerAll, List.foldl_cons, ← registerAll, ih, step, answers, List.count_cons]
    cases (pending.register request.1 request.2).1 <;> simp [Nat.add_assoc, Nat.add_comm 1]

/-- Nothing is registered when there are no columns, unless a target has none. -/
theorem isEmpty_iff_size_eq_zero (filled : ∀ entry ∈ pending.entries, entry.2 ≠ []) :
    pending.isEmpty = true ↔ pending.size = 0 := by
  rw [isEmpty, List.isEmpty_iff, size]
  cases entries : pending.entries with
  | nil => exact iff_of_true rfl rfl
  | cons entry rest =>
    have some : 0 < entry.2.length :=
      List.length_pos_iff.2 (filled entry (entries ▸ List.mem_cons_self))
    rw [List.foldr_cons]
    exact iff_of_false (List.cons_ne_nil _ _) (by omega)

/-! ## Entries -/

/-- The entries are those of the targets, with what is asked of each. -/
theorem mem_askedByTarget_iff :
    (target, columns) ∈ askedByTarget requests ↔
      target ∈ requests.map (·.1) ∧ columns = asked requests target := by
  rw [askedByTarget, List.mem_map]
  constructor
  · rintro ⟨name, known, same⟩
    obtain ⟨rfl, rfl⟩ := Prod.mk.inj same
    exact ⟨List.mem_eraseDups.1 known, rfl⟩
  · rintro ⟨known, rfl⟩
    exact ⟨target, List.mem_eraseDups.2 known, rfl⟩

/-- Something is asked of every target. -/
theorem asked_ne_nil (h : target ∈ requests.map (·.1)) : asked requests target ≠ [] := by
  obtain ⟨request, inside, rfl⟩ := List.mem_map.1 h
  exact List.ne_nil_of_mem (mem_asked_iff.2 inside)

/-- The columns that are found by a name are those in the entry of the target with that name. -/
theorem columns?_askedByTarget_eq_some_iff :
    columns? ⟨askedByTarget requests⟩ name = some columns ↔
      ∃ target : EntityName, target.text = name ∧ (target, columns) ∈ askedByTarget requests := by
  constructor
  · intro h
    obtain ⟨⟨target, _⟩, found, rfl⟩ := Option.map_eq_some_iff.1 h
    have named := List.find?_some found
    exact ⟨target, beq_iff_eq.1 named, List.mem_of_find?_eq_some found⟩
  · rintro ⟨target, rfl, inside⟩
    obtain ⟨known, rfl⟩ := mem_askedByTarget_iff.1 inside
    exact columns?_map (List.mem_eraseDups.2 known)

/-- No columns are found by a name when there was no request with a target of that name. -/
theorem columns?_askedByTarget_eq_none_iff :
    columns? ⟨askedByTarget requests⟩ name = none ↔
      ∀ request ∈ requests, request.1.text ≠ name := by
  rw [Option.eq_none_iff_forall_ne_some]
  constructor
  · rintro absent request inside rfl
    exact absurd (columns?_map (List.mem_eraseDups.2 (List.mem_map_of_mem inside))) (absent _)
  · rintro others columns found
    obtain ⟨target, rfl, inside⟩ := columns?_askedByTarget_eq_some_iff.1 found
    obtain ⟨request, made, rfl⟩ := List.mem_map.1 (mem_askedByTarget_iff.1 inside).1
    exact others request made rfl

/-! ## What is said of requests -/

/-- Whether answers, and what is pending after them, say of requests what they asked for. -/
structure Registered (requests : List (EntityName × FieldName)) (answers : List Bool)
    (pending : PendingColumns) : Prop where
  /-- A request is answered to be new exactly when it was not made before. -/
  answers_eq : ∀ place : Nat, answers[place]? =
    requests[place]?.map fun request => decide (request ∉ requests.take place)
  /-- Each target has one entry, in the order of the first requests. -/
  targets : FirstOccurrences (requests.map (·.1)) (pending.entries.map (·.1))
  /-- Each entry has some columns: those that were asked of its target, each once, in the order in
  which they were first asked. -/
  columns : ∀ target columns, (target, columns) ∈ pending.entries → columns ≠ [] ∧
    FirstOccurrences ((requests.filter (·.1 = target)).map (·.2)) columns
  /-- The columns found by a name are those in the entry of the target with exactly that name. -/
  columns?_eq_some_iff : ∀ name columns, pending.columns? name = some columns ↔
    ∃ target : EntityName, target.text = name ∧ (target, columns) ∈ pending.entries
  /-- Nothing is found by a name when no request has a target of that name. -/
  columns?_eq_none_iff : ∀ name, pending.columns? name = none ↔
    ∀ request ∈ requests, request.1.text ≠ name
  /-- There are as many columns as requests that were answered to be new. -/
  size_eq : pending.size = answers.count true
  /-- Nothing is pending when there are no columns. -/
  isEmpty_iff : pending.isEmpty = true ↔ pending.size = 0

/-- Registering requests one after the other, when nothing is pending yet, answers which of them are
new, and leaves pending what they asked for. -/
theorem registered_registerAll (requests : List (EntityName × FieldName)) :
    Registered requests (answers empty requests) (registerAll empty requests) := by
  have targets : (askedByTarget requests).map (·.1) = (requests.map (·.1)).eraseDups := by
    rw [askedByTarget, List.map_map]
    exact List.map_id _
  have sizes := size_registerAll empty requests
  have given := getElem?_answers_registerAll [] requests
  rw [registerAll_empty] at sizes ⊢
  refine ⟨given, ?_, fun target columns inside => ?_, fun _ _ => columns?_askedByTarget_eq_some_iff,
    fun _ => columns?_askedByTarget_eq_none_iff, sizes.trans (Nat.zero_add _),
    isEmpty_iff_size_eq_zero fun entry inside => ?_⟩
  · rw [targets]
    exact firstOccurrences_eraseDups _
  · obtain ⟨known, rfl⟩ := mem_askedByTarget_iff.1 inside
    exact ⟨asked_ne_nil known, firstOccurrences_eraseDups _⟩
  · obtain ⟨known, same⟩ := mem_askedByTarget_iff.1 inside
    rw [same]
    exact asked_ne_nil known

end EntitySchema.PendingColumns
