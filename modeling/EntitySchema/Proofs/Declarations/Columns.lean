import EntitySchema.Declarations.PendingColumns
import EntitySchema.Proofs.Declarations.Repeats

/-! # What is pending after a list of requests

A request asks a target to carry a column. After any list of requests, the targets stand in the
order of their first requests, and each has the columns that were asked of it, in the order in which
each of them was first asked. -/

namespace EntitySchema.PendingColumns

open Repeats

/-- The columns that are asked of a target, in the order in which each was first asked. -/
def asked (requests : List (EntityName × FieldName)) (target : EntityName) : List FieldName :=
  ((requests.filter (·.1 = target)).map (·.2)).eraseDups

/-- Everything that is asked, by target, in the order of the first requests. -/
def askedByTarget (requests : List (EntityName × FieldName)) :
    List (EntityName × List FieldName) :=
  (requests.map (·.1)).eraseDups.map fun target => (target, asked requests target)

/-- What is pending after requests that follow others. -/
def registerAll (pending : PendingColumns) (requests : List (EntityName × FieldName)) :
    PendingColumns :=
  requests.foldl (fun pending request => (pending.register request.1 request.2).2) pending

/-- Requests are registered in their order. -/
theorem registerAll_append (pending : PendingColumns)
    (first second : List (EntityName × FieldName)) :
    pending.registerAll (first ++ second) = (pending.registerAll first).registerAll second :=
  List.foldl_append

/-! ## The columns that are asked of a target -/

variable {requests : List (EntityName × FieldName)} {target : EntityName} {column : FieldName}

/-- A column is asked of a target when there is a request for it. -/
theorem mem_asked_iff : column ∈ asked requests target ↔ (target, column) ∈ requests := by
  rw [asked, List.mem_eraseDups, List.mem_map]
  constructor
  · rintro ⟨request, chosen, rfl⟩
    obtain ⟨inside, same⟩ := List.mem_filter.1 chosen
    obtain rfl := of_decide_eq_true same
    exact inside
  · intro inside
    exact ⟨(target, column), List.mem_filter.2 ⟨inside, by simp⟩, rfl⟩

/-- Nothing is asked of a name that is no target. -/
theorem asked_eq_nil (h : target ∉ requests.map (·.1)) : asked requests target = [] := by
  rw [List.eq_nil_iff_forall_not_mem]
  intro column inside
  exact h (List.mem_map_of_mem (mem_asked_iff.1 inside))

/-- No column is asked of a target twice. -/
theorem nodup_asked (requests : List (EntityName × FieldName)) (target : EntityName) :
    (asked requests target).Nodup :=
  nodup_eraseDups _

/-- One more request asks its target for its column, unless that was asked before. -/
theorem asked_concat (requests : List (EntityName × FieldName)) (last : EntityName × FieldName)
    (target : EntityName) :
    asked (requests ++ [last]) target =
      if last.1 = target ∧ last ∉ requests then asked requests target ++ [last.2]
      else asked requests target := by
  obtain ⟨name, column⟩ := last
  by_cases here : name = target
  · subst here
    have member : column ∈ (requests.filter (·.1 = name)).map (·.2) ↔
        (name, column) ∈ requests := by
      rw [← mem_asked_iff, asked, List.mem_eraseDups]
    rw [asked, List.filter_append, List.map_append, List.filter_singleton]
    simp only [decide_true, cond_true, List.map_singleton, eraseDups_concat, member, true_and]
    by_cases old : (name, column) ∈ requests
    · rw [if_pos old, if_neg (not_not_intro old), asked]
    · rw [if_neg old, if_pos old, asked]
  · rw [if_neg fun h => here h.1, asked, List.filter_append, List.filter_singleton]
    simp [here, asked]

/-! ## Adding to an entry -/

variable {names : List EntityName} {columns : EntityName → List FieldName}

/-- A column is added to the entry of a target that has one. -/
theorem addTo_of_mem (distinct : names.Nodup) (h : target ∈ names) :
    addTo target column (names.map fun name => (name, columns name)) =
      names.map fun name =>
        (name, if name = target then columns name ++ [column] else columns name) := by
  induction names with
  | nil => cases h
  | cons first rest ih =>
    rw [List.nodup_cons] at distinct
    rw [List.map_cons, addTo, List.map_cons]
    by_cases here : first = target
    · subst here
      rw [if_pos rfl, if_pos rfl]
      congr 1
      apply List.map_congr_left
      intro name inside
      rw [if_neg]
      rintro rfl
      exact distinct.1 inside
    · rw [if_neg here, if_neg here, ih distinct.2]
      exact (List.mem_cons.1 h).resolve_left (Ne.symm here)

/-- A target without an entry gets one at the end. -/
theorem addTo_of_not_mem (h : target ∉ names) :
    addTo target column (names.map fun name => (name, columns name)) =
      (names.map fun name => (name, columns name)) ++ [(target, [column])] := by
  induction names with
  | nil => rfl
  | cons first rest ih =>
    rw [List.mem_cons, not_or] at h
    rw [List.map_cons, addTo, if_neg (Ne.symm h.1), ih h.2, List.cons_append]

/-! ## Registering requests -/

/-- The columns of an entry are found by the name of its target. -/
theorem columns?_map (h : target ∈ names) :
    columns? ⟨names.map fun name => (name, columns name)⟩ target.text = some (columns target) := by
  have same : (fun entry : EntityName × List FieldName => entry.1.text == target.text) ∘
      (fun name => (name, columns name)) = (· == target) := by
    funext name
    rw [Bool.eq_iff_iff]
    simp [EntityName.ext_iff]
  have present : (names.find? (· == target)).isSome = true :=
    List.find?_isSome.2 ⟨target, h, beq_self_eq_true target⟩
  obtain ⟨found, isFirst⟩ := Option.isSome_iff_exists.1 present
  have exact : found = target := by simpa using List.find?_some isFirst
  rw [columns?, List.find?_map, same, isFirst, exact]
  rfl

/-- A name that is no target has no entry. -/
theorem columns?_map_of_not_mem (h : target ∉ names) :
    columns? ⟨names.map fun name => (name, columns name)⟩ target.text = none := by
  rw [columns?, Option.map_eq_none_iff, List.find?_eq_none, List.forall_mem_map]
  intro name inside same
  obtain rfl : name = target := EntityName.ext (beq_iff_eq.1 same)
  exact h inside

/-- What is pending after requests are exactly their columns. -/
theorem contains_askedByTarget :
    contains ⟨askedByTarget requests⟩ target column = true ↔ (target, column) ∈ requests := by
  rw [contains, askedByTarget]
  by_cases known : target ∈ (requests.map (·.1)).eraseDups
  · rw [columns?_map known]
    simp [mem_asked_iff]
  · rw [columns?_map_of_not_mem known]
    constructor
    · intro h
      cases h
    · intro inside
      exact absurd (List.mem_eraseDups.2 (List.mem_map_of_mem inside)) known

/-- A request that was made before asks for nothing more. -/
theorem askedByTarget_concat_of_mem {request : EntityName × FieldName} (old : request ∈ requests) :
    askedByTarget (requests ++ [request]) = askedByTarget requests := by
  have known : request.1 ∈ requests.map (·.1) := List.mem_map_of_mem old
  have unchanged : ∀ target, asked (requests ++ [request]) target = asked requests target := by
    intro target
    rw [asked_concat, if_neg fun h => h.2 old]
  rw [askedByTarget, askedByTarget, List.map_append, List.map_singleton, eraseDups_concat,
    if_pos known]
  simp only [unchanged]

/-- A request that was not made before is added for its target. -/
theorem askedByTarget_concat_of_not_mem (new : (target, column) ∉ requests) :
    askedByTarget (requests ++ [(target, column)]) =
      addTo target column (askedByTarget requests) := by
  have others : ∀ name, asked (requests ++ [(target, column)]) name =
      if name = target then asked requests name ++ [column] else asked requests name := by
    intro name
    rw [asked_concat]
    by_cases here : name = target
    · rw [if_pos here, if_pos ⟨here.symm, new⟩]
    · rw [if_neg here, if_neg fun h => here h.1.symm]
  rw [askedByTarget, askedByTarget, List.map_append, List.map_singleton, eraseDups_concat]
  simp only [others]
  by_cases known : target ∈ requests.map (·.1)
  · -- the target has an entry, which gets the column
    rw [if_pos known]
    exact (addTo_of_mem (nodup_eraseDups _) (List.mem_eraseDups.2 known)).symm
  · -- the target is new, so nothing was asked of it
    rw [if_neg known, addTo_of_not_mem fun h => known (List.mem_eraseDups.1 h), List.map_append,
      List.map_singleton, if_pos rfl, asked_eq_nil known, List.nil_append]
    congr 1
    apply List.map_congr_left
    intro name inside
    rw [if_neg]
    rintro rfl
    exact known (List.mem_eraseDups.1 inside)

/-- Registering requests one after the other leaves what is asked by target. -/
theorem registerAll_empty (requests : List (EntityName × FieldName)) :
    registerAll empty requests = ⟨askedByTarget requests⟩ := by
  induction requests using List.reverseRecOn with
  | nil => rfl
  | append_singleton front last ih =>
    obtain ⟨target, column⟩ := last
    rw [registerAll, List.foldl_concat, ← registerAll, ih]
    by_cases old : (target, column) ∈ front
    · rw [register_of_contains (contains_askedByTarget.2 old), askedByTarget_concat_of_mem old]
    · have absent : contains ⟨askedByTarget front⟩ target column = false := by
        rw [Bool.eq_false_iff, Ne, contains_askedByTarget]
        exact old
      rw [register_of_not_contains absent, askedByTarget_concat_of_not_mem old]

end EntitySchema.PendingColumns
