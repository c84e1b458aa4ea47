import Mathlib.Data.List.Induction
import Mathlib.Data.List.Nodup

/-! # Lists without their repeats

`List.eraseDups` keeps the first occurrence of every item. Tables grow at their end, so what is
needed is how the result changes when one more item, or one more list of items, is appended. -/

namespace EntitySchema.Repeats

variable {α β : Type} [DecidableEq α]

/-- An item that is appended is kept unless it occurred before. -/
theorem eraseDups_concat (items : List α) (last : α) :
    (items ++ [last]).eraseDups =
      if last ∈ items then items.eraseDups else items.eraseDups ++ [last] := by
  rw [List.eraseDups_append]
  split
  · rename_i old
    simp [List.removeAll, old]
  · rename_i new
    simp [List.removeAll, new, List.eraseDups_cons]

/-- Nothing is left twice. -/
theorem nodup_eraseDups (items : List α) : items.eraseDups.Nodup := by
  induction items using List.reverseRecOn with
  | nil => exact List.nodup_nil
  | append_singleton front last ih =>
    rw [eraseDups_concat]
    split
    · exact ih
    · rename_i new
      rw [List.nodup_append_comm, List.singleton_append, List.nodup_cons, List.mem_eraseDups]
      exact ⟨new, ih⟩

/-- Whether some items are the items of a list, each once and in the order in which they occur
first. -/
structure FirstOccurrences (items kept : List α) : Prop where
  /-- Nothing is kept twice. -/
  nodup : kept.Nodup
  /-- What is kept is what occurs. -/
  mem_iff : ∀ item, item ∈ kept ↔ item ∈ items
  /-- What is kept first occurs first. -/
  ordered : kept.Pairwise fun first second => items.idxOf first < items.idxOf second

/-- Erasing repeats keeps the first occurrences. -/
theorem firstOccurrences_eraseDups (items : List α) : FirstOccurrences items items.eraseDups := by
  refine ⟨nodup_eraseDups items, fun item => List.mem_eraseDups, ?_⟩
  induction items using List.reverseRecOn with
  | nil => exact List.Pairwise.nil
  | append_singleton front last ih =>
    -- one more item at the end moves no first occurrence
    have kept : front.eraseDups.Pairwise fun first second =>
        (front ++ [last]).idxOf first < (front ++ [last]).idxOf second := by
      refine ih.imp_of_mem fun {first second} firstIn secondIn before => ?_
      rw [List.idxOf_append_of_mem (List.mem_eraseDups.1 firstIn),
        List.idxOf_append_of_mem (List.mem_eraseDups.1 secondIn)]
      exact before
    rw [eraseDups_concat]
    split
    · exact kept
    · rename_i new
      refine List.pairwise_append.2 ⟨kept, List.pairwise_singleton _ _, ?_⟩
      intro first firstIn second secondIn
      obtain rfl := List.mem_singleton.1 secondIn
      have old : first ∈ front := List.mem_eraseDups.1 firstIn
      rw [List.idxOf_append_of_mem old, List.idxOf_append_of_notMem new]
      exact Nat.lt_add_right _ (List.idxOf_lt_length_of_mem old)

/-- Erasing repeats and dropping items can be done in either order. -/
theorem eraseDups_filter (keep : α → Bool) (items : List α) :
    (items.filter keep).eraseDups = items.eraseDups.filter keep := by
  induction items using List.reverseRecOn with
  | nil => rfl
  | append_singleton front last ih =>
    rw [List.filter_append, eraseDups_concat]
    by_cases kept : keep last = true
    · have member : last ∈ front.filter keep ↔ last ∈ front := by
        rw [List.mem_filter, and_iff_left kept]
      simp only [List.filter_cons, kept, if_true, List.filter_nil, eraseDups_concat, member, ih]
      split
      · rfl
      · rw [List.filter_append, List.filter_cons, if_pos kept, List.filter_nil]
    · rw [List.filter_cons, if_neg kept, List.filter_nil, List.append_nil, ih]
      split
      · rfl
      · rw [List.filter_append, List.filter_cons, if_neg kept, List.filter_nil, List.append_nil]

/-- The first item is never a repeat. -/
theorem head?_eraseDups (items : List α) : items.eraseDups.head? = items.head? := by
  cases items with
  | nil => rfl
  | cons first rest => rw [List.eraseDups_cons, List.head?_cons, List.head?_cons]

/-- The first item of some kind is not a repeat. -/
theorem find?_eraseDups (kind : α → Bool) (items : List α) :
    items.eraseDups.find? kind = items.find? kind := by
  rw [← List.head?_filter, ← eraseDups_filter, head?_eraseDups, List.head?_filter]

/-- One item is left of a list of equal items. -/
theorem eraseDups_of_forall_eq {items : List α} {item : α} (h : ∀ other ∈ items, other = item) :
    items.eraseDups = if item ∈ items then [item] else [] := by
  induction items using List.reverseRecOn with
  | nil => rfl
  | append_singleton front last ih =>
    rw [List.forall_mem_append, List.forall_mem_singleton] at h
    obtain ⟨others, rfl⟩ := h
    rw [eraseDups_concat, ih others, if_pos (List.mem_append_right front List.mem_cons_self)]
    by_cases old : last ∈ front
    · rw [if_pos old, if_pos old]
    · rw [if_neg old, if_neg old, List.nil_append]

/-- Lists put together have the same first occurrences when the parts have. -/
theorem eraseDups_flatMap_congr {items : List β} {left right : β → List α}
    (h : ∀ item ∈ items, (left item).eraseDups = (right item).eraseDups) :
    (items.flatMap left).eraseDups = (items.flatMap right).eraseDups := by
  induction items using List.reverseRecOn with
  | nil => rfl
  | append_singleton front last ih =>
    have same : (front.flatMap left).eraseDups = (front.flatMap right).eraseDups :=
      ih fun item inside => h item (List.mem_append_left _ inside)
    have members : ∀ a, a ∈ front.flatMap left ↔ a ∈ front.flatMap right := fun a => by
      rw [← List.mem_eraseDups, same, List.mem_eraseDups]
    -- what is new in the last part depends only on what occurred before it
    have tail : ((left last).removeAll (front.flatMap left)).eraseDups =
        ((right last).removeAll (front.flatMap right)).eraseDups := by
      have keeps : (fun a => !(front.flatMap left).elem a) =
          fun a => !(front.flatMap right).elem a := by
        funext a
        simp only [List.elem_eq_mem, members]
      rw [List.removeAll, List.removeAll, eraseDups_filter, eraseDups_filter, keeps,
        h last (by simp)]
    rw [List.flatMap_append, List.flatMap_append, List.eraseDups_append, List.eraseDups_append,
      same, List.flatMap_singleton, List.flatMap_singleton, tail]

end EntitySchema.Repeats
