import EntitySchema.Json.Decode
import EntitySchema.Proofs.Outcome
import Mathlib.Data.List.Forall2

/-! # Objects with members added and left out

A reader of objects passes over the members that it does not know, and takes its default for a
member that is missing. So it reads the same when unknown members are added, when members that hold
their default are left out, and when the value of a member is changed in a way that it does not
see. -/

namespace EntitySchema

namespace Json

/-! ## Members -/

/-- Whether the members of an object become others when unknown ones are added, ones that hold their
default are left out, and values are changed from within. -/
inductive MembersLoosened (keys : List String) (defaults : List (String × Json))
    (changed : String → Json → Json → Prop) :
    List (String × Json) → List (String × Json) → Prop where
  /-- There are no members. -/
  | nil : MembersLoosened keys defaults changed [] []
  /-- A member stays. -/
  | kept (member : String × Json) {members others : List (String × Json)}
      (rest : MembersLoosened keys defaults changed members others) :
      MembersLoosened keys defaults changed (member :: members) (member :: others)
  /-- The value of a member is changed from within. -/
  | within {key : String} {value other : Json} (inner : changed key value other)
      {members others : List (String × Json)}
      (rest : MembersLoosened keys defaults changed members others) :
      MembersLoosened keys defaults changed ((key, value) :: members) ((key, other) :: others)
  /-- A member is added whose key is unknown. -/
  | added {key : String} (unknown : key ∉ keys) (value : Json)
      {members others : List (String × Json)}
      (rest : MembersLoosened keys defaults changed members others) :
      MembersLoosened keys defaults changed members ((key, value) :: others)
  /-- The only member of its key is left out, since it holds its default. -/
  | leftOut {key : String} {value : Json} (default : (key, value) ∈ defaults)
      {members others : List (String × Json)} (alone : key ∉ members.map (·.1))
      (rest : MembersLoosened keys defaults changed members others) :
      MembersLoosened keys defaults changed ((key, value) :: members) others

/-- Whether an object becomes another when its members are loosened. -/
inductive ObjectLoosened (keys : List String) (defaults : List (String × Json))
    (changed : String → Json → Json → Prop) : Json → Json → Prop where
  /-- Both are objects. -/
  | object {members others : List (String × Json)}
      (h : MembersLoosened keys defaults changed members others) :
      ObjectLoosened keys defaults changed (.object members) (.object others)

/-- Whether an array becomes another when its items are loosened. -/
inductive ItemsLoosened (item : Json → Json → Prop) : Json → Json → Prop where
  /-- Both are arrays. -/
  | array {items others : List Json} (h : List.Forall₂ item items others) :
      ItemsLoosened item (.array items) (.array others)

/-! ## Parts -/

section Parts

variable {α β : Type} {key : α → String} {IsDefault : α → Prop} {parts others : List α}

/-- Whether read members are others but for some that are left out, each the only one of its key and
one that holds its default. -/
inductive PartsLoosened (key : α → String) (IsDefault : α → Prop) : List α → List α → Prop where
  /-- There are no members. -/
  | nil : PartsLoosened key IsDefault [] []
  /-- A member stays. -/
  | kept (part : α) {parts others : List α} (rest : PartsLoosened key IsDefault parts others) :
      PartsLoosened key IsDefault (part :: parts) (part :: others)
  /-- A member is left out. -/
  | leftOut {part : α} {parts others : List α} (default : IsDefault part)
      (alone : key part ∉ parts.map key) (rest : PartsLoosened key IsDefault parts others) :
      PartsLoosened key IsDefault (part :: parts) others

/-- What is left of the read members was there before. -/
theorem PartsLoosened.subset (h : PartsLoosened key IsDefault parts others) : others ⊆ parts := by
  induction h with
  | nil => exact List.Subset.refl _
  | kept part _ ih => exact List.cons_subset_cons part ih
  | leftOut _ _ _ ih => exact List.Subset.trans ih (List.subset_cons_self _ _)

/-- A member that must be present is found among those that are left. -/
theorem PartsLoosened.require_eq (h : PartsLoosened key IsDefault parts others)
    {select : α → Option β} (never : ∀ part value, select part = some value → ¬ IsDefault part) :
    require select others = require select parts := by
  have found : others.findSome? select = parts.findSome? select := by
    induction h with
    | nil => rfl
    | kept part _ ih => rw [List.findSome?_cons, List.findSome?_cons, ih]
    | @leftOut part parts others default _ _ ih =>
      rw [List.findSome?_cons]
      cases selected : select part with
      | none => exact ih
      | some value => exact absurd default (never part value selected)
  rw [require, require, found]

/-- A member that may be left out is found among those that are left, or missing with its
default. -/
theorem PartsLoosened.optional_eq (h : PartsLoosened key IsDefault parts others)
    {select : α → Option β} {absent : β} (name : String)
    (only : ∀ part value, select part = some value →
      key part = name ∧ (IsDefault part → value = absent)) :
    optional select absent others = optional select absent parts := by
  induction h with
  | nil => rfl
  | kept part _ ih =>
    rw [optional, optional, List.findSome?_cons, List.findSome?_cons]
    cases select part with
    | none => exact ih
    | some value => rfl
  | @leftOut part parts others default alone rest ih =>
    rw [optional, optional, List.findSome?_cons]
    cases selected : select part with
    | none => exact ih
    | some value =>
      -- no other member has the key, so none is found among those that are left
      have none : others.findSome? select = none := by
        rw [List.findSome?_eq_none_iff]
        intro other inside
        cases twin : select other with
        | none => rfl
        | some _ =>
          have same : key other = key part :=
            (only other _ twin).1.trans (only part value selected).1.symm
          exact absurd (same ▸ List.mem_map_of_mem (rest.subset inside)) alone
      rw [none]
      exact ((only part value selected).2 default).symm

end Parts

/-! ## Readers -/

section Readers

variable {α : Type} {keys : List String} {defaults : List (String × Json)}
  {changed : String → Json → Json → Prop} {decode : String → Json → Except DecodeError (Option α)}
  {key : α → String} {IsDefault : α → Prop} {members others : List (String × Json)}

/-- What a reader of members has to do so that loosening an object does not change what is read. -/
structure Tolerant (keys : List String) (defaults : List (String × Json))
    (changed : String → Json → Json → Prop)
    (decode : String → Json → Except DecodeError (Option α)) (key : α → String)
    (IsDefault : α → Prop) : Prop where
  /-- It passes over the keys that it does not know. -/
  unknown : ∀ name value, name ∉ keys → decode name value = .ok none
  /-- What it reads can be told by its key. -/
  key_eq : ∀ name value part, decode name value = .ok (some part) → key part = name
  /-- It does not see the changes from within. -/
  within : ∀ name value other, changed name value other → decode name other = decode name value
  /-- It reads the defaults as such. -/
  default : ∀ name value, (name, value) ∈ defaults →
    ∃ part, decode name value = .ok (some part) ∧ IsDefault part

/-- The first member of an object is read before the others. -/
theorem decodeMembers_cons (name : String) (value : Json) :
    decodeMembers keys decode (.object ((name, value) :: members)) =
      decode name value >>= fun part =>
        (decodeMembers keys decode (.object members)).map (part.toList ++ ·) := by
  simp only [decodeMembers, Json.members, fits, List.mapM_cons, pure, Except.pure, bind,
    Except.bind]
  cases decode name value with
  | error error => rfl
  | ok part =>
    dsimp only
    cases members.mapM fun member => decode member.1 member.2 with
    | error error => rfl
    | ok parts => cases part <;> rfl

/-- What is read from the members of an object has their keys. -/
theorem Tolerant.key_mem (reader : Tolerant keys defaults changed decode key IsDefault)
    {parts : List α} (h : decodeMembers keys decode (.object members) = .ok parts) :
    parts.map key ⊆ members.map (·.1) := by
  induction members generalizing parts with
  | nil =>
    cases h
    exact List.Subset.refl _
  | cons member rest ih =>
    obtain ⟨name, value⟩ := member
    rw [decodeMembers_cons, Outcome.bind_eq_ok_iff] at h
    obtain ⟨part, read, h⟩ := h
    cases later : decodeMembers keys decode (.object rest) with
    | error error =>
      rw [later] at h
      cases h
    | ok found =>
      rw [later] at h
      obtain rfl := Except.ok.inj h
      have others := List.Subset.trans (ih later) (List.subset_cons_self name _)
      cases part with
      | none => exact others
      | some part =>
        rw [Option.toList_some]
        dsimp only
        rw [List.singleton_append, List.map_cons, List.map_cons,
          reader.key_eq name value part read]
        exact List.cons_subset.2 ⟨List.mem_cons_self, others⟩

/-- From a loosened object the same is read, but for members that hold their default. -/
theorem Tolerant.related_decodeMembers
    (reader : Tolerant keys defaults changed decode key IsDefault)
    (h : MembersLoosened keys defaults changed members others) :
    Outcome.Related (PartsLoosened key IsDefault) (decodeMembers keys decode (.object members))
      (decodeMembers keys decode (.object others)) := by
  -- a member that stays on both sides is read first, and then the others
  have step : ∀ {read : Except DecodeError (Option α)} {first second : Except DecodeError (List α)},
      Outcome.Related (PartsLoosened key IsDefault) first second →
      Outcome.Related (PartsLoosened key IsDefault)
        (read >>= fun part => first.map (part.toList ++ ·))
        (read >>= fun part => second.map (part.toList ++ ·)) := by
    intro read first second related
    cases read with
    | error error => exact .error error
    | ok part =>
      cases related with
      | error error => exact .error error
      | ok parts =>
        cases part with
        | none => exact .ok parts
        | some part => exact .ok (.kept part parts)
  induction h with
  | nil => exact .ok .nil
  | kept member _ ih =>
    obtain ⟨name, value⟩ := member
    rw [decodeMembers_cons, decodeMembers_cons]
    exact step ih
  | within inner _ ih =>
    rw [decodeMembers_cons, decodeMembers_cons, reader.within _ _ _ inner]
    exact step ih
  | @added name unknown value members others _ ih =>
    rw [decodeMembers_cons, reader.unknown name value unknown]
    generalize decodeMembers keys decode (.object members) = first at ih ⊢
    generalize decodeMembers keys decode (.object others) = second at ih ⊢
    cases ih with
    | error error => exact .error error
    | ok parts => exact .ok parts
  | @leftOut name value default members others alone _ ih =>
    obtain ⟨part, read, isDefault⟩ := reader.default name value default
    rw [decodeMembers_cons, read]
    generalize found : decodeMembers keys decode (.object members) = first at ih ⊢
    generalize decodeMembers keys decode (.object others) = second at ih ⊢
    cases ih with
    | error error => exact .error error
    | ok values =>
      refine .ok (.leftOut isDefault ?_ values)
      rw [reader.key_eq name value part read]
      exact fun inside => alone (reader.key_mem found inside)

end Readers

/-- Items that are read alike are read alike together. -/
theorem asList_eq_of_itemsLoosened {α : Type} {decode : Json → Except DecodeError α}
    {item : Json → Json → Prop}
    (same : ∀ value other, item value other → decode other = decode value)
    {value other : Json} (h : ItemsLoosened item value other) :
    other.asList decode = value.asList decode := by
  obtain ⟨items⟩ := h
  rw [asList, asList]
  induction items with
  | nil => rfl
  | cons first _ ih => rw [List.mapM_cons, List.mapM_cons, same _ _ first, ih]

end Json

end EntitySchema
