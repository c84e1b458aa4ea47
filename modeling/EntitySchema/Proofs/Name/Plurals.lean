import EntitySchema.LinkTable
import Mathlib.Data.List.Basic

/-! # The characters of derived names

A plural has no other characters than its singular and lower-case letters. So the name of a table,
which is the plural of an identifier in lower case, is made of identifier characters alone, and so
is the name of a link table. -/

namespace EntitySchema

namespace Plural

/-- An irregular plural that is found for a noun stands beside it in the list. -/
theorem mem_irregular_of_lookup {noun plural : String} (h : irregular.lookup noun = some plural) :
    (noun, plural) ∈ irregular := by
  obtain ⟨front, back, same, -⟩ := List.lookup_eq_some_iff.1 h
  rw [same]
  exact List.mem_append_right _ List.mem_cons_self

variable {P : Char → Prop} (letters : ∀ c, c.isLower = true → P c) {word : Text}
  (h : ∀ c ∈ word, P c)

include letters h

/-- A word keeps a property of its characters when an ending of lower-case letters replaces another
one. -/
theorem forall_mem_replaceLast (count : Nat) {ending : String}
    (lower : ending.toList.all Char.isLower = true) : ∀ c ∈ replaceLast count ending word, P c := by
  intro c inside
  rcases List.mem_append.1 inside with kept | added
  · exact h c (List.mem_of_mem_take kept)
  · exact letters c (List.all_eq_true.1 lower c added)

/-- The plural of a word by its ending has the characters of the word and lower-case letters. -/
theorem forall_mem_byEnding : ∀ c ∈ byEnding word, P c := by
  rw [byEnding]
  split_ifs <;> exact forall_mem_replaceLast letters h _ (by decide)

/-- The plural of a word has the characters of the word and lower-case letters. -/
theorem forall_mem_ofWord : ∀ c ∈ ofWord word, P c := by
  rw [ofWord]
  split_ifs with unchanged
  · exact h
  · split
    · rename_i plural found
      -- the plurals of irregular nouns are lower-case words
      have table : ∀ entry ∈ irregular, entry.2.toList.all Char.isLower = true := by decide
      have lower := table _ (mem_irregular_of_lookup found)
      exact fun c member => letters c (List.all_eq_true.1 lower c member)
    · exact forall_mem_byEnding letters h

end Plural

/-- A plural has the characters of its singular and lower-case letters. -/
theorem forall_mem_pluralize {P : Char → Prop} (letters : ∀ c, c.isLower = true → P c)
    {text : String} (h : ∀ c ∈ text.toList, P c) : ∀ c ∈ (pluralize text).toList, P c := by
  rw [← Plural.beforeLastWord_append_lastWord text.toList, List.forall_mem_append] at h
  rw [pluralize, String.toList_ofList, List.forall_mem_append]
  exact ⟨h.1, Plural.forall_mem_ofWord letters h.2⟩

/-- The name of a table is made of identifier characters. -/
theorem EntityName.isIdentifierChar_of_mem_tableName (name : EntityName) :
    ∀ c ∈ name.tableName.toList, isIdentifierChar c = true := by
  apply forall_mem_pluralize fun c => isIdentifierChar_of_isLower
  exact (isIdentifier_iff.1 (isIdentifier_lowercase name.valid)).2

/-- The name of the link table of two entities is an identifier. -/
theorem LinkTable.isIdentifier_tableName_between (owner target : EntityName) :
    isIdentifier (between owner target).tableName = true := by
  rw [between]
  refine isIdentifier_append (isIdentifier_append ?_ (by decide)) ?_
  · exact isIdentifier_lowercase target.valid
  · exact isIdentifier_lowercase owner.valid

end EntitySchema
