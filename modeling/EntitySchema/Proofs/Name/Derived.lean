import EntitySchema.Proofs.Name.Plurals
import Mathlib

/-! # Derived names

The name of a table, the name of the column that refers to an entity and the name of a link table
are derived from names of entities, and nothing checks them. They need no check: each of them has
characters, all of them lower-case letters, digits and underscores. The case of letters is forgotten
on the way, so names that differ in case alone share everything that is derived from them, while
other names have different columns. -/

namespace EntitySchema

/-! ## The case of letters -/

/-- Whether two characters are the same, or the two cases of one letter. -/
def SameLetter (left right : Char) : Prop :=
  left = right ∨ (left.isUpper = true ∧ right = left.toLower) ∨
    (right.isUpper = true ∧ left = right.toLower)

/-- Whether two texts are the same, character by character, but for the case of letters. -/
def SameUpToCase (left right : String) : Prop :=
  List.Forall₂ SameLetter left.toList right.toList

instance (left right : Char) : Decidable (SameLetter left right) :=
  inferInstanceAs (Decidable (_ ∨ _))

instance (left right : String) : Decidable (SameUpToCase left right) :=
  inferInstanceAs (Decidable (List.Forall₂ _ _ _))

/-- Upper-case letters differ when their lower cases do. -/
theorem eq_of_toLower_eq_of_isUpper {left right : Char} (hl : left.isUpper = true)
    (hr : right.isUpper = true) (same : left.toLower = right.toLower) : left = right := by
  have upper := congrArg Char.toUpper same
  rwa [Char.toUpper_toLower_eq_toUpper, Char.toUpper_toLower_eq_toUpper,
    Char.toUpper_eq_of_not_isLower (Char.not_isLower_of_isUpper hl),
    Char.toUpper_eq_of_not_isLower (Char.not_isLower_of_isUpper hr)] at upper

/-- Characters have one lower case exactly when they are the same letter. -/
theorem toLower_eq_toLower_iff {left right : Char} :
    left.toLower = right.toLower ↔ SameLetter left right := by
  constructor
  · intro same
    by_cases hl : left.isUpper = true
    · by_cases hr : right.isUpper = true
      · exact .inl (eq_of_toLower_eq_of_isUpper hl hr same)
      · rw [Char.toLower_eq_of_not_isUpper hr] at same
        exact .inr (.inl ⟨hl, same.symm⟩)
    · rw [Char.toLower_eq_of_not_isUpper hl] at same
      by_cases hr : right.isUpper = true
      · exact .inr (.inr ⟨hr, same⟩)
      · rw [Char.toLower_eq_of_not_isUpper hr] at same
        exact .inl same
  · rintro (rfl | ⟨-, rfl⟩ | ⟨-, rfl⟩)
    · rfl
    · rw [Char.toLower_toLower_eq_toLower]
    · rw [Char.toLower_toLower_eq_toLower]

/-- Texts have one lower case exactly when they are the same up to case. -/
theorem lowercase_eq_lowercase_iff {left right : String} :
    lowercase left = lowercase right ↔ SameUpToCase left right := by
  rw [← String.toList_inj, toList_lowercase, toList_lowercase, ← List.forall₂_eq_eq_eq,
    List.forall₂_map_left_iff, List.forall₂_map_right_iff, SameUpToCase]
  simp only [toLower_eq_toLower_iff]

/-! ## The plural of the last word -/

namespace Plural

/-- The last word of a text stands behind its last underscore. -/
theorem lastWord_append_cons (left right : Text) :
    lastWord (left ++ '_' :: right) = lastWord right := by
  rw [lastWord, lastWord, List.reverse_append, List.reverse_cons, List.append_assoc,
    List.singleton_append]
  congr 1
  induction right.reverse with
  | nil => rfl
  | cons c rest ih => rw [List.cons_append, List.takeWhile_cons, List.takeWhile_cons, ih]

/-- What stands up to the last underscore of a text is kept when another text is put in front. -/
theorem beforeLastWord_append_cons (left right : Text) :
    beforeLastWord (left ++ '_' :: right) = left ++ '_' :: beforeLastWord right := by
  have whole : beforeLastWord (left ++ '_' :: right) ++ lastWord right =
      (left ++ '_' :: beforeLastWord right) ++ lastWord right :=
    calc beforeLastWord (left ++ '_' :: right) ++ lastWord right
      _ = left ++ '_' :: right := by
        rw [← lastWord_append_cons left right, beforeLastWord_append_lastWord]
      _ = left ++ '_' :: (beforeLastWord right ++ lastWord right) := by
        rw [beforeLastWord_append_lastWord]
      _ = (left ++ '_' :: beforeLastWord right) ++ lastWord right := by simp
  exact List.append_cancel_right whole

/-- Every ending that is put in place of another one has letters. -/
theorem byEnding_ne_nil (word : Text) : byEnding word ≠ [] := by
  have replaced : ∀ (count : Nat) (ending : String), ending.toList ≠ [] →
      replaceLast count ending word ≠ [] :=
    fun count ending letters => List.append_ne_nil_of_right_ne_nil _ letters
  rw [byEnding]
  split_ifs <;> exact replaced _ _ (by decide)

/-- A word is not lost in the plural. -/
theorem ofWord_ne_nil {word : Text} (h : word ≠ []) : ofWord word ≠ [] := by
  rw [ofWord]
  split_ifs with unchanged
  · exact h
  · split
    · rename_i plural found
      have table : ∀ entry ∈ irregular, entry.2.toList ≠ [] := by decide
      exact table _ (mem_irregular_of_lookup found)
    · exact byEnding_ne_nil word

end Plural

/-- Only the last word of a text is inflected. -/
theorem pluralize_append (left right : String) :
    pluralize (left ++ "_" ++ right) = left ++ "_" ++ pluralize right := by
  have text : (left ++ "_" ++ right).toList = left.toList ++ '_' :: right.toList := by
    simp [String.toList_append]
  rw [← String.toList_inj, pluralize, pluralize, text, Plural.lastWord_append_cons,
    Plural.beforeLastWord_append_cons]
  simp [String.toList_append]

/-- The plural of a text with characters has characters. -/
theorem pluralize_ne_nil {text : String} (h : text.toList ≠ []) : (pluralize text).toList ≠ [] := by
  rw [pluralize, String.toList_ofList]
  by_cases word : Plural.lastWord text.toList = []
  · -- the text ends in an underscore, so there is something before the last word
    have whole := Plural.beforeLastWord_append_lastWord text.toList
    rw [word, List.append_nil] at whole
    rw [whole]
    exact List.append_ne_nil_of_left_ne_nil h _
  · exact List.append_ne_nil_of_right_ne_nil _ (Plural.ofWord_ne_nil word)

/-! ## Derived names -/

/-- Whether a text has characters, all of them lower-case letters, digits and underscores. -/
structure IsDerivedName (text : String) : Prop where
  /-- The text has characters. -/
  ne_nil : text.toList ≠ []
  /-- Every character may stand in a derived name. -/
  chars : ∀ c ∈ text.toList, c.isLower = true ∨ c.isDigit = true ∨ c = '_'

namespace IsDerivedName

variable {left right text : String}

/-- A derived name is an identifier. -/
theorem isIdentifier (h : IsDerivedName text) : isIdentifier text = true := by
  rw [isIdentifier_iff]
  refine ⟨h.ne_nil, fun c inside => ?_⟩
  rcases h.chars c inside with lower | digit | rfl
  · exact isIdentifierChar_of_isLower lower
  · simp [isIdentifierChar, Char.isAlphanum, digit]
  · decide

/-- Two derived names side by side are one. -/
theorem append (hl : IsDerivedName left) (hr : IsDerivedName right) :
    IsDerivedName (left ++ right) where
  ne_nil := by
    rw [String.toList_append]
    exact List.append_ne_nil_of_left_ne_nil hl.ne_nil _
  chars := by
    rw [String.toList_append, List.forall_mem_append]
    exact ⟨hl.chars, hr.chars⟩

/-- An identifier in lower case is a derived name. -/
theorem lowercase (h : EntitySchema.isIdentifier text = true) :
    IsDerivedName (EntitySchema.lowercase text) where
  ne_nil := by simpa using (isIdentifier_iff.1 h).1
  chars := by
    rw [toList_lowercase, List.forall_mem_map]
    intro c inside
    have allowed := (isIdentifier_iff.1 h).2 c inside
    by_cases upper : c.isUpper = true
    · have alpha : c.isAlpha = true := by simp [Char.isAlpha, upper]
      exact .inl (by rw [Char.isLower_toLower_eq_isAlpha, alpha])
    · rw [Char.toLower_eq_of_not_isUpper upper]
      simpa [isIdentifierChar, Char.isAlphanum, Char.isAlpha, upper, or_assoc] using allowed

/-- The plural of a derived name is one. -/
theorem pluralize (h : IsDerivedName text) : IsDerivedName (EntitySchema.pluralize text) where
  ne_nil := pluralize_ne_nil h.ne_nil
  chars := forall_mem_pluralize (fun _ => .inl) h.chars

end IsDerivedName

namespace EntityName

/-- The name in lower case is a derived name. -/
theorem isDerivedName_lowercase (name : EntityName) : IsDerivedName name.lowercase :=
  .lowercase name.valid

/-- Names have one column exactly when they are the same up to case. -/
theorem foreignKeyColumn_eq_iff {left right : EntityName} :
    left.foreignKeyColumn = right.foreignKeyColumn ↔ SameUpToCase left.text right.text := by
  rw [← lowercase_eq_lowercase_iff, ← String.toList_inj, foreignKeyColumn, foreignKeyColumn,
    String.toList_append, String.toList_append, List.append_left_inj, String.toList_inj]
  rfl

end EntityName

/-- Whatever the names of two entities, the names that are derived from them have characters, all of
them lower-case letters, digits and underscores, so the column would be accepted as the name of a
field. Names that are the same up to case share all that is derived from them, and only such names
share a column. Of a text with an underscore only what stands behind it is inflected. -/
theorem EntityName.derivedNames_valid (first second : EntityName) :
    IsDerivedName first.tableName ∧ IsDerivedName first.foreignKeyColumn ∧
    IsDerivedName (LinkTable.between first second).tableName ∧
    FieldName.ofString first.foreignKeyColumn = .ok (.foreignKeyFor first) ∧
    (∀ other third : EntityName, SameUpToCase first.text other.text →
      SameUpToCase second.text third.text →
        first.lowercase = other.lowercase ∧ first.tableName = other.tableName ∧
        (LinkTable.between first second).tableName = (LinkTable.between other third).tableName) ∧
    (∀ other : EntityName, SameUpToCase first.text other.text ↔
      first.foreignKeyColumn = other.foreignKeyColumn) ∧
    ∀ left right : String, pluralize (left ++ "_" ++ right) = left ++ "_" ++ pluralize right := by
  have underscore : IsDerivedName "_" := ⟨by decide, by simp⟩
  have column : IsDerivedName first.foreignKeyColumn :=
    first.isDerivedName_lowercase.append ⟨by decide, by simp⟩
  refine ⟨first.isDerivedName_lowercase.pluralize, column, ?_, ?_, ?_, ?_, pluralize_append⟩
  · exact (second.isDerivedName_lowercase.append underscore).append first.isDerivedName_lowercase
  · exact dif_pos column.isIdentifier
  · intro other third sameFirst sameSecond
    have firstLower : first.lowercase = other.lowercase := lowercase_eq_lowercase_iff.2 sameFirst
    have secondLower : second.lowercase = third.lowercase :=
      lowercase_eq_lowercase_iff.2 sameSecond
    refine ⟨firstLower, congrArg EntitySchema.pluralize firstLower, ?_⟩
    rw [LinkTable.between, LinkTable.between, firstLower, secondLower]
  · exact fun other => foreignKeyColumn_eq_iff.symm

/-- Names of underscores alone, and names that end in one, have derived names as well. -/
theorem EntityName.derivedNames_valid_underscores :
    let first : EntityName := ⟨"Blog_POST_", by decide⟩
    let other : EntityName := ⟨"bLOG_post_", by decide⟩
    let second : EntityName := ⟨"__", by decide⟩
    IsDerivedName second.tableName ∧ first.tableName = other.tableName ∧
      first.tableName = "blog_post_" ∧ first.foreignKeyColumn = other.foreignKeyColumn ∧
      (LinkTable.between first second).tableName =
        (LinkTable.between other second).tableName := by
  intro first other second
  obtain ⟨-, -, -, -, shared, columns, -⟩ := derivedNames_valid first second
  obtain ⟨-, tables, links⟩ := shared other second (by decide +kernel) (by decide +kernel)
  have underscores := (derivedNames_valid second first).1
  exact ⟨underscores, tables, by decide +kernel, (columns other).1 (by decide +kernel), links⟩

end EntitySchema
