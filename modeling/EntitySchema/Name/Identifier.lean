import EntitySchema.Text.Blank

/-! # Identifiers

A name is an identifier: at least one character, each an ASCII letter, an ASCII digit or an
underscore. Identifiers are closed under lowercasing and under the suffix that turns the name of an
entity into the name of a column. -/

namespace EntitySchema

/-- Whether a character may stand in an identifier. -/
def isIdentifierChar (c : Char) : Bool := c.isAlphanum || c == '_'

/-- Whether a text is an identifier. -/
def isIdentifier (text : String) : Bool := !text.isEmpty && text.toList.all isIdentifierChar

/-- A text with its ASCII letters in lower case. -/
def lowercase (text : String) : String := text.map Char.toLower

@[simp] theorem toList_lowercase (text : String) :
    (lowercase text).toList = text.toList.map Char.toLower :=
  String.toList_map

/-- An identifier is a text that has characters, all of them identifier characters. -/
theorem isIdentifier_iff {text : String} :
    isIdentifier text = true ↔ text.toList ≠ [] ∧ ∀ c ∈ text.toList, isIdentifierChar c = true := by
  simp [isIdentifier, ← String.toList_eq_nil_iff]

/-- A lower-case letter may stand in an identifier. -/
theorem isIdentifierChar_of_isLower {c : Char} (h : c.isLower = true) :
    isIdentifierChar c = true := by
  change (c.isUpper || c.isLower || c.isDigit || c == '_') = true
  simp [h]

/-- An upper-case letter becomes a lower-case one. -/
theorem isLower_toLower {c : Char} (h : 'A'.val ≤ c.val ∧ c.val ≤ 'Z'.val) :
    c.toLower.isLower = true := by
  have shifted : c.toLower.val = c.val + 32 := congrArg Char.val (dif_pos h)
  have low : 65 ≤ c.val.toNat := UInt32.le_iff_toNat_le.1 h.1
  have high : c.val.toNat ≤ 90 := UInt32.le_iff_toNat_le.1 h.2
  have sum : (c.val + 32).toNat = c.val.toNat + 32 := by
    rw [UInt32.toNat_add]
    exact Nat.mod_eq_of_lt (by change c.val.toNat + 32 < _; omega)
  change (decide ('a'.val ≤ c.toLower.val) && decide (c.toLower.val ≤ 'z'.val)) = true
  rw [shifted, Bool.and_eq_true, decide_eq_true_eq, decide_eq_true_eq]
  constructor
  · exact UInt32.le_iff_toNat_le.2 (by rw [sum]; change 97 ≤ _; omega)
  · exact UInt32.le_iff_toNat_le.2 (by rw [sum]; change _ ≤ 122; omega)

/-- Lowercasing keeps identifier characters. -/
theorem isIdentifierChar_toLower {c : Char} (h : isIdentifierChar c = true) :
    isIdentifierChar c.toLower = true := by
  by_cases upper : 'A'.val ≤ c.val ∧ c.val ≤ 'Z'.val
  · exact isIdentifierChar_of_isLower (isLower_toLower upper)
  · rw [show c.toLower = c from dif_neg upper]
    exact h

/-- Lowercasing keeps identifiers. -/
theorem isIdentifier_lowercase {text : String} (h : isIdentifier text = true) :
    isIdentifier (lowercase text) = true := by
  rw [isIdentifier_iff] at h ⊢
  refine ⟨by simpa using h.1, fun c hc => ?_⟩
  rw [toList_lowercase, List.mem_map] at hc
  obtain ⟨d, hd, rfl⟩ := hc
  exact isIdentifierChar_toLower (h.2 d hd)

/-- Two identifiers side by side are one. -/
theorem isIdentifier_append {left right : String} (hl : isIdentifier left = true)
    (hr : isIdentifier right = true) : isIdentifier (left ++ right) = true := by
  rw [isIdentifier_iff] at hl hr ⊢
  refine ⟨by simp [hl.1], fun c hc => ?_⟩
  rw [String.toList_append, List.mem_append] at hc
  exact hc.elim (hl.2 c) (hr.2 c)

end EntitySchema
