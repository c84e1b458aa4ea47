import EntitySchema.Name.Identifier
import EntitySchema.Text.Blank
import Mathlib.Data.List.DropRight

/-! # Trimmed texts

A text is *trimmed* when trimming leaves it as it is: neither its first nor its last character is
blank. Trimming gives a trimmed text, drops nothing but blanks at the two ends, and does not see
blanks that are added there. -/

namespace EntitySchema.Text

/-! ## Trailing blanks -/

/-- Dropping trailing blanks is the library's `rdropWhile`. -/
theorem trimEnd_eq_rdropWhile (text : Text) : trimEnd text = text.rdropWhile isBlank := rfl

/-- A text keeps its end when its last character is not blank. -/
theorem trimEnd_eq_self_iff {text : Text} :
    trimEnd text = text ↔ ∀ c ∈ text.getLast?, isBlank c = false := by
  rw [trimEnd_eq_rdropWhile, List.rdropWhile_eq_self_iff]
  constructor
  · intro h c hc
    obtain ⟨nonempty, rfl⟩ := List.mem_getLast?_eq_getLast hc
    simpa using h nonempty
  · intro h nonempty
    simpa using h _ (List.getLast?_eq_getLast_of_ne_nil nonempty)

/-- Trailing blanks are dropped at once. -/
theorem trimEnd_trimEnd (text : Text) : trimEnd (trimEnd text) = trimEnd text := by
  simpa only [trimEnd_eq_rdropWhile] using List.rdropWhile_idempotent isBlank text

/-- Blanks added at the end are dropped again. -/
theorem trimEnd_append_of_isBlank {blanks : Text} (h : ∀ c ∈ blanks, isBlank c = true)
    (text : Text) : trimEnd (text ++ blanks) = trimEnd text := by
  induction blanks using List.reverseRecOn with
  | nil => rw [List.append_nil]
  | append_singleton front last ih =>
    rw [trimEnd_eq_rdropWhile, ← List.append_assoc,
      List.rdropWhile_concat_pos isBlank (text ++ front) last (h last (by simp)),
      ← trimEnd_eq_rdropWhile]
    exact ih fun c hc => h c (List.mem_append_left _ hc)

/-- What is left is the front of the text. -/
theorem trimEnd_prefix_self (text : Text) : trimEnd text <+: text :=
  List.rdropWhile_prefix isBlank (l := text)

/-- A text ends as its last part does. -/
theorem trimEnd_append_of_ne_nil {suffix : Text} (nonempty : suffix ≠ [])
    (h : trimEnd suffix = suffix) (text : Text) : trimEnd (text ++ suffix) = text ++ suffix := by
  refine trimEnd_eq_self_iff.2 fun c hc => trimEnd_eq_self_iff.1 h c ?_
  rwa [List.getLast?_append_of_ne_nil text nonempty] at hc

/-- A mark that is not blank keeps the end of a text, whatever trimmed part follows it. -/
theorem trimEnd_append_cons {mark : Char} (mark_ne : isBlank mark = false) {part : Text}
    (h : trimEnd part = part) (text : Text) :
    trimEnd (text ++ mark :: part) = text ++ mark :: part := by
  refine trimEnd_append_of_ne_nil (List.cons_ne_nil mark part) ?_ text
  apply trimEnd_eq_self_iff.2
  intro c hc
  cases part with
  | nil =>
    obtain rfl := List.mem_singleton.1 (List.mem_of_mem_getLast? hc)
    exact mark_ne
  | cons d rest =>
    rw [List.getLast?_cons_cons] at hc
    exact trimEnd_eq_self_iff.1 h c hc

/-! ## Blanks at both ends -/

/-- Blanks added at the front are dropped again. -/
theorem trim_append_of_isBlank {blanks : Text} (h : ∀ c ∈ blanks, isBlank c = true)
    (text : Text) : trim (blanks ++ text) = trim text := by
  rw [trim, trim, trimStart, trimStart, List.dropWhile_append_of_pos h]

/-- Blanks added at the end are dropped with those that are there. -/
theorem trim_append_of_isBlank_right {blanks : Text} (h : ∀ c ∈ blanks, isBlank c = true)
    (text : Text) : trim (text ++ blanks) = trim text := by
  rw [trim, trim, trimStart, trimStart, List.dropWhile_append]
  split
  · -- nothing but blanks is there, before the others and among them
    rename_i none
    rw [List.isEmpty_iff.1 none, List.dropWhile_eq_nil_iff.2 h]
  · exact trimEnd_append_of_isBlank h _

/-- What is left is a part of the text. -/
theorem trim_infix_self (text : Text) : trim text <:+: text :=
  (trimEnd_prefix_self _).isInfix.trans (List.dropWhile_suffix isBlank).isInfix

/-- A text is trimmed when neither its first nor its last character is blank. -/
theorem trim_eq_self_iff {text : Text} :
    trim text = text ↔
      (∀ c ∈ text.head?, isBlank c = false) ∧ ∀ c ∈ text.getLast?, isBlank c = false := by
  cases text with
  | nil => simp
  | cons first rest =>
    by_cases blank : isBlank first = true
    · -- the first character is lost, so the lengths differ
      have shorter : (trim (first :: rest)).length ≤ rest.length := by
        have blanks : ∀ c ∈ [first], isBlank c = true := List.forall_mem_singleton.2 blank
        have same : trim (first :: rest) = trim rest := trim_append_of_isBlank blanks rest
        rw [same]
        exact (trim_infix_self rest).length_le
      constructor
      · intro h
        rw [h, List.length_cons] at shorter
        omega
      · rintro ⟨h, -⟩
        simp [blank] at h
    · have kept : trimStart (first :: rest) = first :: rest :=
        List.dropWhile_cons_of_neg blank
      rw [trim, kept, trimEnd_eq_self_iff]
      simp [blank]

/-- A trimmed text has no trailing blanks. -/
theorem trimEnd_of_trim {text : Text} (h : trim text = text) : trimEnd text = text :=
  trimEnd_eq_self_iff.2 (trim_eq_self_iff.1 h).2

/-- Trimming leaves a trimmed text. -/
theorem trim_trim (text : Text) : trim (trim text) = trim text := by
  refine trim_eq_self_iff.2 ⟨fun c hc => ?_, trimEnd_eq_self_iff.1 (trimEnd_trimEnd _)⟩
  obtain ⟨tail, htail⟩ := trimEnd_prefix_self (trimStart text)
  have front : (trimStart text).head? = some c := by
    rw [← htail, List.head?_append, ← trim, hc, Option.some_or]
  have head := List.head?_dropWhile_not isBlank text
  rw [← trimStart, front] at head
  simpa using head

/-- A suffix of a text that keeps its end keeps its own. -/
theorem trimEnd_eq_self_of_suffix {text suffix : Text} (h : trimEnd text = text)
    (hs : suffix <:+ text) : trimEnd suffix = suffix := by
  refine trimEnd_eq_self_iff.2 fun c hc => trimEnd_eq_self_iff.1 h c ?_
  obtain ⟨front, rfl⟩ := hs
  rw [List.getLast?_append, hc]
  rfl

/-! ## Characters that are never blank -/

/-- The characters of identifiers lie between the digit zero and the letter z. -/
theorem toNat_of_isIdentifierChar {c : Char} (h : isIdentifierChar c = true) :
    48 ≤ c.toNat ∧ c.toNat ≤ 122 := by
  change (c.isUpper || c.isLower || c.isDigit || c == '_') = true at h
  change 48 ≤ c.val.toNat ∧ c.val.toNat ≤ 122
  have between : ∀ {low high : UInt32}, low ≤ c.val ∧ c.val ≤ high →
      48 ≤ low.toNat → high.toNat ≤ 122 → 48 ≤ c.val.toNat ∧ c.val.toNat ≤ 122 := by
    rintro low high ⟨least, most⟩ lowBound highBound
    rw [UInt32.le_iff_toNat_le] at least most
    omega
  simp only [Bool.or_eq_true, beq_iff_eq] at h
  rcases h with ((upper | lower) | digit) | rfl
  · have range : 'A'.val ≤ c.val ∧ c.val ≤ 'Z'.val := of_decide_eq_true upper
    exact between range (by decide) (by decide)
  · obtain ⟨least, most⟩ := Bool.and_eq_true_iff.1 lower
    exact between ⟨of_decide_eq_true least, of_decide_eq_true most⟩ (by decide) (by decide)
  · obtain ⟨least, most⟩ := Bool.and_eq_true_iff.1 digit
    exact between ⟨of_decide_eq_true least, of_decide_eq_true most⟩ (by decide) (by decide)
  · decide

/-- No character of an identifier is blank. -/
theorem isBlank_of_isIdentifierChar {c : Char} (h : isIdentifierChar c = true) :
    isBlank c = false := by
  obtain ⟨low, high⟩ := toNat_of_isIdentifierChar h
  simp only [isBlank, Bool.or_eq_false_iff, Bool.and_eq_false_iff, decide_eq_false_iff_not,
    beq_eq_false_iff_ne]
  omega

/-- A text that begins with an identifier begins with no blank. -/
theorem isBlank_head_of_isIdentifier {name : String} (h : isIdentifier name = true) (rest : Text) :
    ∀ c ∈ (name.toList ++ rest).head?, isBlank c = false := by
  obtain ⟨nonempty, chars⟩ := isIdentifier_iff.1 h
  intro c hc
  rw [List.head?_append_of_ne_nil _ nonempty] at hc
  exact isBlank_of_isIdentifierChar (chars c (List.mem_of_mem_head? hc))

/-- An identifier is a trimmed text. -/
theorem trim_of_isIdentifier {name : String} (h : isIdentifier name = true) :
    trim name.toList = name.toList := by
  have front := isBlank_head_of_isIdentifier h []
  rw [List.append_nil] at front
  refine trim_eq_self_iff.2 ⟨front, fun c hc => ?_⟩
  exact isBlank_of_isIdentifierChar ((isIdentifier_iff.1 h).2 c (List.mem_of_mem_getLast? hc))

end EntitySchema.Text
