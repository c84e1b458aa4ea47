import EntitySchema.Name
import EntitySchema.Proofs.Checked.Text
import Mathlib.Data.List.TakeWhile

/-! # Plurals with cuts at bytes

The plural of a word is made by cutting off its last bytes, and the letter before a final `y` is told
from a byte. Neither misses: what is cut off are letters of one byte each, and no byte of a longer
character is the byte of a vowel. -/

namespace EntitySchema

/-! ## Bytes -/

/-- The bytes of a text in UTF-8. -/
def Text.bytes (text : Text) : List UInt8 := text.flatMap String.utf8EncodeChar

/-- The last byte of a character is its code, unless the code is too large for one byte; then the
byte is larger than the code of any character of one byte. -/
theorem exists_getLast?_utf8EncodeChar (c : Char) :
    ∃ byte, (String.utf8EncodeChar c).getLast? = some byte ∧
      (byte.toNat = c.toNat ∨ 127 < byte.toNat ∧ 127 < c.toNat) := by
  have last : ∀ n, 127 < (UInt8.ofNat (n % 64 + 128)).toNat := by
    intro n
    rw [UInt8.toNat_ofNat']
    omega
  rw [String.utf8EncodeChar]
  by_cases small : c.val.toNat ≤ 127
  · have same : (UInt8.ofNat c.val.toNat).toNat = c.toNat := by
      rw [UInt8.toNat_ofNat']
      exact Nat.mod_eq_of_lt (by omega)
    simp only [if_pos small]
    exact ⟨_, rfl, .inl same⟩
  · have large : 127 < c.toNat := Nat.lt_of_not_le small
    simp only [if_neg small]
    split_ifs <;> exact ⟨_, rfl, .inr ⟨last _, large⟩⟩

namespace Plural

/-- The bytes that are vowels before a final `y`. -/
def vowelBytes : List UInt8 := [0x61, 0x65, 0x69, 0x6f, 0x75]

/-- The last byte of a character is that of a vowel exactly when the character is a vowel. -/
theorem contains_vowelBytes_of_getLast? {c : Char} {byte : UInt8}
    (h : (String.utf8EncodeChar c).getLast? = some byte) :
    vowelBytes.contains byte = vowels.contains c := by
  obtain ⟨other, found, code⟩ := exists_getLast?_utf8EncodeChar c
  obtain rfl := Option.some.inj (h.symm.trans found)
  have bytes : vowelBytes.contains byte = true ↔ byte.toNat ∈ [97, 101, 105, 111, 117] := by
    simp [vowelBytes, ← UInt8.toNat_inj]
  have characters : vowels.contains c = true ↔ c.toNat ∈ [97, 101, 105, 111, 117] := by
    simp [vowels, ← Char.toNat_inj]
  rw [Bool.eq_iff_iff, bytes, characters]
  rcases code with same | ⟨large, larger⟩
  · rw [same]
  · simp only [List.mem_cons, List.not_mem_nil, or_false]
    omega

/-! ## Words -/

/-- A word with its last `count` bytes replaced. -/
def replaceLast? (count : Nat) (ending : String) (word : Text) : Option Text := do
  let stop ← minus? word.byteLength count
  let stem ← word.upTo? stop
  return stem ++ ending.toList

/-- Whether the byte that is `offset` places before the last one is a vowel. -/
def isVowelBefore? (word : Text) (offset : Nat) : Option Bool :=
  if offset < word.bytes.length then do
    let last ← minus? word.bytes.length 1
    let place ← minus? last offset
    let byte ← word.bytes[place]?
    return vowelBytes.contains byte
  else some false

/-- Whether a word ends in `y` after a byte that is not a vowel. -/
def endsInConsonantY? (word : Text) : Option Bool :=
  if endsIn "y" word && 1 < word.byteLength then (isVowelBefore? word 1).map (!·) else some false

/-- The plural of a word by its ending. -/
def byEnding? (word : Text) : Option Text :=
  if endsIn "quiz" word then some (word ++ "zes".toList)
  else if endsIn "sis" word then replaceLast? 3 "ses" word
  else if ["sh", "ch", "s", "x", "z"].any (endsIn · word) then some (word ++ "es".toList)
  else do
    let consonant ← endsInConsonantY? word
    if consonant then replaceLast? 1 "ies" word
    else if endsIn "fe" word && !endsIn "ffe" word then replaceLast? 2 "ves" word
    else if endsIn "lf" word || endsIn "rf" word then replaceLast? 1 "ves" word
    else some (word ++ "s".toList)

/-- The plural of a single word. -/
def ofWord? (word : Text) : Option Text :=
  if word.isEmpty || uncountable.contains (String.ofList word) then some word
  else match irregular.lookup (String.ofList word) with
    | some plural => some plural.toList
    | none => byEnding? word

variable {word : Text}

/-- Replacing nothing is adding to a word. -/
theorem replaceLast_zero (ending : String) (word : Text) :
    replaceLast 0 ending word = word ++ ending.toList := by
  rw [replaceLast, Nat.sub_zero, List.take_length]

/-- The last letters of a word can be replaced when each of them has one byte. -/
theorem replaceLast?_append (stem : Text) {last : Text} (single : last.byteLength = last.length)
    (ending : String) :
    replaceLast? last.length ending (stem ++ last) =
      some (replaceLast last.length ending (stem ++ last)) := by
  have stop : minus? (stem ++ last).byteLength last.length = some stem.byteLength := by
    rw [Text.byteLength_append, single, minus?_add_right]
  have kept : (stem ++ last).take ((stem ++ last).length - last.length) = stem := by
    rw [List.length_append, Nat.add_sub_cancel, List.take_left]
  rw [replaceLast?, stop, Option.bind_eq_bind, Option.bind_some, Text.upTo?_append, replaceLast,
    kept]
  rfl

/-- A word with an ending is what stands before the ending, and the ending. -/
theorem exists_append_of_endsIn {ending : String} (h : endsIn ending word = true) :
    ∃ stem, word = stem ++ ending.toList := by
  obtain ⟨stem, joined⟩ := List.isSuffixOf_iff_suffix.1 h
  exact ⟨stem, joined.symm⟩

/-- The byte before a final `y` can be looked at, and tells whether a vowel stands there. -/
theorem isVowelBefore?_append (stem : Text) (before : Char) :
    isVowelBefore? (stem ++ [before, 'y']) 1 = some (vowels.contains before) := by
  obtain ⟨byte, found, -⟩ := exists_getLast?_utf8EncodeChar before
  -- what is looked at is the last byte in front of the byte of the `y`
  let front := Text.bytes stem ++ String.utf8EncodeChar before
  have bytes : Text.bytes (stem ++ [before, 'y']) = front ++ [0x79] := by
    have letter : String.utf8EncodeChar 'y' = [0x79] := by decide
    simp [Text.bytes, front, letter]
  have last : front.getLast? = some byte := by
    rw [List.getLast?_append, found, Option.some_or]
  have positive : 0 < front.length :=
    List.length_pos_iff.2 (List.append_ne_nil_of_right_ne_nil _ fun none => by simp [none] at found)
  have place : (front ++ [0x79])[front.length - 1]? = some byte := by
    rw [List.getElem?_append_left (by omega), ← List.getLast?_eq_getElem?, last]
  have bound : 1 < front.length + 1 := by omega
  have before : minus? front.length 1 = some (front.length - 1) := if_pos positive
  rw [isVowelBefore?, bytes, List.length_append, List.length_singleton, if_pos bound,
    minus?_add_right]
  simp only [Option.bind_eq_bind, Option.bind_some, before, place]
  exact congrArg some (contains_vowelBytes_of_getLast? found)

/-- A word that ends in `y` after a consonant ends in `y`. -/
theorem endsIn_of_endsInConsonantY (h : endsInConsonantY word = true) : endsIn "y" word = true := by
  rw [endsInConsonantY] at h
  split at h
  · rename_i before rest reversed
    have joined : word = (before :: rest).reverse ++ "y".toList := by
      rw [← word.reverse_reverse, reversed, List.reverse_cons]
      rfl
    rw [endsIn, List.isSuffixOf_iff_suffix, joined]
    exact List.suffix_append _ _
  · cases h

/-- Whether a word ends in a consonant and `y` can be told from its bytes. -/
theorem endsInConsonantY?_eq (word : Text) :
    endsInConsonantY? word = some (endsInConsonantY word) := by
  rw [endsInConsonantY?]
  by_cases ends : endsIn "y" word = true
  · obtain ⟨stem, rfl⟩ := exists_append_of_endsIn ends
    rcases List.eq_nil_or_concat' stem with rfl | ⟨front, before, rfl⟩
    · rfl
    · have whole : front ++ [before] ++ "y".toList = front ++ [before, 'y'] := by simp
      have long : 1 < Text.byteLength (front ++ [before, 'y']) := by
        have positive := before.utf8Size_pos
        have single : 'y'.utf8Size = 1 := by decide
        rw [Text.byteLength_append, Text.byteLength_cons, Text.byteLength_cons]
        omega
      rw [whole] at ends ⊢
      rw [ends, decide_eq_true long, Bool.and_self, if_pos rfl, isVowelBefore?_append]
      simp [endsInConsonantY]
  · have other : endsInConsonantY word = false := by
      rw [← Bool.not_eq_true]
      exact fun h => ends (endsIn_of_endsInConsonantY h)
    rw [Bool.not_eq_true] at ends
    rw [ends, other]
    rfl

/-- No cut misses in the plural of a word by its ending. -/
theorem byEnding?_eq (word : Text) : byEnding? word = some (byEnding word) := by
  rw [byEnding?, byEnding, endsInConsonantY?_eq]
  simp only [replaceLast_zero, Option.bind_eq_bind, Option.bind_some]
  split_ifs with quiz sis sibilant consonant fe f
  · rfl
  · obtain ⟨stem, rfl⟩ := exists_append_of_endsIn sis
    exact replaceLast?_append stem rfl "ses"
  · rfl
  · obtain ⟨stem, rfl⟩ := exists_append_of_endsIn (endsIn_of_endsInConsonantY consonant)
    exact replaceLast?_append stem rfl "ies"
  · obtain ⟨stem, rfl⟩ := exists_append_of_endsIn (Bool.and_eq_true_iff.1 fe).1
    exact replaceLast?_append stem rfl "ves"
  · -- of either ending the last letter is cut off
    have cut : ∀ (letter : Char) (stem : Text), replaceLast? 1 "ves" (stem ++ [letter, 'f']) =
        some (replaceLast 1 "ves" (stem ++ [letter, 'f'])) := by
      intro letter stem
      rw [← List.singleton_append, ← List.append_assoc]
      exact replaceLast?_append (stem ++ [letter]) rfl "ves"
    rcases Bool.or_eq_true_iff.1 f with lf | rf
    · obtain ⟨stem, rfl⟩ := exists_append_of_endsIn lf
      exact cut 'l' stem
    · obtain ⟨stem, rfl⟩ := exists_append_of_endsIn rf
      exact cut 'r' stem
  · rfl

/-- No cut misses in the plural of a word. -/
theorem ofWord?_eq (word : Text) : ofWord? word = some (ofWord word) := by
  rw [ofWord?, ofWord]
  split_ifs
  · rfl
  · cases irregular.lookup (String.ofList word) with
    | some plural => rfl
    | none => exact byEnding?_eq word

/-- The last word of a text has no underscore, and one stands before it unless it is all. -/
theorem beforeLastWord_cases (text : Text) :
    '_' ∉ lastWord text ∧
      (beforeLastWord text = [] ∨ ∃ front, beforeLastWord text = front ++ ['_']) := by
  constructor
  · intro inside
    have kept := List.mem_takeWhile_imp (List.mem_reverse.1 inside)
    simp at kept
  · rw [beforeLastWord]
    cases rest : text.reverse.dropWhile (· != '_') with
    | nil => exact .inl rfl
    | cons first others =>
      have stopped := List.head?_dropWhile_not (· != '_') text.reverse
      rw [rest] at stopped
      obtain rfl : first = '_' := by simpa using stopped
      exact .inr ⟨others.reverse, List.reverse_cons⟩

/-- What stands up to the last underscore of a text, and its last word. -/
def cutLastWord? (text : Text) : Option (Text × Text) :=
  match Text.lastOffset? '_' text with
  | some offset => text.splitAt? (offset + 1)
  | none => some ([], text)

/-- The cut behind the last underscore does not miss. -/
theorem cutLastWord?_eq (text : Text) :
    cutLastWord? text = some (beforeLastWord text, lastWord text) := by
  have parts := beforeLastWord_append_lastWord text
  obtain ⟨last, none | ⟨front, ends⟩⟩ := beforeLastWord_cases text
  · rw [none, List.nil_append] at parts
    rw [parts] at last
    rw [cutLastWord?, Text.lastOffset?_of_not_mem last, none, parts]
  · have place : Text.lastOffset? '_' text = some (Text.byteLength front) := by
      rw [← parts, ends, List.append_assoc, List.singleton_append, Text.lastOffset?_append last]
    have behind : Text.byteLength front + 1 = Text.byteLength (beforeLastWord text) := by
      rw [ends, Text.byteLength_append]
      rfl
    have cut := Text.splitAt?_append (beforeLastWord text) (lastWord text)
    rw [parts, ← behind] at cut
    rw [cutLastWord?, place]
    exact cut

end Plural

/-- The plural of an English noun, of which only the last word is inflected. -/
def pluralize? (text : String) : Option String := do
  let (front, last) ← Plural.cutLastWord? text.toList
  let plural ← Plural.ofWord? last
  return String.ofList (front ++ plural)

/-- No cut misses in the plural of a noun. -/
theorem pluralize?_eq (text : String) : pluralize? text = some (pluralize text) := by
  rw [pluralize?, Plural.cutLastWord?_eq, Option.bind_eq_bind, Option.bind_some]
  dsimp only
  rw [Plural.ofWord?_eq]
  rfl

end EntitySchema
