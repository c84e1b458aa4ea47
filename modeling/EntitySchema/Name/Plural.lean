import EntitySchema.Text.Blank

/-! # English plurals

The name of a table is the plural of the lowercased name of its entity. Only the last
underscore-separated word is inflected. A word is looked up among the uncountable and the irregular
nouns first; every other word is inflected by its ending, where the first fitting rule wins. -/

namespace EntitySchema

namespace Plural

/-- Nouns whose plural is the same as the singular. -/
def uncountable : List String :=
  ["audio", "data", "equipment", "feedback", "fish", "information", "metadata", "money", "news",
    "rice", "series", "sheep", "species"]

/-- Nouns with a plural that no ending explains. -/
def irregular : List (String × String) :=
  [("child", "children"), ("foot", "feet"), ("goose", "geese"), ("man", "men"), ("mouse", "mice"),
    ("ox", "oxen"), ("person", "people"), ("tooth", "teeth"), ("woman", "women")]

/-- Whether a word ends in the given letters. -/
def endsIn (ending : String) (word : Text) : Bool := ending.toList.isSuffixOf word

/-- A word with its last `count` letters replaced. -/
def replaceLast (count : Nat) (ending : String) (word : Text) : Text :=
  word.take (word.length - count) ++ ending.toList

/-- The letters that are vowels before a final `y`. -/
def vowels : List Char := ['a', 'e', 'i', 'o', 'u']

/-- Whether a word ends in `y` after a character that is not a vowel. -/
def endsInConsonantY (word : Text) : Bool :=
  match word.reverse with
  | 'y' :: before :: _ => !vowels.contains before
  | _ => false

/-- The plural of a word by its ending. -/
def byEnding (word : Text) : Text :=
  if endsIn "quiz" word then replaceLast 0 "zes" word
  else if endsIn "sis" word then replaceLast 3 "ses" word
  else if ["sh", "ch", "s", "x", "z"].any (endsIn · word) then replaceLast 0 "es" word
  else if endsInConsonantY word then replaceLast 1 "ies" word
  else if endsIn "fe" word && !endsIn "ffe" word then replaceLast 2 "ves" word
  else if endsIn "lf" word || endsIn "rf" word then replaceLast 1 "ves" word
  else replaceLast 0 "s" word

/-- The plural of a single word; the empty word has none. -/
def ofWord (word : Text) : Text :=
  if word.isEmpty || uncountable.contains (String.ofList word) then word
  else match irregular.lookup (String.ofList word) with
    | some plural => plural.toList
    | none => byEnding word

/-- The characters after the last underscore. -/
def lastWord (text : Text) : Text := (text.reverse.takeWhile (· != '_')).reverse

/-- The characters up to the last underscore, with it. -/
def beforeLastWord (text : Text) : Text := (text.reverse.dropWhile (· != '_')).reverse

/-- A text is what stands up to its last underscore and its last word. -/
theorem beforeLastWord_append_lastWord (text : Text) :
    beforeLastWord text ++ lastWord text = text := by
  rw [beforeLastWord, lastWord, ← List.reverse_append, List.takeWhile_append_dropWhile,
    List.reverse_reverse]

end Plural

/-- The plural of an English noun, of which only the last underscore-separated word is inflected. -/
def pluralize (text : String) : String :=
  String.ofList (Plural.beforeLastWord text.toList ++ Plural.ofWord (Plural.lastWord text.toList))

example : ["category", "day", "blog_analysis", "knife", "giraffe", "shelf", "box", "quiz", "person",
      "fish", "y", "_", ""].map pluralize
    = ["categories", "days", "blog_analyses", "knives", "giraffes", "shelves", "boxes", "quizzes",
      "people", "fish", "ys", "_", ""] := by decide

end EntitySchema
