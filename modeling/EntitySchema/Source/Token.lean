import EntitySchema.Source.Lexicon

/-! # Tokens of fields and headers

The definition of a field is made of colons, commas and runs of other text, blanks included. A
header is made of words separated by spaces, tabs, carriage returns and form feeds; other blanks are
part of a word. -/

namespace EntitySchema

/-- The kinds of token in the definition of a field. -/
inductive DefinitionToken where
  /-- A colon, which separates name, type and properties. -/
  | colon
  /-- A comma, which separates the type and its parameters. -/
  | comma
  /-- A run of other characters. -/
  | text
  deriving DecidableEq, Repr

/-- The kind of token in a header. -/
inductive HeaderToken where
  /-- A run of characters without a separator. -/
  | word
  deriving DecidableEq, Repr

/-- The name of a kind of token. -/
def DefinitionToken.description : DefinitionToken → String
  | .colon => "':'"
  | .comma => "','"
  | .text => "text"

/-- The name of a kind of token. -/
def HeaderToken.description : HeaderToken → String
  | .word => "word"

/-- Whether a character is neither a colon nor a comma. -/
def isPlain (c : Char) : Bool := c != ':' && c != ','

/-- Whether a character separates the words of a header. -/
def isSeparator (c : Char) : Bool := c == ' ' || c == '\t' || c == '\r' || c == '\x0c'

/-- The tokens of the definition of a field. -/
def definitionLexicon : Lexicon DefinitionToken :=
  [(.char ':', some .colon), (.char ',', some .comma), (.run isPlain, some .text)]

/-- The words of a header, between separators that are passed over. -/
def headerLexicon : Lexicon HeaderToken :=
  [(.run isSeparator, none), (.run (!isSeparator ·), some .word)]

/-- The tokens of the definition of a field that begins at a byte offset on the numbered line. -/
def definitionTokens (text : Text) (offset line : Nat) :
    Except SourceError (List (Token DefinitionToken)) :=
  (definitionLexicon.scan offset text).mapError fun span => ⟨.unknownToken, line, span⟩

/-- The words of a header that begins at a byte offset on the numbered line. -/
def headerTokens (text : Text) (offset line : Nat) :
    Except SourceError (List (Token HeaderToken)) :=
  (headerLexicon.scan offset text).mapError fun span => ⟨.unknownToken, line, span⟩

end EntitySchema
