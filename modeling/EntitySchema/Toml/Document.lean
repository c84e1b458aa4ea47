import EntitySchema.Toml.Scalar

/-! # TOML documents

A document is a sequence of lines: pairs of a key and a value, headers of tables, and headers of
elements of lists of tables. Reading gives the members of the whole document, or fails where the
text is no valid document. -/

namespace EntitySchema.Toml

/-- The items of a list in brackets, of which the opening was taken; `take` reads one item. -/
def takeItems (take : Text → Option (Toml × Text)) : Nat → Text → Option (List Toml × Text)
  | 0, _ => none
  | fuel + 1, text =>
    match skipTrivia false text with
    | ']' :: rest => some ([], rest)
    | text => do
      let (item, rest) ← take text
      match skipTrivia false rest with
      | ',' :: rest =>
        let (items, rest) ← takeItems take fuel rest
        return (item :: items, rest)
      | ']' :: rest => return ([item], rest)
      | _ => none

/-- The pairs of a table in braces, from the key of the next one; `take` reads one value. -/
def takePairs (take : Text → Option (Toml × Text)) : Nat → Members → Text → Option (Members × Text)
  | 0, _, _ => none
  | fuel + 1, members, text => do
    let (key, rest) ← takeKey text
    let (value, rest) ← take (skipSpaces (← takeChar '=' rest))
    let members ← addPair key value .inline members
    match skipSpaces rest with
    | ',' :: rest => takePairs take fuel members rest
    | '\x7d' :: rest => return (members, rest)
    | _ => none

/-- A value, in which lists and tables may be nested as often as told. -/
def takeValue : Nat → Text → Option (Toml × Text)
  | depth + 1, '[' :: rest =>
    (takeItems (takeValue depth) (rest.length + 1) rest).map fun (items, rest) =>
      (.array items, rest)
  | depth + 1, '\x7b' :: rest =>
    match skipSpaces rest with
    | '\x7d' :: rest => some (.table .inline [], rest)
    | rest =>
      (takePairs (takeValue depth) (rest.length + 1) [] rest).map fun (members, rest) =>
        (.table .inline members, rest)
  | _, text => takeScalar text

/-- A statement of a document. -/
inductive Statement where
  /-- A header, which opens a table. -/
  | table (key : KeyPath)
  /-- A header, which opens an element of a list of tables. -/
  | element (key : KeyPath)
  /-- A pair of a key and a value for the open table. -/
  | pair (key : KeyPath) (value : Toml)

/-- One statement with the end of its line. -/
def takeStatement : Text → Option (Statement × Text)
  | '[' :: '[' :: rest => do
    let (key, rest) ← takeKey rest
    let rest ← takeChar ']' (← takeChar ']' rest)
    return (.element key, ← takeLineEnd rest)
  | '[' :: rest => do
    let (key, rest) ← takeKey rest
    return (.table key, ← takeLineEnd (← takeChar ']' rest))
  | text => do
    let (key, rest) ← takeKey text
    let (value, rest) ← takeValue maxNesting (skipSpaces (← takeChar '=' rest))
    return (.pair key value, ← takeLineEnd rest)

/-- The statements of a document, between empty lines and comments. -/
def takeStatements : Nat → Text → Option (List Statement)
  | 0, _ => none
  | fuel + 1, text =>
    match skipSpaces text with
    | [] => some []
    | '#' :: rest => do takeStatements fuel (← takeLineEnd ('#' :: rest))
    | text =>
      match takeNewline? text with
      | some rest => takeStatements fuel rest
      | none => do
        let (statement, rest) ← takeStatement text
        return statement :: (← takeStatements fuel rest)

/-- A document that is being read: the path of the open table, and all members so far. -/
abbrev Progress := List String × Members

/-- Carries out one statement. -/
def Statement.run (document : Progress) : Statement → Option Progress
  | .table key => do return (key.parents ++ [key.last], ← openTable key document.2)
  | .element key => do return (key.parents ++ [key.last], ← openElement key document.2)
  | .pair key value => do return (document.1, ← addPairAt document.1 key value document.2)

/-- The members of a document; a byte order mark at its front is passed over. -/
def parse (text : Text) : Option Members := do
  let text := match text with
    | '\uFEFF' :: rest => rest
    | text => text
  let statements ← takeStatements (text.length + 1) text
  let document ← statements.foldlM Statement.run ([], [])
  return document.2

end EntitySchema.Toml
