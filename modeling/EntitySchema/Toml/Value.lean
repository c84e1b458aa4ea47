import EntitySchema.Text.Blank

/-! # TOML values

The values of a TOML document. Numbers with a fraction and dates are kept as they are written, since
settings use neither. Every table remembers how it came into being, because that decides whether the
document may add to it later. -/

namespace EntitySchema

/-- How a table of a document came into being. -/
inductive TableForm where
  /-- By a header of its own, or as an element of an array of tables. -/
  | header
  /-- By the header of a table inside it. -/
  | parent
  /-- By a dotted key. -/
  | dotted
  /-- As a value in braces. -/
  | inline
  deriving DecidableEq, Repr

/-- A value of a TOML document. -/
inductive Toml where
  /-- A text. -/
  | string (value : String)
  /-- A whole number. -/
  | integer (value : Int)
  /-- A number with a fraction or an exponent, as written. -/
  | float (written : String)
  /-- A truth value. -/
  | boolean (value : Bool)
  /-- A date, a time or both, as written. -/
  | datetime (written : String)
  /-- A list of values in brackets. -/
  | array (items : List Toml)
  /-- A list of tables, each with a header of its own. -/
  | tables (items : List (List (String × Toml)))
  /-- A table. -/
  | table (form : TableForm) (members : List (String × Toml))
  deriving Inhabited

namespace Toml

/-- The members of a table. -/
abbrev Members := List (String × Toml)

/-- A key in a document: the tables it goes through, and its last part. -/
structure KeyPath where
  /-- The parts before the last. -/
  parents : List String
  /-- The last part. -/
  last : String
  deriving DecidableEq, Repr

/-- The members with the value of a key put in place of the old one, or added at the end. -/
def put (key : String) (value : Toml) : Members → Members
  | [] => [(key, value)]
  | (name, old) :: rest =>
    if name = key then (name, value) :: rest else (name, old) :: put key value rest

/-- How keys go through the tables of a document. -/
structure Passage where
  /-- Which tables may be gone through. -/
  enters : TableForm → Bool
  /-- The form of the tables that are made where there is none. -/
  makes : TableForm

/-- The passage of a header: through every table that is not in braces. -/
def Passage.ofHeader : Passage := ⟨(· != .inline), .parent⟩

/-- The passage of a dotted key: through tables that have no header of their own. -/
def Passage.ofKey : Passage := ⟨fun form => form == .parent || form == .dotted, .dotted⟩

/-- Changes the table at the end of a path, making tables on the way; in a list of tables the last
one is meant. Fails where the path meets a table that may not be gone through or another value. -/
def changeAt (passage : Passage) (change : TableForm → Members → Option Members) :
    List String → TableForm → Members → Option Members
  | [], form, members => change form members
  | key :: path, _, members =>
    match members.lookup key with
    | none => do
      let inner ← changeAt passage change path passage.makes []
      return put key (.table passage.makes inner) members
    | some (.table form inner) =>
      if passage.enters form then do
        let inner ← changeAt passage change path form inner
        return put key (.table form inner) members
      else none
    | some (.tables items) =>
      match items.getLast? with
      | none => none
      | some inner => do
        let inner ← changeAt passage change path .header inner
        return put key (.tables (items.dropLast ++ [inner])) members
    | some _ => none

/-- Adds a pair at a dotted key; the key must be new, and its table must be the one it starts from
or one made by dotted keys alone. -/
def addPair (key : KeyPath) (value : Toml) (form : TableForm) (members : Members) :
    Option Members :=
  changeAt .ofKey (fun reached members =>
    if (reached == .dotted) == key.parents.isEmpty then none
    else if (members.lookup key.last).isSome then none
    else some (put key.last value members)) key.parents form members

/-- Opens the table of a header; it must be new, or made by the headers of tables inside it. -/
def openTable (key : KeyPath) (document : Members) : Option Members :=
  changeAt .ofHeader (fun _ members =>
    match members.lookup key.last with
    | none => some (put key.last (.table .header []) members)
    | some (.table .parent inner) => some (put key.last (.table .header inner) members)
    | some _ => none) key.parents .header document

/-- Opens a new element of a list of tables. -/
def openElement (key : KeyPath) (document : Members) : Option Members :=
  changeAt .ofHeader (fun _ members =>
    match members.lookup key.last with
    | none => some (put key.last (.tables [[]]) members)
    | some (.tables items) => some (put key.last (.tables (items ++ [[]])) members)
    | some _ => none) key.parents .header document

/-- Adds a pair to the table with the given path of headers. -/
def addPairAt (table : List String) (key : KeyPath) (value : Toml) (document : Members) :
    Option Members :=
  changeAt .ofHeader (addPair key value) table .header document

end Toml

end EntitySchema
