import EntitySchema.Source.Error

/-! # Lexicons

A *lexicon* lists the kinds of token of a small language, each with the pattern of its texts. At
every place the longest match wins, and of equally long ones the pattern listed first; a pattern
without a kind is passed over. A place where no pattern matches is an error. -/

namespace EntitySchema

/-- The texts of one kind of token. -/
inductive Pattern where
  /-- Exactly one given character. -/
  | char (c : Char)
  /-- One or more characters that are accepted. -/
  | run (accepts : Char → Bool)

/-- How many characters after the first a pattern takes, if it takes the first. -/
def Pattern.extent : Pattern → Char → Text → Option Nat
  | .char expected, first, _ => if first = expected then some 0 else none
  | .run accepts, first, rest =>
    if accepts first then some (rest.takeWhile accepts).length else none

/-- A piece of a text with its kind and its place in the source. -/
structure Token (κ : Type) where
  /-- The kind of the token. -/
  kind : κ
  /-- The place of the token in the source. -/
  span : Span
  /-- The characters of the token. -/
  text : Text
  deriving DecidableEq, Repr

/-- The patterns of a small language; a pattern without a kind is passed over. -/
abbrev Lexicon (κ : Type) := List (Pattern × Option κ)

namespace Lexicon

variable {κ : Type}

/-- The kind and extent of the longest match at the front of a text. -/
def longest? (lexicon : Lexicon κ) (first : Char) (rest : Text) : Option (Option κ × Nat) :=
  match lexicon with
  | [] => none
  | (pattern, kind) :: others =>
    match pattern.extent first rest, longest? others first rest with
    | none, found => found
    | some extent, none => some (kind, extent)
    | some extent, some (otherKind, otherExtent) =>
      if otherExtent ≤ extent then some (kind, extent) else some (otherKind, otherExtent)

/-- The tokens of a text that begins at a byte offset, or the place where no pattern matches. -/
def scan (lexicon : Lexicon κ) (offset : Nat) : Text → Except Span (List (Token κ))
  | [] => .ok []
  | first :: rest =>
    match lexicon.longest? first rest with
    | none => .error (.ofText offset [first])
    | some (kind, extent) =>
      let matched := first :: rest.take extent
      let span := Span.ofText offset matched
      match lexicon.scan span.stop (rest.drop extent) with
      | .error place => .error place
      | .ok tokens =>
        match kind with
        | none => .ok tokens
        | some kind => .ok (⟨kind, span, matched⟩ :: tokens)
termination_by text => text.length
decreasing_by
  simp only [List.length_drop, List.length_cons]
  omega

@[simp] theorem longest?_nil (first : Char) (rest : Text) :
    longest? ([] : Lexicon κ) first rest = none := rfl

@[simp] theorem scan_nil (lexicon : Lexicon κ) (offset : Nat) :
    lexicon.scan offset [] = .ok [] := by
  rw [scan]

end Lexicon

end EntitySchema
