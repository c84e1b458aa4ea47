import EntitySchema.Proofs.Checked.Outcome
import EntitySchema.Proofs.Source.Segments
import EntitySchema.Source.FieldLine
import Mathlib.Data.List.ModifyLast

/-! # Segments accessed by position

The segments of a definition are collected in a list: a colon starts a new segment at the end, and
any other token is pushed onto the last segment. The list is never empty, so the first segment can be
looked at; and where there is a second one, the segments behind it can be cut off. -/

namespace EntitySchema

namespace Segment

/-! ## Pushing tokens -/

/-- The segment with a token at its end. -/
def push (segment : Segment) (token : Token DefinitionToken) : Segment :=
  ⟨segment.tokens ++ [token],
    ⟨if segment.tokens.isEmpty then token.span.start else segment.span.start, token.span.stop⟩⟩

/-- Segments with a token pushed onto the last of them, or with a new segment after a colon. -/
def pushOnto (segments : List Segment) (token : Token DefinitionToken) : List Segment :=
  match token.kind with
  | .colon => segments ++ [emptyAt token.span.stop]
  | _ => segments.modifyLast (·.push token)

/-- The segments of the tokens of a definition that begins at a byte offset. -/
def collect (offset : Nat) (tokens : List (Token DefinitionToken)) : List Segment :=
  tokens.foldl pushOnto [emptyAt offset]

/-- A segment and the tokens of another one, which stand right behind it. -/
def join (segment next : Segment) : Segment :=
  if next.tokens.isEmpty then segment
  else ⟨segment.tokens ++ next.tokens,
    ⟨if segment.tokens.isEmpty then next.span.start else segment.span.start, next.span.stop⟩⟩

variable {token : Token DefinitionToken} {tokens : List (Token DefinitionToken)} {offset : Nat}

/-- The first segment has no place but the offset when it has no tokens. -/
theorem group_fst_of_isEmpty (h : (group offset tokens).1.tokens.isEmpty = true) :
    (group offset tokens).1 = emptyAt offset := by
  cases tokens with
  | nil => rfl
  | cons token rest =>
    by_cases colon : token.kind = .colon
    · rw [group_cons_of_colon colon]
    · rw [group_cons_of_ne_colon colon] at h
      cases h

/-- Nothing stands before the first segment. -/
theorem emptyAt_join_group (offset : Nat) (tokens : List (Token DefinitionToken)) :
    (emptyAt offset).join (group offset tokens).1 = (group offset tokens).1 := by
  rw [join]
  split
  · rename_i none
    exact (group_fst_of_isEmpty none).symm
  · rfl

/-- A token in front of a segment is pushed onto what stands before. -/
theorem join_cons (segment next : Segment) (token : Token DefinitionToken)
    (behind : next.tokens.isEmpty = true → next.span.stop = token.span.stop) :
    segment.join (next.cons token) = (segment.push token).join next := by
  cases tokens : next.tokens with
  | nil => simp [join, push, cons, tokens, behind]
  | cons first others => simp [join, push, cons, tokens]

/-- Tokens that are pushed one by one are grouped behind what was collected before. -/
theorem foldl_pushOnto (front : List Segment) (segment : Segment)
    (tokens : List (Token DefinitionToken)) (offset : Nat) :
    tokens.foldl pushOnto (front ++ [segment]) =
      front ++ segment.join (group offset tokens).1 :: (group offset tokens).2 := by
  induction tokens generalizing front segment offset with
  | nil => rfl
  | cons token rest ih =>
    rw [List.foldl_cons]
    by_cases colon : token.kind = .colon
    · have started : pushOnto (front ++ [segment]) token =
          (front ++ [segment]) ++ [emptyAt token.span.stop] := by
        rw [pushOnto, colon]
      rw [group_cons_of_colon colon, started, ih _ _ token.span.stop, emptyAt_join_group,
        List.append_assoc]
      rfl
    · have pushed : pushOnto (front ++ [segment]) token = front ++ [segment.push token] := by
        rw [pushOnto]
        split
        · contradiction
        · exact List.modifyLast_concat _ _ _
      have behind : (group token.span.stop rest).1.tokens.isEmpty = true →
          (group token.span.stop rest).1.span.stop = token.span.stop := by
        intro none
        rw [group_fst_of_isEmpty none]
        rfl
      rw [group_cons_of_ne_colon colon, pushed, ih _ _ token.span.stop, join_cons _ _ _ behind]

/-- The segments that are collected are those of the grouping. -/
theorem collect_eq (offset : Nat) (tokens : List (Token DefinitionToken)) :
    collect offset tokens = (group offset tokens).1 :: (group offset tokens).2 := by
  have pushed := foldl_pushOnto [] (emptyAt offset) tokens offset
  rwa [emptyAt_join_group] at pushed

end Segment

/-! ## The field of the segments -/

/-- The items of a list behind the first `count` ones; fewer items cannot be cut off. -/
def dropChecked? {α : Type} (count : Nat) (items : List α) : Option (List α) :=
  if count ≤ items.length then some (items.drop count) else none

namespace FieldLine

open Checked

/-- The field of a definition, given the list of its segments. -/
def fieldOfSegments? (line : Nat) (span : Span) (rules : List String) (segments : List Segment) :
    Checked Field := do
  let nameSegment ← access segments[0]?
  let rawName := String.ofList nameSegment.text.trim
  let some typeSegment := segments[1]? | throw ⟨.missingType rawName, line, span⟩
  let name ← outcome ((FieldName.ofString rawName).mapError fun defect =>
    ⟨.refused defect, line, nameSegment.span⟩)
  let (typePiece, params) := typeSegment.pieces
  let type := String.ofList typePiece.trim
  if type.isEmpty then
    throw ⟨.missingType rawName, line, typeSegment.span⟩
  let field ← outcome ((Field.declare name type).mapError fun defect =>
    ⟨.refused defect, line, span⟩)
  let propertySegments ← access (dropChecked? 2 segments)
  let properties ← outcome (propertySegments.foldlM (addProperty line) .empty)
  return { field with params := params.map String.ofList, properties, rules }

/-- No access to a segment misses. -/
theorem fieldOfSegments?_eq (line : Nat) (span : Span) (rules : List String) (first : Segment)
    (others : List Segment) :
    fieldOfSegments? line span rules (first :: others) =
      outcome (fieldOfSegments line span rules (first, others)) := by
  cases others with
  | nil => rfl
  | cons second properties =>
    have behind : dropChecked? 2 (first :: second :: properties) = some properties :=
      if_pos (Nat.le_add_left 2 properties.length)
    simp only [fieldOfSegments?, fieldOfSegments, behind, List.getElem?_cons_zero,
      List.getElem?_cons_succ, access_some_bind, ← outcome_bind]
    refine bind_congr fun name => ?_
    by_cases untyped : (String.ofList second.pieces.1.trim).isEmpty = true
    · rw [if_pos untyped, if_pos untyped]
      rfl
    · rw [if_neg untyped, if_neg untyped]
      simp only [← outcome_bind]
      rfl

end FieldLine

end EntitySchema
