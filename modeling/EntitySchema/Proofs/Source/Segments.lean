import EntitySchema.Proofs.Source.Scanning
import EntitySchema.Source.Segment

/-! # Segments and pieces as splits

Grouping the tokens of a definition by colons splits its text at every colon, and grouping the
tokens of a segment by commas splits the text of the segment at every comma. -/

namespace EntitySchema

namespace Token

variable {token : Token DefinitionToken}

/-- A colon is spelled as one. -/
theorem Fits.text_of_colon (h : token.Fits) (kind : token.kind = .colon) :
    token.text = [':'] := by
  rwa [Fits, kind] at h

/-- A comma is spelled as one. -/
theorem Fits.text_of_comma (h : token.Fits) (kind : token.kind = .comma) :
    token.text = [','] := by
  rwa [Fits, kind] at h

/-- Only a colon is spelled with a colon. -/
theorem Fits.colon_not_mem (h : token.Fits) (kind : token.kind ≠ .colon) : ':' ∉ token.text := by
  intro inside
  rw [Fits] at h
  split at h
  · contradiction
  · simp [h] at inside
  · simpa [isPlain] using h _ inside

/-- Only a comma is spelled with a comma. -/
theorem Fits.comma_not_mem (h : token.Fits) (kind : token.kind ≠ .comma) : ',' ∉ token.text := by
  intro inside
  rw [Fits] at h
  split at h
  · simp [h] at inside
  · contradiction
  · simpa [isPlain] using h _ inside

end Token

namespace Segment

variable {token : Token DefinitionToken} {rest : List (Token DefinitionToken)}

/-- A colon ends the first segment. -/
theorem group_cons_of_colon (h : token.kind = .colon) (offset : Nat) :
    group offset (token :: rest) = (emptyAt offset,
      (group token.span.stop rest).1 :: (group token.span.stop rest).2) := by
  simp only [group, h]

/-- Any other token belongs to the first segment. -/
theorem group_cons_of_ne_colon (h : token.kind ≠ .colon) (offset : Nat) :
    group offset (token :: rest) = ((group token.span.stop rest).1.cons token,
      (group token.span.stop rest).2) := by
  cases kind : token.kind with
  | colon => exact absurd kind h
  | comma => simp only [group, kind]
  | text => simp only [group, kind]

/-- A comma ends the first piece. -/
theorem splitPieces_cons_of_comma (h : token.kind = .comma) :
    splitPieces (token :: rest) = ([], (splitPieces rest).1 :: (splitPieces rest).2) := by
  simp only [splitPieces, h]

/-- Any other token belongs to the first piece. -/
theorem splitPieces_cons_of_ne_comma (h : token.kind ≠ .comma) :
    splitPieces (token :: rest) = (token.text ++ (splitPieces rest).1, (splitPieces rest).2) := by
  cases kind : token.kind with
  | colon => simp only [splitPieces, kind]
  | comma => exact absurd kind h
  | text => simp only [splitPieces, kind]

/-- The segments of tokens have the parts between the colons as their texts. -/
theorem map_text_group {tokens : List (Token DefinitionToken)}
    (fit : ∀ token ∈ tokens, token.Fits) (offset : Nat) :
    ((group offset tokens).1 :: (group offset tokens).2).map Segment.text =
      (tokens.flatMap (·.text)).splitOn ':' := by
  induction tokens generalizing offset with
  | nil => rfl
  | cons token rest ih =>
    have fits : token.Fits := fit token List.mem_cons_self
    have tail := ih (fun other later => fit other (List.mem_cons_of_mem token later))
      token.span.stop
    rw [List.flatMap_cons]
    by_cases colon : token.kind = .colon
    · rw [group_cons_of_colon colon, fits.text_of_colon colon, List.singleton_append,
        List.splitOn_cons_eq_if_modifyHead, ← tail]
      rfl
    · rw [group_cons_of_ne_colon colon,
        Text.splitOn_append_of_not_mem (fits.colon_not_mem colon), ← tail]
      rfl

/-- The segments of tokens hold none but these tokens. -/
theorem mem_of_mem_group {tokens : List (Token DefinitionToken)} {offset : Nat}
    {segment : Segment} (h : segment ∈ (group offset tokens).1 :: (group offset tokens).2)
    (inside : token ∈ segment.tokens) : token ∈ tokens := by
  induction tokens generalizing offset segment with
  | nil =>
    obtain rfl : segment = emptyAt offset := by simpa [group] using h
    simp [emptyAt] at inside
  | cons first rest ih =>
    by_cases colon : first.kind = .colon
    · rw [group_cons_of_colon colon] at h
      rcases List.mem_cons.1 h with rfl | later
      · simp [emptyAt] at inside
      · exact List.mem_cons_of_mem first (ih later inside)
    · rw [group_cons_of_ne_colon colon] at h
      rcases List.mem_cons.1 h with rfl | later
      · rcases List.mem_cons.1 inside with rfl | later
        · exact List.mem_cons_self
        · exact List.mem_cons_of_mem first (ih List.mem_cons_self later)
      · exact List.mem_cons_of_mem first (ih (List.mem_cons_of_mem _ later) inside)

/-- The pieces of tokens are the parts between the commas. -/
theorem splitPieces_eq_splitOn {tokens : List (Token DefinitionToken)}
    (fit : ∀ token ∈ tokens, token.Fits) :
    (splitPieces tokens).1 :: (splitPieces tokens).2 =
      (tokens.flatMap (·.text)).splitOn ',' := by
  induction tokens with
  | nil => rfl
  | cons token rest ih =>
    have fits : token.Fits := fit token List.mem_cons_self
    have tail := ih fun other later => fit other (List.mem_cons_of_mem token later)
    rw [List.flatMap_cons]
    by_cases comma : token.kind = .comma
    · rw [splitPieces_cons_of_comma comma, fits.text_of_comma comma, List.singleton_append,
        List.splitOn_cons_eq_if_modifyHead, ← tail]
      rfl
    · rw [splitPieces_cons_of_ne_comma comma,
        Text.splitOn_append_of_not_mem (fits.comma_not_mem comma), ← tail]
      rfl

end Segment

/-- A definition is read as its parts between colons, each with its parts between commas. -/
theorem exists_segments (definition : Text) (offset line : Nat) :
    ∃ tokens first others, definitionTokens definition offset line = .ok tokens ∧
      Segment.group offset tokens = (first, others) ∧
      (first :: others).map Segment.text = definition.splitOn ':' ∧
      ∀ segment ∈ first :: others,
        segment.pieces.1 :: segment.pieces.2 = segment.text.splitOn ',' := by
  obtain ⟨tokens, found, fit, spelled⟩ := definitionTokens_eq_ok definition offset line
  refine ⟨tokens, _, _, found, rfl, ?_, fun segment inside => ?_⟩
  · rw [Segment.map_text_group fit, spelled]
  · exact Segment.splitPieces_eq_splitOn fun token later =>
      fit token (Segment.mem_of_mem_group inside later)

end EntitySchema
