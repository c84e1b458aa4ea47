import EntitySchema.Proofs.Source.TokenPlaces
import EntitySchema.Proofs.Source.WordPlaces

/-! # Segments with their places

The segments of a definition are its parts between colons, each in the place that it has in the
line, and the pieces of a segment are its parts between commas. -/

namespace EntitySchema

/-- The segments of contiguous tokens are the parts between the colons, in their places. -/
theorem Segment.map_group_eq_placed {tokens : List (Token DefinitionToken)} {offset : Nat}
    (fit : ∀ token ∈ tokens, token.Fits) (contiguous : Token.Contiguous offset tokens) :
    ((group offset tokens).1 :: (group offset tokens).2).map (fun segment =>
        (segment.span, segment.text)) =
      Text.placed offset ((tokens.flatMap (·.text)).splitOn ':') := by
  induction tokens generalizing offset with
  | nil => rfl
  | cons token rest ih =>
    obtain ⟨place, later⟩ := contiguous
    have fits : token.Fits := fit token List.mem_cons_self
    have tail := ih (fun other inside => fit other (List.mem_cons_of_mem token inside)) later
    have stop : token.span.stop = offset + token.text.byteLength := by
      rw [place]
      rfl
    rw [List.flatMap_cons]
    by_cases colon : token.kind = .colon
    · -- the colon ends an empty segment, and the next one begins a byte later
      have next : token.span.stop = offset + 1 := by
        rw [stop, fits.text_of_colon colon]
        rfl
      rw [next] at tail
      rw [group_cons_of_colon colon, fits.text_of_colon colon, List.singleton_append,
        List.splitOn_cons_eq_if_modifyHead, if_pos (beq_self_eq_true ':'), List.map_cons, next,
        tail]
      rfl
    · -- the first segment begins earlier by the token, and the others stay in place
      obtain ⟨part, parts, split⟩ :=
        List.exists_cons_of_ne_nil (List.splitOn_ne_nil ':' (rest.flatMap (·.text)))
      have start : token.span.start = offset := by
        rw [place]
        rfl
      rw [split, Text.placed_cons, List.map_cons, List.cons.injEq, Prod.mk.injEq, stop] at tail
      obtain ⟨⟨span, text⟩, others⟩ := tail
      have behind : offset + token.text.byteLength + Text.byteLength part + 1 =
          offset + Text.byteLength (token.text ++ part) + 1 := by
        rw [Text.byteLength_append, Nat.add_assoc offset]
      rw [group_cons_of_ne_colon colon, Text.splitOn_append_of_not_mem (fits.colon_not_mem colon),
        split, List.modifyHead_cons, Text.placed_cons, List.map_cons, text_cons, stop, others, text,
        behind]
      have whole : ((group (offset + token.text.byteLength) rest).1.cons token).span =
          .ofText offset (token.text ++ part) := by
        simp only [cons, span, start, Span.ofText, Text.byteLength_append, Nat.add_assoc]
      rw [whole]

/-- The segments of a definition, in their places, are its parts between colons, each with its
pieces between commas. -/
theorem exists_placed_segments (definition : Text) (offset line : Nat) :
    ∃ tokens first others, definitionTokens definition offset line = .ok tokens ∧
      Segment.group offset tokens = (first, others) ∧
      (first :: others).map (fun segment => (segment.span, segment.text)) =
        Text.placed offset (definition.splitOn ':') ∧
      ∀ segment ∈ first :: others,
        segment.pieces.1 :: segment.pieces.2 = segment.text.splitOn ',' := by
  obtain ⟨tokens, first, others, found, grouped, -, pieces⟩ :=
    exists_segments definition offset line
  obtain ⟨_, same, fit, spelled⟩ := definitionTokens_eq_ok definition offset line
  obtain rfl := Except.ok.inj (same.symm.trans found)
  have contiguous := contiguous_of_scan_definitionLexicon (Outcome.mapError_eq_ok_iff.1 found)
  refine ⟨_, first, others, found, grouped, ?_, pieces⟩
  have places := Segment.map_group_eq_placed fit contiguous
  rwa [grouped, spelled] at places

end EntitySchema
