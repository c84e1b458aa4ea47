import EntitySchema.Proofs.Source.Segments
import EntitySchema.Proofs.Outcome
import EntitySchema.Proofs.Text.Places

/-! # The places of tokens and segments

A token has the span of the characters that were matched for it, wherever the scanner passed over
others. The tokens of a definition follow one another without a gap, so the segments made of them
have the spans of their texts as well. -/

namespace EntitySchema

/-! ## Tokens -/

namespace Lexicon

variable {κ : Type} {lexicon : Lexicon κ}

/-- The span of a token holds its text. -/
theorem span_holds_of_scan {offset : Nat} {text : Text} {tokens : List (Token κ)}
    (h : lexicon.scan offset text = .ok tokens) :
    ∀ token ∈ tokens, token.span.Holds offset text token.text := by
  -- the scanner goes on behind a match, so the induction is on the length of what is left
  induction length : text.length using Nat.strong_induction_on generalizing offset text tokens with
  | _ count ih =>
    cases text with
    | nil =>
      rw [scan_nil] at h
      obtain rfl := Except.ok.inj h
      exact List.forall_mem_nil _
    | cons first rest =>
      rw [scan] at h
      cases longest : lexicon.longest? first rest with
      | none =>
        rw [longest] at h
        cases h
      | some found =>
        obtain ⟨kind, extent⟩ := found
        rw [longest] at h
        dsimp only at h
        have parts : first :: rest = (first :: rest.take extent) ++ rest.drop extent := by
          rw [List.cons_append, List.take_append_drop]
        have shorter : (rest.drop extent).length < count := by
          rw [← length, List.length_cons, List.length_drop]
          omega
        cases scanned : lexicon.scan (Span.ofText offset (first :: rest.take extent)).stop
            (rest.drop extent) with
        | error place =>
          rw [scanned] at h
          cases h
        | ok others =>
          rw [scanned] at h
          -- a token behind the match is held in the text with the match in front
          have later : ∀ token ∈ others, token.span.Holds offset (first :: rest) token.text := by
            intro token inside
            rw [parts]
            exact (ih _ shorter scanned rfl token inside).append_left
          cases kind with
          | none =>
            obtain rfl := Except.ok.inj h
            exact later
          | some kind =>
            obtain rfl := Except.ok.inj h
            rw [List.forall_mem_cons]
            refine ⟨?_, later⟩
            have matched : first :: rest.take extent <+: first :: rest :=
              ⟨rest.drop extent, parts.symm⟩
            exact Span.holds_of_prefix matched

end Lexicon

/-- The words of a header are held by their spans. -/
theorem span_holds_of_headerTokens {text : Text} {offset line : Nat}
    {words : List (Token HeaderToken)} (h : headerTokens text offset line = .ok words) :
    ∀ word ∈ words, word.span.Holds offset text word.text :=
  Lexicon.span_holds_of_scan (Outcome.mapError_eq_ok_iff.1 h)

/-- Whether tokens follow one another from a byte offset on without a gap. -/
def Token.Contiguous {κ : Type} : Nat → List (Token κ) → Prop
  | _, [] => True
  | offset, token :: rest =>
    token.span = .ofText offset token.text ∧ Contiguous token.span.stop rest

/-- The tokens of a definition follow one another without a gap. -/
theorem contiguous_of_scan_definitionLexicon {offset : Nat} {text : Text}
    {tokens : List (Token DefinitionToken)} (h : definitionLexicon.scan offset text = .ok tokens) :
    Token.Contiguous offset tokens := by
  induction length : text.length using Nat.strong_induction_on generalizing offset text tokens with
  | _ count ih =>
    cases text with
    | nil =>
      rw [Lexicon.scan_nil] at h
      obtain rfl := Except.ok.inj h
      trivial
    | cons first text =>
      -- in a definition every match is a token
      obtain ⟨kind, run, rest, rfl, longest, -⟩ := exists_longest?_definitionLexicon first text
      have shorter : rest.length < count := by
        rw [← length, List.length_cons, List.length_append]
        omega
      obtain ⟨others, scanned, -⟩ :=
        scan_definitionLexicon (Span.ofText offset (first :: run)).stop rest
      rw [Lexicon.scan_match longest scanned] at h
      obtain rfl := Except.ok.inj h
      exact ⟨rfl, ih _ shorter scanned rfl⟩

/-! ## Segments -/

namespace Segment

/-- The characters of contiguous tokens are grouped into segments which have the spans of their
texts; the first segment stands in front. -/
theorem span_group {tokens : List (Token DefinitionToken)} {offset : Nat}
    (contiguous : Token.Contiguous offset tokens) :
    (group offset tokens).1.span = .ofText offset (group offset tokens).1.text ∧
      (group offset tokens).1.text <+: tokens.flatMap (·.text) ∧
      ∀ segment ∈ (group offset tokens).2,
        segment.span.Holds offset (tokens.flatMap (·.text)) segment.text := by
  induction tokens generalizing offset with
  | nil => exact ⟨rfl, List.prefix_refl _, List.forall_mem_nil _⟩
  | cons token rest ih =>
    obtain ⟨place, later⟩ := contiguous
    obtain ⟨span, front, others⟩ := ih later
    have stop : token.span.stop = offset + token.text.byteLength := by
      rw [place]
      rfl
    -- what is held behind the token is held in the whole
    have behind : ∀ {segment : Segment},
        segment.span.Holds token.span.stop (rest.flatMap (·.text)) segment.text →
        segment.span.Holds offset ((token :: rest).flatMap (·.text)) segment.text := by
      intro segment inRest
      rw [stop] at inRest
      exact inRest.append_left
    by_cases colon : token.kind = .colon
    · rw [group_cons_of_colon colon]
      refine ⟨rfl, List.nil_prefix, ?_⟩
      rw [List.forall_mem_cons]
      refine ⟨behind ?_, fun segment inside => behind (others segment inside)⟩
      rw [span]
      exact Span.holds_of_prefix front
    · rw [group_cons_of_ne_colon colon]
      refine ⟨?_, ?_, fun segment inside => behind (others segment inside)⟩
      · -- the token and the rest of the segment are one text
        have start : token.span.start = offset := by
          rw [place]
          rfl
        have ends : (group token.span.stop rest).1.span.stop =
            token.span.stop + (group token.span.stop rest).1.text.byteLength := by
          rw [span]
          rfl
        show (⟨token.span.start, (group token.span.stop rest).1.span.stop⟩ : Span) =
          .ofText offset (token.text ++ (group token.span.stop rest).1.text)
        rw [start, ends, stop, Span.ofText, Text.byteLength_append, Nat.add_assoc]
      · rw [text_cons, List.flatMap_cons]
        exact (List.prefix_append_right_inj _).2 front

/-- The span of every segment holds its text. -/
theorem span_holds_of_mem_group {tokens : List (Token DefinitionToken)} {offset : Nat}
    (contiguous : Token.Contiguous offset tokens) :
    ∀ segment ∈ (group offset tokens).1 :: (group offset tokens).2,
      segment.span.Holds offset (tokens.flatMap (·.text)) segment.text := by
  obtain ⟨span, front, others⟩ := span_group contiguous
  rw [List.forall_mem_cons]
  refine ⟨?_, others⟩
  rw [span]
  exact Span.holds_of_prefix front

end Segment

/-- The segments of a definition are held by their spans. -/
theorem span_holds_of_definitionTokens {definition : Text} {offset line : Nat}
    {tokens : List (Token DefinitionToken)}
    (h : definitionTokens definition offset line = .ok tokens) :
    ∀ segment ∈ (Segment.group offset tokens).1 :: (Segment.group offset tokens).2,
      segment.span.Holds offset definition segment.text := by
  obtain ⟨others, found, -, spelled⟩ := definitionTokens_eq_ok definition offset line
  obtain rfl : others = tokens := Except.ok.inj (found.symm.trans h)
  rw [← spelled]
  apply Segment.span_holds_of_mem_group
  exact contiguous_of_scan_definitionLexicon (Outcome.mapError_eq_ok_iff.1 h)

end EntitySchema
