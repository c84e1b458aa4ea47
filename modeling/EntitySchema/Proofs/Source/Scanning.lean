import EntitySchema.Proofs.Text.Cutting
import EntitySchema.Source.Token
import Mathlib.Data.List.TakeWhile

/-! # What the scanner finds

Both small languages have a token for every text, so scanning never fails. The tokens of a
definition spell it out; the tokens of a header are its words, the parts between separators. -/

namespace EntitySchema

namespace Lexicon

variable {κ : Type} {lexicon : Lexicon κ} {first : Char} {run rest : Text}

/-- Scanning takes the longest match and goes on behind it. -/
theorem scan_match {kind : κ}
    (h : lexicon.longest? first (run ++ rest) = some (some kind, run.length))
    {offset : Nat} {tokens : List (Token κ)}
    (scanned : lexicon.scan (Span.ofText offset (first :: run)).stop rest = .ok tokens) :
    lexicon.scan offset (first :: (run ++ rest)) =
      .ok (⟨kind, .ofText offset (first :: run), first :: run⟩ :: tokens) := by
  rw [scan, h]
  simp only [List.take_left, List.drop_left, scanned]

/-- Scanning passes over a match without a kind. -/
theorem scan_skipped (h : lexicon.longest? first (run ++ rest) = some (none, run.length))
    {offset : Nat} {tokens : List (Token κ)}
    (scanned : lexicon.scan (Span.ofText offset (first :: run)).stop rest = .ok tokens) :
    lexicon.scan offset (first :: (run ++ rest)) = .ok tokens := by
  rw [scan, h]
  simp only [List.take_left, List.drop_left, scanned]

end Lexicon

/-- A text begins with a run of accepted characters, behind which the next one is not accepted. -/
theorem Text.exists_run (accepts : Char → Bool) (text : Text) :
    ∃ run rest, text = run ++ rest ∧ (text.takeWhile accepts).length = run.length ∧
      (∀ c ∈ run, accepts c = true) ∧ ∀ c ∈ rest.head?, accepts c = false := by
  refine ⟨text.takeWhile accepts, text.dropWhile accepts, List.takeWhile_append_dropWhile.symm,
    rfl, fun c hc => List.mem_takeWhile_imp hc, fun c hc => ?_⟩
  have head := List.head?_dropWhile_not accepts text
  rw [hc] at head
  simpa using head

/-! ## Definitions -/

/-- The longest match in a definition: a single mark, or all plain characters that follow. -/
theorem longest?_definitionLexicon (first : Char) (rest : Text) :
    definitionLexicon.longest? first rest =
      if first = ':' then some (some .colon, 0)
      else if first = ',' then some (some .comma, 0)
      else some (some .text, (rest.takeWhile isPlain).length) := by
  simp only [definitionLexicon, Lexicon.longest?, Pattern.extent]
  by_cases colon : first = ':'
  · subst colon
    simp [isPlain]
  · by_cases comma : first = ','
    · subst comma
      simp [isPlain]
    · simp [isPlain, colon, comma]

/-- Whether a token of a definition has the characters of its kind. -/
def Token.Fits (token : Token DefinitionToken) : Prop :=
  match token.kind with
  | .colon => token.text = [':']
  | .comma => token.text = [',']
  | .text => ∀ c ∈ token.text, isPlain c = true

/-- A text begins with a token that fits its kind. -/
theorem exists_longest?_definitionLexicon (first : Char) (text : Text) :
    ∃ kind run rest, text = run ++ rest ∧
      definitionLexicon.longest? first text = some (some kind, run.length) ∧
        ∀ span, Token.Fits ⟨kind, span, first :: run⟩ := by
  rw [longest?_definitionLexicon]
  by_cases colon : first = ':'
  · exact ⟨.colon, [], text, rfl, if_pos colon, fun span => by rw [colon]; rfl⟩
  · rw [if_neg colon]
    by_cases comma : first = ','
    · exact ⟨.comma, [], text, rfl, if_pos comma, fun span => by rw [comma]; rfl⟩
    · obtain ⟨run, rest, parts, extent, plain, -⟩ := Text.exists_run isPlain text
      refine ⟨.text, run, rest, parts, by rw [if_neg comma, extent], fun span c hc => ?_⟩
      rcases List.mem_cons.1 hc with rfl | inside
      · simp [isPlain, colon, comma]
      · exact plain c inside

/-- A definition is scanned into tokens that fit their kinds and spell it out. -/
theorem scan_definitionLexicon (offset : Nat) (text : Text) :
    ∃ tokens, definitionLexicon.scan offset text = .ok tokens ∧
      (∀ token ∈ tokens, token.Fits) ∧ tokens.flatMap (·.text) = text := by
  -- the scanner goes on behind a match, so the induction is on the length of what is left
  induction length : text.length using Nat.strong_induction_on generalizing offset text with
  | _ count ih =>
    cases text with
    | nil => exact ⟨[], Lexicon.scan_nil _ _, by simp, rfl⟩
    | cons first text =>
      obtain ⟨kind, run, rest, rfl, longest, fits⟩ := exists_longest?_definitionLexicon first text
      have shorter : rest.length < count := by
        rw [← length, List.length_cons, List.length_append]
        omega
      obtain ⟨tokens, scanned, fit, spelled⟩ :=
        ih _ shorter (Span.ofText offset (first :: run)).stop rest rfl
      refine ⟨_, Lexicon.scan_match longest scanned, ?_, ?_⟩
      · rintro token (_ | ⟨_, later⟩)
        · exact fits _
        · exact fit token later
      · rw [List.flatMap_cons, spelled, List.cons_append]

/-- The tokens of a definition are always found, and spell it out. -/
theorem definitionTokens_eq_ok (text : Text) (offset line : Nat) :
    ∃ tokens, definitionTokens text offset line = .ok tokens ∧
      (∀ token ∈ tokens, token.Fits) ∧ tokens.flatMap (·.text) = text := by
  obtain ⟨tokens, scanned, facts⟩ := scan_definitionLexicon offset text
  exact ⟨tokens, by rw [definitionTokens, scanned]; rfl, facts⟩

/-! ## Headers -/

/-- The longest match in a header: all separators, or all other characters, that follow. -/
theorem longest?_headerLexicon (first : Char) (rest : Text) :
    headerLexicon.longest? first rest =
      if isSeparator first = true then some (none, (rest.takeWhile isSeparator).length)
      else some (some .word, (rest.takeWhile (!isSeparator ·)).length) := by
  simp only [headerLexicon, Lexicon.longest?, Pattern.extent]
  by_cases separator : isSeparator first = true
  · simp [separator]
  · simp [separator]

namespace Text

/-- The words of a text: its parts between separators, without the empty ones. -/
def words (text : Text) : List Text := (text.splitOnP isSeparator).filter (!·.isEmpty)

@[simp] theorem words_nil : words [] = [] := rfl

/-- A separator ends a word, and belongs to none. -/
theorem words_append_cons {c : Char} (h : isSeparator c = true) (left right : Text) :
    words (left ++ c :: right) = words left ++ words right := by
  rw [words, List.splitOnP_append_cons left right h, List.filter_append, words, words]

/-- Characters without a separator are one word. -/
theorem words_of_not_isSeparator {word : Text} (nonempty : word ≠ [])
    (h : ∀ c ∈ word, isSeparator c = false) : words word = [word] := by
  rw [words, List.splitOnP_eq_singleton h]
  simp [nonempty]

/-- Words with a space before every other one are found again. -/
theorem words_append_flatMap {first : Text} {others : List Text}
    (h : ∀ word ∈ first :: others, word ≠ [] ∧ ∀ c ∈ word, isSeparator c = false) :
    words (first ++ others.flatMap (' ' :: ·)) = first :: others := by
  induction others generalizing first with
  | nil =>
    obtain ⟨nonempty, letters⟩ := h first List.mem_cons_self
    rw [List.flatMap_nil, List.append_nil, words_of_not_isSeparator nonempty letters]
  | cons second rest ih =>
    rw [List.forall_mem_cons] at h
    rw [List.flatMap_cons, List.cons_append, words_append_cons rfl, ih h.2,
      words_of_not_isSeparator h.1.1 h.1.2, List.singleton_append]

end Text

end EntitySchema
