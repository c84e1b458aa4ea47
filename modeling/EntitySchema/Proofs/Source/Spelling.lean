import EntitySchema.Proofs.Source.TokenPlaces
import Mathlib.Data.List.Chain

/-! # Definitions spelled by tokens

The tokens of a definition *spell* it: their spans fill the bytes of the definition without a gap,
their texts join to the definition, the colons and commas among them are exactly those of the
definition, and between these stand runs of other characters that are never empty and never split.
Every definition is spelled by tokens, by no others, and these are what the scanner finds. -/

namespace EntitySchema

/-- A run of accepted characters, behind which the next one is not accepted, is what is taken from
the front. -/
theorem Text.takeWhile_append_of_ends {accepts : Char → Bool} {run rest : Text}
    (accepted : ∀ c ∈ run, accepts c = true) (ends : ∀ c ∈ rest.head?, accepts c = false) :
    (run ++ rest).takeWhile accepts = run := by
  have none : rest.takeWhile accepts = [] := by
    cases rest with
    | nil => rfl
    | cons c tail => exact List.takeWhile_cons_of_neg (Bool.eq_false_iff.1 (ends c rfl))
  rw [List.takeWhile_append_of_pos accepted, none, List.append_nil]

/-! ## Spans without a gap -/

namespace Span

variable {span : Span} {start : Nat} {text front part : Text} {c : Char}

/-- Whether spans follow one another without a gap from one offset to another. -/
def Tile : Nat → Nat → List Span → Prop
  | start, stop, [] => start = stop
  | start, stop, span :: rest => span.start = start ∧ Tile span.stop stop rest

/-- A span that holds a part begins where it begins and ends behind the part. -/
theorem Holds.eq_ofText (h : span.Holds start text part) : span = .ofText span.start part := by
  obtain ⟨before, after, -, rfl⟩ := h
  rfl

/-- A character that the front of a text lacks is held behind the front. -/
theorem holds_singleton_append_iff (h : c ∉ front) :
    span.Holds start (front ++ text) [c] ↔ span.Holds (start + front.byteLength) text [c] := by
  refine ⟨?_, Holds.append_left⟩
  rintro ⟨before, after, parts, rfl⟩
  rw [List.append_assoc, List.append_eq_append_iff] at parts
  obtain ⟨middle, rfl, rest⟩ | ⟨middle, rfl, rest⟩ := parts
  · refine ⟨middle, after, by rw [rest, List.append_assoc], ?_⟩
    rw [Text.byteLength_append, Nat.add_assoc]
  · -- the character would stand in the front
    cases middle with
    | nil =>
      refine ⟨[], after, rest.symm, ?_⟩
      rw [List.append_nil, Text.byteLength_nil, Nat.add_zero]
    | cons d tail =>
      obtain ⟨rfl, -⟩ := List.cons.inj rest
      exact absurd (List.mem_append_right before List.mem_cons_self) h

/-- A character is held where it stands first, or behind that. -/
theorem holds_singleton_cons_self_iff :
    span.Holds start (c :: text) [c] ↔
      span = .ofText start [c] ∨ span.Holds (start + c.utf8Size) text [c] := by
  constructor
  · rintro ⟨before, after, parts, rfl⟩
    cases before with
    | nil => exact .inl rfl
    | cons d rest =>
      obtain ⟨rfl, tail⟩ := List.cons.inj parts
      refine .inr ⟨rest, after, tail, ?_⟩
      rw [Text.byteLength_cons, Nat.add_assoc]
  · rintro (rfl | behind)
    · exact ⟨[], text, rfl, rfl⟩
    · have front : Text.byteLength [c] = c.utf8Size := rfl
      rw [← front] at behind
      exact behind.append_left

end Span

/-! ## Marks -/

namespace DefinitionToken

/-- The character of a mark; a run of other characters has none. -/
def mark? : DefinitionToken → Option Char
  | .colon => some ':'
  | .comma => some ','
  | .text => none

variable {kind other : DefinitionToken} {c : Char}

/-- A mark belongs to no run of other characters. -/
theorem isPlain_of_mark? (h : kind.mark? = some c) : isPlain c = false := by
  cases kind <;> cases h <;> rfl

/-- Only a run of other characters has no mark. -/
theorem mark?_eq_none_iff : kind.mark? = none ↔ kind = .text := by
  cases kind <;> simp [mark?]

/-- A mark has one kind. -/
theorem eq_of_mark? (h : kind.mark? = some c) (same : other.mark? = some c) : other = kind := by
  cases kind <;> cases h <;> cases other <;> cases same <;> rfl

/-- A character that belongs to no run of other characters is a mark. -/
theorem exists_mark? (h : isPlain c = false) : ∃ kind, mark? kind = some c := by
  simp only [isPlain, Bool.and_eq_false_iff, bne_eq_false_iff_eq] at h
  rcases h with rfl | rfl
  · exact ⟨.colon, rfl⟩
  · exact ⟨.comma, rfl⟩

/-- The longest match at a mark is the mark alone. -/
theorem longest?_of_mark? (h : kind.mark? = some c) (rest : Text) :
    definitionLexicon.longest? c rest = some (some kind, 0) := by
  rw [longest?_definitionLexicon]
  cases kind <;> cases h <;> rfl

end DefinitionToken

/-! ## Tokens of a definition, one after the other -/

namespace Token

/-- Whether tokens are lexed from a definition that begins at a byte offset. -/
inductive Lexed : Nat → Text → List (Token DefinitionToken) → Prop where
  /-- Nothing is left. -/
  | nil (offset : Nat) : Lexed offset [] []
  /-- A mark is a token. -/
  | mark {kind : DefinitionToken} {c : Char} (isMark : kind.mark? = some c) {offset : Nat}
      {rest : Text} {tokens : List (Token DefinitionToken)}
      (later : Lexed (Span.ofText offset [c]).stop rest tokens) :
      Lexed offset (c :: rest) (⟨kind, .ofText offset [c], [c]⟩ :: tokens)
  /-- Other characters up to the next mark are a token. -/
  | run {run : Text} (nonempty : run ≠ []) (plain : ∀ c ∈ run, isPlain c = true) {offset : Nat}
      {rest : Text} {tokens : List (Token DefinitionToken)}
      (ends : ∀ c ∈ rest.head?, isPlain c = false)
      (later : Lexed (Span.ofText offset run).stop rest tokens) :
      Lexed offset (run ++ rest) (⟨.text, .ofText offset run, run⟩ :: tokens)

/-- From every definition tokens are lexed. -/
theorem exists_lexed (offset : Nat) (text : Text) : ∃ tokens, Lexed offset text tokens := by
  -- a token takes at least one character, so the induction is on the length of what is left
  induction length : text.length using Nat.strong_induction_on generalizing offset text with
  | _ count ih =>
    cases text with
    | nil => exact ⟨[], .nil offset⟩
    | cons first text =>
      by_cases plain : isPlain first = true
      · obtain ⟨run, rest, rfl, -, others, ends⟩ := Text.exists_run isPlain text
        have shorter : rest.length < count := by
          rw [← length, List.length_cons, List.length_append]
          omega
        obtain ⟨tokens, later⟩ := ih _ shorter (Span.ofText offset (first :: run)).stop rest rfl
        rw [← List.cons_append]
        exact ⟨_, .run (List.cons_ne_nil first run) (List.forall_mem_cons.2 ⟨plain, others⟩) ends
          later⟩
      · obtain ⟨kind, isMark⟩ := DefinitionToken.exists_mark? (Bool.eq_false_iff.2 plain)
        have shorter : text.length < count := by
          rw [← length, List.length_cons]
          exact Nat.lt_succ_self _
        obtain ⟨tokens, later⟩ := ih _ shorter (Span.ofText offset [first]).stop text rfl
        exact ⟨_, .mark isMark later⟩

namespace Lexed

variable {offset : Nat} {text : Text} {tokens : List (Token DefinitionToken)}

/-- Tokens that are lexed are what the scanner finds. -/
theorem scan_eq (h : Lexed offset text tokens) :
    definitionLexicon.scan offset text = .ok tokens := by
  induction h with
  | nil offset => exact Lexicon.scan_nil _ _
  | @mark kind c isMark offset rest _ _ ih =>
    have longest : definitionLexicon.longest? c ([] ++ rest) =
        some (some kind, ([] : Text).length) := DefinitionToken.longest?_of_mark? isMark rest
    exact Lexicon.scan_match longest ih
  | @run run nonempty plain offset rest _ ends _ ih =>
    obtain ⟨first, others, rfl⟩ := List.exists_cons_of_ne_nil nonempty
    rw [List.forall_mem_cons] at plain
    have longest : definitionLexicon.longest? first (others ++ rest) =
        some (some .text, others.length) := by
      have colon : first ≠ ':' := fun same => by simp [same, isPlain] at plain
      have comma : first ≠ ',' := fun same => by simp [same, isPlain] at plain
      rw [longest?_definitionLexicon, if_neg colon, if_neg comma,
        Text.takeWhile_append_of_ends plain.2 ends]
    rw [List.cons_append]
    exact Lexicon.scan_match longest ih

/-- The spans of the tokens fill the bytes of the definition. -/
theorem tile (h : Lexed offset text tokens) :
    Span.Tile offset (offset + text.byteLength) (tokens.map (·.span)) := by
  induction h with
  | nil offset => rfl
  | @mark _ c _ offset rest _ _ ih =>
    refine ⟨rfl, ?_⟩
    have stop : (Span.ofText offset [c]).stop + rest.byteLength =
        offset + Text.byteLength (c :: rest) := Nat.add_assoc _ _ _
    rwa [stop] at ih
  | @run run _ _ offset rest _ _ _ ih =>
    refine ⟨rfl, ?_⟩
    have stop : (Span.ofText offset run).stop + rest.byteLength =
        offset + Text.byteLength (run ++ rest) := by
      rw [Text.byteLength_append, ← Nat.add_assoc]
      rfl
    rwa [stop] at ih

/-- The texts of the tokens join to the definition. -/
theorem flatMap_text (h : Lexed offset text tokens) : tokens.flatMap (·.text) = text := by
  induction h with
  | nil offset => rfl
  | mark _ _ ih => rw [List.flatMap_cons, ih, List.singleton_append]
  | run _ _ _ _ ih => rw [List.flatMap_cons, ih]

/-- A token with the kind of a mark has the text of the mark. -/
theorem text_of_mark? (h : Lexed offset text tokens) {token : Token DefinitionToken} {c : Char}
    (inside : token ∈ tokens) (isMark : token.kind.mark? = some c) : token.text = [c] := by
  induction h with
  | nil offset => cases inside
  | @mark kind d here _ _ _ _ ih =>
    rcases List.mem_cons.1 inside with rfl | later
    · rw [Option.some.inj (here.symm.trans isMark)]
    · exact ih later
  | run _ _ _ _ ih =>
    rcases List.mem_cons.1 inside with rfl | later
    · cases isMark
    · exact ih later

/-- A token without a mark has other characters, at least one. -/
theorem of_kind_eq_text (h : Lexed offset text tokens) {token : Token DefinitionToken}
    (inside : token ∈ tokens) (kind : token.kind = .text) :
    token.text ≠ [] ∧ ∀ c ∈ token.text, isPlain c = true := by
  induction h with
  | nil offset => cases inside
  | mark here _ ih =>
    rcases List.mem_cons.1 inside with rfl | later
    · cases kind
      cases here
    · exact ih later
  | run nonempty plain _ _ ih =>
    rcases List.mem_cons.1 inside with rfl | later
    · exact ⟨nonempty, plain⟩
    · exact ih later

/-- Every mark of the definition is a token, in its place. -/
theorem mem_of_holds (h : Lexed offset text tokens) {kind : DefinitionToken} {c : Char}
    (isMark : kind.mark? = some c) {span : Span} (held : span.Holds offset text [c]) :
    ⟨kind, span, [c]⟩ ∈ tokens := by
  induction h with
  | nil offset =>
    obtain ⟨before, after, parts, -⟩ := held
    simp at parts
  | @mark other d here offset rest _ _ ih =>
    by_cases same : d = c
    · subst same
      rcases Span.holds_singleton_cons_self_iff.1 held with rfl | behind
      · rw [DefinitionToken.eq_of_mark? here isMark]
        exact List.mem_cons_self
      · exact List.mem_cons_of_mem _ (ih behind)
    · have lacking : c ∉ [d] := by simpa using Ne.symm same
      exact List.mem_cons_of_mem _ (ih ((Span.holds_singleton_append_iff lacking).1 held))
  | @run run _ plain offset rest _ _ _ ih =>
    have lacking : c ∉ run := fun inside => by
      have marked := plain c inside
      rw [DefinitionToken.isPlain_of_mark? isMark] at marked
      cases marked
    exact List.mem_cons_of_mem _ (ih ((Span.holds_singleton_append_iff lacking).1 held))

/-- A definition that does not begin with other characters has a mark as its first token. -/
theorem head?_kind_ne_text (h : Lexed offset text tokens)
    (ends : ∀ c ∈ text.head?, isPlain c = false) : ∀ token ∈ tokens.head?, token.kind ≠ .text := by
  cases h with
  | nil => exact fun token none => nomatch none
  | mark isMark later =>
    rintro token ⟨⟩ kind
    cases kind
    cases isMark
  | @run run nonempty plain _ rest tokens _ later =>
    obtain ⟨first, others, rfl⟩ := List.exists_cons_of_ne_nil nonempty
    have marked := ends first rfl
    rw [plain first List.mem_cons_self] at marked
    cases marked

/-- No two runs of other characters are neighbors. -/
theorem isChain (h : Lexed offset text tokens) :
    tokens.IsChain fun first second => ¬ (first.kind = .text ∧ second.kind = .text) := by
  induction h with
  | nil offset => exact List.isChain_nil
  | mark isMark _ ih =>
    refine List.isChain_cons.2 ⟨?_, ih⟩
    rintro next - ⟨kind, -⟩
    cases kind
    cases isMark
  | run _ _ ends later ih =>
    exact List.isChain_cons.2 ⟨fun next first kinds =>
      later.head?_kind_ne_text ends next first kinds.2, ih⟩

end Lexed

/-! ## What spells a definition -/

/-- Whether tokens spell a definition that begins at a byte offset. -/
structure Spell (offset : Nat) (text : Text) (tokens : List (Token DefinitionToken)) : Prop where
  /-- The spans of the tokens follow one another without a gap, from the beginning of the
  definition to its end. -/
  tile : Span.Tile offset (offset + text.byteLength) (tokens.map (·.span))
  /-- The span of a token holds its text. -/
  holds : ∀ token ∈ tokens, token.span.Holds offset text token.text
  /-- The texts of the tokens join to the definition. -/
  joined : tokens.flatMap (·.text) = text
  /-- The colons and commas among the tokens are those of the definition. -/
  mem_iff_of_mark : ∀ (token : Token DefinitionToken) (c : Char), token.kind.mark? = some c →
    (token ∈ tokens ↔ token.text = [c] ∧ token.span.Holds offset text [c])
  /-- The other tokens are not empty and have no colon or comma. -/
  run : ∀ token ∈ tokens, token.kind = .text →
    token.text ≠ [] ∧ ':' ∉ token.text ∧ ',' ∉ token.text
  /-- No two of the other tokens are neighbors. -/
  apart : tokens.IsChain fun first second => ¬ (first.kind = .text ∧ second.kind = .text)

variable {offset : Nat} {text : Text} {tokens : List (Token DefinitionToken)}

/-- A character belongs to runs when it is neither a colon nor a comma. -/
theorem forall_isPlain_iff {run : Text} :
    (∀ c ∈ run, isPlain c = true) ↔ ':' ∉ run ∧ ',' ∉ run := by
  simp only [isPlain, Bool.and_eq_true, bne_iff_ne]
  constructor
  · intro plain
    exact ⟨fun inside => (plain _ inside).1 rfl, fun inside => (plain _ inside).2 rfl⟩
  · rintro ⟨colon, comma⟩ c inside
    exact ⟨fun same => colon (same ▸ inside), fun same => comma (same ▸ inside)⟩

/-- Tokens that are lexed from a definition spell it. -/
theorem Lexed.spell (h : Lexed offset text tokens) : Spell offset text tokens where
  tile := h.tile
  holds := Lexicon.span_holds_of_scan h.scan_eq
  joined := h.flatMap_text
  mem_iff_of_mark token c isMark := by
    constructor
    · intro inside
      have same := h.text_of_mark? inside isMark
      refine ⟨same, ?_⟩
      rw [← same]
      exact Lexicon.span_holds_of_scan h.scan_eq token inside
    · rintro ⟨same, held⟩
      obtain ⟨kind, span, text⟩ := token
      obtain rfl : text = [c] := same
      exact h.mem_of_holds isMark held
  run token inside kind := by
    obtain ⟨nonempty, plain⟩ := h.of_kind_eq_text inside kind
    exact ⟨nonempty, forall_isPlain_iff.1 plain⟩
  apart := h.isChain

/-- Contiguous tokens, each with the characters of its kind and no two runs side by side, are lexed
from their texts. -/
theorem lexed_of_contiguous (contiguous : Contiguous offset tokens)
    (marks : ∀ token ∈ tokens, ∀ c, token.kind.mark? = some c → token.text = [c])
    (runs : ∀ token ∈ tokens, token.kind = .text →
      token.text ≠ [] ∧ ∀ c ∈ token.text, isPlain c = true)
    (apart : tokens.IsChain fun first second => ¬ (first.kind = .text ∧ second.kind = .text)) :
    Lexed offset (tokens.flatMap (·.text)) tokens := by
  induction tokens generalizing offset with
  | nil => exact .nil offset
  | cons token rest ih =>
    rw [List.forall_mem_cons] at marks runs
    obtain ⟨separate, apart⟩ := List.isChain_cons.1 apart
    obtain ⟨place, contiguous⟩ := contiguous
    have later := ih contiguous marks.2 runs.2 apart
    obtain ⟨kind, span, text⟩ := token
    obtain rfl : span = .ofText offset text := place
    rw [List.flatMap_cons]
    cases isMark : kind.mark? with
    | some c =>
      obtain rfl : text = [c] := marks.1 c isMark
      exact .mark isMark later
    | none =>
      obtain rfl := DefinitionToken.mark?_eq_none_iff.1 isMark
      obtain ⟨nonempty, plain⟩ := runs.1 rfl
      refine .run nonempty plain (fun c first => ?_) later
      -- the token behind the run is a mark, and the rest begins with it
      cases rest with
      | nil => cases first
      | cons next others =>
        have other : next.kind ≠ .text := fun same => separate next rfl ⟨rfl, same⟩
        obtain ⟨d, nextMark⟩ :=
          Option.ne_none_iff_exists'.1 (mt DefinitionToken.mark?_eq_none_iff.1 other)
        rw [List.flatMap_cons, marks.2 next List.mem_cons_self d nextMark] at first
        obtain rfl := Option.some.inj first
        exact DefinitionToken.isPlain_of_mark? nextMark

/-- Spans without a gap that have the lengths of the texts make tokens contiguous. -/
theorem contiguous_of_tile {stop : Nat} (tile : Span.Tile offset stop (tokens.map (·.span)))
    (sized : ∀ token ∈ tokens, token.span = .ofText token.span.start token.text) :
    Contiguous offset tokens := by
  induction tokens generalizing offset with
  | nil => trivial
  | cons token rest ih =>
    rw [List.forall_mem_cons] at sized
    obtain ⟨start, later⟩ := tile
    refine ⟨?_, ih later sized.2⟩
    rw [← start]
    exact sized.1

/-- Tokens that spell a definition are lexed from it. -/
theorem Spell.lexed (h : Spell offset text tokens) : Lexed offset text tokens := by
  rw [← h.joined]
  refine lexed_of_contiguous ?_ (fun token inside c isMark => ?_) (fun token inside kind => ?_)
    h.apart
  · exact contiguous_of_tile h.tile fun token inside => (h.holds token inside).eq_ofText
  · exact ((h.mem_iff_of_mark token c isMark).1 inside).1
  · obtain ⟨nonempty, lacking⟩ := h.run token inside kind
    exact ⟨nonempty, forall_isPlain_iff.2 lacking⟩

end Token

/-- The tokens of a definition are those that spell it. -/
theorem definitionTokens_eq_ok_iff {text : Text} {offset line : Nat}
    {tokens : List (Token DefinitionToken)} :
    definitionTokens text offset line = .ok tokens ↔ Token.Spell offset text tokens := by
  rw [definitionTokens, Outcome.mapError_eq_ok_iff]
  constructor
  · intro scanned
    obtain ⟨others, lexed⟩ := Token.exists_lexed offset text
    obtain rfl := Except.ok.inj (lexed.scan_eq.symm.trans scanned)
    exact lexed.spell
  · intro spell
    exact spell.lexed.scan_eq

end EntitySchema
