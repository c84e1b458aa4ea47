import EntitySchema.Proofs.Source.Scanning
import EntitySchema.Proofs.Text.Places

/-! # Words with their places

When a text is cut at marks of one byte each, every part begins one byte behind the end of the part
before it. The words of a header are its parts between separators with these places, without the
empty ones, and they are what the scanner of headers finds. -/

namespace EntitySchema

/-! ## Places -/

namespace Text

/-- The parts of a text that begins at a byte offset, each with its place, when one byte stands
between any two neighbors. -/
def placed (start : Nat) : List Text → List (Span × Text)
  | [] => []
  | part :: rest => (.ofText start part, part) :: placed (start + part.byteLength + 1) rest

@[simp] theorem placed_nil (start : Nat) : placed start [] = [] := rfl

theorem placed_cons (start : Nat) (part : Text) (rest : List Text) :
    placed start (part :: rest) =
      (.ofText start part, part) :: placed (start + part.byteLength + 1) rest := rfl

/-- The number of bytes of parts, with the byte behind each of them. -/
def extent : List Text → Nat
  | [] => 0
  | part :: rest => part.byteLength + 1 + extent rest

@[simp] theorem extent_cons (part : Text) (rest : List Text) :
    extent (part :: rest) = part.byteLength + 1 + extent rest := rfl

/-- Parts behind others are placed behind their extent. -/
theorem placed_append (start : Nat) (front back : List Text) :
    placed start (front ++ back) = placed start front ++ placed (start + extent front) back := by
  induction front generalizing start with
  | nil => rfl
  | cons part rest ih =>
    have behind : start + part.byteLength + 1 + extent rest = start + extent (part :: rest) := by
      rw [extent_cons]
      omega
    rw [List.cons_append, placed_cons, placed_cons, ih, behind, List.cons_append]

/-- Placing the parts does not change them. -/
@[simp] theorem map_snd_placed (start : Nat) (parts : List Text) :
    (placed start parts).map (·.2) = parts := by
  induction parts generalizing start with
  | nil => rfl
  | cons part rest ih => rw [placed_cons, List.map_cons, ih]

end Text

/-! ## Words -/

/-- Every character that separates words is a single byte. -/
theorem utf8Size_of_isSeparator {c : Char} (h : isSeparator c = true) : c.utf8Size = 1 := by
  simp only [isSeparator, Bool.or_eq_true, beq_iff_eq] at h
  rcases h with ((rfl | rfl) | rfl) | rfl <;> rfl

namespace Text

/-- The parts between separators have the bytes of the text, and one more behind the last. -/
theorem extent_splitOnP_isSeparator (text : Text) :
    extent (text.splitOnP isSeparator) = text.byteLength + 1 := by
  induction text with
  | nil => rfl
  | cons c rest ih =>
    rw [List.splitOnP_cons_eq_if_modifyHead, byteLength_cons]
    split
    · rename_i separator
      rw [extent_cons, ih, utf8Size_of_isSeparator separator, byteLength_nil]
      omega
    · obtain ⟨part, parts, split⟩ :=
        List.exists_cons_of_ne_nil (List.splitOnP_ne_nil isSeparator rest)
      rw [split, extent_cons] at ih
      rw [split, List.modifyHead_cons, extent_cons, byteLength_cons]
      omega

/-- The words of a text that begins at a byte offset: its parts between separators in their places,
without the empty ones. -/
def placedWords (start : Nat) (text : Text) : List (Span × Text) :=
  (placed start (text.splitOnP isSeparator)).filter (!·.2.isEmpty)

@[simp] theorem placedWords_nil (start : Nat) : placedWords start [] = [] := rfl

/-- The words in their places are the words. -/
theorem map_snd_placedWords (start : Nat) (text : Text) :
    (placedWords start text).map (·.2) = text.words := by
  have kept := List.filter_map (f := fun word : Span × Text => word.2) (p := (!·.isEmpty))
    (l := placed start (text.splitOnP isSeparator))
  rw [map_snd_placed] at kept
  rw [words, kept]
  rfl

/-- A separator ends a word, and the words behind it are placed behind it. -/
theorem placedWords_append_cons {c : Char} (h : isSeparator c = true) (start : Nat)
    (left right : Text) :
    placedWords start (left ++ c :: right) =
      placedWords start left ++ placedWords (start + left.byteLength + 1) right := by
  rw [placedWords, List.splitOnP_append_cons left right h, placed_append, List.filter_append,
    extent_splitOnP_isSeparator, ← Nat.add_assoc]
  rfl

/-- Separators at the front belong to no word. -/
theorem placedWords_append_of_isSeparator {front : Text} (h : ∀ c ∈ front, isSeparator c = true)
    (start : Nat) (text : Text) :
    placedWords start (front ++ text) = placedWords (start + front.byteLength) text := by
  induction front generalizing start with
  | nil => rfl
  | cons c rest ih =>
    rw [List.forall_mem_cons] at h
    have passed := placedWords_append_cons h.1 start [] (rest ++ text)
    rw [List.nil_append, placedWords_nil, List.nil_append, byteLength_nil, Nat.add_zero] at passed
    rw [List.cons_append, passed, ih h.2, byteLength_cons, utf8Size_of_isSeparator h.1,
      Nat.add_assoc]

/-- Characters without a separator are one word. -/
theorem placedWords_of_not_isSeparator {word : Text} (nonempty : word ≠ [])
    (h : ∀ c ∈ word, isSeparator c = false) (start : Nat) :
    placedWords start word = [(.ofText start word, word)] := by
  rw [placedWords, List.splitOnP_eq_singleton h, placed_cons]
  simp [nonempty]

/-- A word that the text behind it does not prolong is the first word. -/
theorem placedWords_append_of_not_isSeparator {word : Text} (nonempty : word ≠ [])
    (h : ∀ c ∈ word, isSeparator c = false) {rest : Text}
    (ends : ∀ c ∈ rest.head?, isSeparator c = true) (start : Nat) :
    placedWords start (word ++ rest) =
      (.ofText start word, word) :: placedWords (start + word.byteLength) rest := by
  cases rest with
  | nil => rw [List.append_nil, placedWords_of_not_isSeparator nonempty h, placedWords_nil]
  | cons c tail =>
    have separator : isSeparator c = true := ends c rfl
    have passed := placedWords_append_cons separator (start + word.byteLength) [] tail
    rw [List.nil_append, placedWords_nil, List.nil_append, byteLength_nil, Nat.add_zero] at passed
    rw [placedWords_append_cons separator, placedWords_of_not_isSeparator nonempty h, passed]
    rfl

/-- Whatever its place, a word that the text behind it does not prolong is the first word. -/
theorem words_append_of_not_isSeparator {word : Text} (nonempty : word ≠ [])
    (h : ∀ c ∈ word, isSeparator c = false) {rest : Text}
    (ends : ∀ c ∈ rest.head?, isSeparator c = true) :
    words (word ++ rest) = word :: words rest := by
  rw [← map_snd_placedWords 0, placedWords_append_of_not_isSeparator nonempty h ends, List.map_cons,
    map_snd_placedWords]

end Text

/-- A word of a header as a token. -/
def Token.ofWord (word : Span × Text) : Token HeaderToken := ⟨.word, word.1, word.2⟩

/-- A header is scanned into its words in their places. -/
theorem scan_headerLexicon_eq (offset : Nat) (text : Text) :
    headerLexicon.scan offset text = .ok ((text.placedWords offset).map Token.ofWord) := by
  -- the scanner goes on behind a match, so the induction is on the length of what is left
  induction length : text.length using Nat.strong_induction_on generalizing offset text with
  | _ count ih =>
    cases text with
    | nil => exact Lexicon.scan_nil _ _
    | cons first text =>
      have longest := longest?_headerLexicon first text
      by_cases separator : isSeparator first = true
      · obtain ⟨run, rest, rfl, extent, separators, -⟩ := Text.exists_run isSeparator text
        rw [if_pos separator, extent] at longest
        have shorter : rest.length < count := by
          rw [← length, List.length_cons, List.length_append]
          omega
        have scanned := ih _ shorter (Span.ofText offset (first :: run)).stop rest rfl
        rw [Lexicon.scan_skipped longest scanned, ← List.cons_append,
          Text.placedWords_append_of_isSeparator (List.forall_mem_cons.2 ⟨separator, separators⟩)]
        rfl
      · obtain ⟨run, rest, rfl, extent, others, ends⟩ :=
          Text.exists_run (!isSeparator ·) text
        rw [if_neg separator, extent] at longest
        have shorter : rest.length < count := by
          rw [← length, List.length_cons, List.length_append]
          omega
        have scanned := ih _ shorter (Span.ofText offset (first :: run)).stop rest rfl
        have letters : ∀ c ∈ first :: run, isSeparator c = false := by
          rw [List.forall_mem_cons]
          exact ⟨by simpa using separator, by simpa using others⟩
        have stops : ∀ c ∈ rest.head?, isSeparator c = true := by simpa using ends
        rw [Lexicon.scan_match longest scanned, ← List.cons_append,
          Text.placedWords_append_of_not_isSeparator (List.cons_ne_nil first run) letters stops]
        rfl

/-- The words of a header are found in their places. -/
theorem headerTokens_eq (text : Text) (offset line : Nat) :
    headerTokens text offset line = .ok ((text.placedWords offset).map Token.ofWord) := by
  rw [headerTokens, scan_headerLexicon_eq]
  rfl

/-- The texts of the tokens of a header are its words. -/
theorem map_text_of_headerTokens {text : Text} {offset line : Nat}
    {tokens : List (Token HeaderToken)} (h : headerTokens text offset line = .ok tokens) :
    tokens.map (·.text) = text.words := by
  obtain rfl := Except.ok.inj ((headerTokens_eq text offset line).symm.trans h)
  rw [List.map_map, ← Text.map_snd_placedWords offset]
  rfl

/-- The words of a header are always found. -/
theorem headerTokens_eq_ok (text : Text) (offset line : Nat) :
    ∃ tokens, headerTokens text offset line = .ok tokens ∧ tokens.map (·.text) = text.words :=
  have found := headerTokens_eq text offset line
  ⟨_, found, map_text_of_headerTokens found⟩

end EntitySchema
