import EntitySchema.Proofs.Source.Spelling
import EntitySchema.Proofs.Source.WordPlaces

/-! # Nothing is lost in lexing

Lexing never fails. The tokens of a definition are those that spell it, and the words of a header
are its longest runs of characters without a separator, in their order and in their places. What
stands between the words is lost on purpose: words that are joined by single spaces are the same
words again. -/

namespace EntitySchema

/-! ## Longest runs -/

/-- Whether a span holds a word of a text that begins at a byte offset: characters without a
separator, at least one, with a separator or an end of the text on either side. -/
def Span.HoldsWord (span : Span) (start : Nat) (text word : Text) : Prop :=
  word ≠ [] ∧ (∀ c ∈ word, isSeparator c = false) ∧
    ∃ before after, text = before ++ word ++ after ∧
      span = .ofText (start + before.byteLength) word ∧
      (∀ c ∈ before.getLast?, isSeparator c = true) ∧ ∀ c ∈ after.head?, isSeparator c = true

namespace Text

/-- What holds of the empty text holds of every text, if it still holds with a separator or with a
whole word in front. -/
theorem induction_words {motive : Text → Prop} (nil : motive [])
    (separator : ∀ c rest, isSeparator c = true → motive rest → motive (c :: rest))
    (word : ∀ front rest, front ≠ [] → (∀ c ∈ front, isSeparator c = false) →
      (∀ c ∈ rest.head?, isSeparator c = true) → motive rest → motive (front ++ rest))
    (text : Text) : motive text := by
  induction length : text.length using Nat.strong_induction_on generalizing text with
  | _ count ih =>
    cases text with
    | nil => exact nil
    | cons first text =>
      by_cases separates : isSeparator first = true
      · refine separator first text separates (ih _ ?_ text rfl)
        rw [← length, List.length_cons]
        exact Nat.lt_succ_self _
      · obtain ⟨run, rest, rfl, -, others, ends⟩ := exists_run (!isSeparator ·) text
        have shorter : rest.length < count := by
          rw [← length, List.length_cons, List.length_append]
          omega
        have letters : ∀ c ∈ first :: run, isSeparator c = false := by
          rw [List.forall_mem_cons]
          exact ⟨by simpa using separates, by simpa using others⟩
        rw [← List.cons_append]
        exact word _ rest (List.cons_ne_nil first run) letters (by simpa using ends)
          (ih _ shorter rest rfl)

/-- A text with a character has bytes. -/
theorem byteLength_pos {text : Text} (h : text ≠ []) : 0 < text.byteLength := by
  obtain ⟨c, rest, rfl⟩ := List.exists_cons_of_ne_nil h
  rw [byteLength_cons]
  exact Nat.add_pos_left c.utf8Size_pos _

/-- A text that ends at a separator, if it does not end at once, has a separator. -/
theorem exists_isSeparator_of_ends {text : Text} (nonempty : text ≠ [])
    (ends : ∀ c ∈ text.getLast?, isSeparator c = true) : ∃ c ∈ text, isSeparator c = true :=
  ⟨text.getLast nonempty, List.getLast_mem nonempty,
    ends _ (List.getLast?_eq_getLast_of_ne_nil nonempty)⟩

/-- A text begins with only one word that ends at a separator or with the text. -/
theorem eq_of_words_in_front {word other behind after : Text}
    (same : word ++ behind = other ++ after)
    (letters : ∀ c ∈ word, isSeparator c = false)
    (ends : ∀ c ∈ behind.head?, isSeparator c = true)
    (others : ∀ c ∈ other, isSeparator c = false)
    (stops : ∀ c ∈ after.head?, isSeparator c = true) : word = other := by
  have first : (word ++ behind).takeWhile (!isSeparator ·) = word :=
    takeWhile_append_of_ends (by simpa using letters) (by simpa using ends)
  have second : (other ++ after).takeWhile (!isSeparator ·) = other :=
    takeWhile_append_of_ends (by simpa using others) (by simpa using stops)
  rw [← first, same, second]

/-- In a text that begins with a separator, a word is not what comes first. -/
theorem ne_nil_of_begins {before word after : Text} (nonempty : word ≠ [])
    (letters : ∀ c ∈ word, isSeparator c = false)
    (begins : ∀ c ∈ (before ++ word ++ after).head?, isSeparator c = true) : before ≠ [] := by
  rintro rfl
  obtain ⟨c, others, rfl⟩ := List.exists_cons_of_ne_nil nonempty
  have separates := begins c rfl
  rw [letters c List.mem_cons_self] at separates
  cases separates

end Text

namespace Span

variable {span : Span} {start : Nat} {front rest word : Text}

/-- A separator in front of a text moves the words of the text. -/
theorem holdsWord_cons_iff {c : Char} (h : isSeparator c = true) :
    span.HoldsWord start (c :: rest) word ↔ span.HoldsWord (start + c.utf8Size) rest word := by
  constructor
  · rintro ⟨nonempty, letters, before, after, parts, rfl, begins, ends⟩
    have separated : ∀ d ∈ (before ++ word ++ after).head?, isSeparator d = true := by
      rw [← parts]
      rintro first ⟨⟩
      exact h
    obtain ⟨d, others, rfl⟩ :=
      List.exists_cons_of_ne_nil (Text.ne_nil_of_begins nonempty letters separated)
    obtain ⟨rfl, tail⟩ := List.cons.inj parts
    refine ⟨nonempty, letters, others, after, tail, ?_, fun last inside => ?_, ends⟩
    · rw [Text.byteLength_cons, Nat.add_assoc]
    · rw [List.getLast?_cons, inside] at begins
      exact begins last rfl
  · rintro ⟨nonempty, letters, before, after, rfl, rfl, begins, ends⟩
    refine ⟨nonempty, letters, c :: before, after, rfl, ?_, ?_, ends⟩
    · rw [Text.byteLength_cons, Nat.add_assoc]
    · cases before with
      | nil =>
        rintro last ⟨⟩
        exact h
      | cons d others => rwa [List.getLast?_cons_cons]

/-- A word in a text that begins with a separator stands behind that. -/
theorem HoldsWord.lt_start (h : span.HoldsWord start rest word)
    (begins : ∀ c ∈ rest.head?, isSeparator c = true) : start < span.start := by
  obtain ⟨nonempty, letters, before, after, rfl, rfl, -, -⟩ := h
  have behind := Text.byteLength_pos (Text.ne_nil_of_begins nonempty letters begins)
  exact Nat.lt_add_of_pos_right behind

/-- A word in front of a text is held first, and moves the words of the text. -/
theorem holdsWord_append_iff (nonempty : front ≠ []) (h : ∀ c ∈ front, isSeparator c = false)
    (ends : ∀ c ∈ rest.head?, isSeparator c = true) :
    span.HoldsWord start (front ++ rest) word ↔
      (span = .ofText start front ∧ word = front) ∨
        span.HoldsWord (start + front.byteLength) rest word := by
  constructor
  · rintro ⟨filled, letters, before, after, parts, rfl, begins, stops⟩
    rw [List.append_assoc, List.append_eq_append_iff] at parts
    obtain ⟨middle, rfl, tail⟩ | ⟨middle, rfl, tail⟩ := parts
    · -- the word stands behind the front
      refine .inr ⟨filled, letters, middle, after, by rw [tail, List.append_assoc], ?_, ?_, stops⟩
      · rw [Text.byteLength_append, Nat.add_assoc]
      · intro c last
        refine begins c ?_
        rw [List.getLast?_append, last]
        rfl
    · -- the word begins in the front, and so at the front
      have first : before = [] := by
        by_contra behind
        obtain ⟨c, inside, separates⟩ := Text.exists_isSeparator_of_ends behind begins
        rw [h c (List.mem_append_left middle inside)] at separates
        cases separates
      subst first
      have same : word ++ after = [] ++ middle ++ rest := tail
      obtain rfl := Text.eq_of_words_in_front same letters stops h ends
      exact .inl ⟨rfl, rfl⟩
  · rintro (⟨rfl, rfl⟩ | held)
    · exact ⟨nonempty, h, [], rest, rfl, rfl, (fun _ none => nomatch none), ends⟩
    · obtain ⟨filled, letters, before, after, rfl, rfl, begins, stops⟩ := held
      refine ⟨filled, letters, front ++ before, after, by simp only [List.append_assoc], ?_, ?_,
        stops⟩
      · rw [Text.byteLength_append, Nat.add_assoc]
      · -- a word cannot follow the front at once
        have behind := Text.ne_nil_of_begins filled letters ends
        rwa [List.getLast?_append_of_ne_nil front behind]

end Span

/-! ## The words of a header -/

namespace Text

variable {text : Text} {start : Nat} {word : Span × Text}

/-- A separator in front of a text moves the words. -/
theorem placedWords_cons {c : Char} (h : isSeparator c = true) (start : Nat) (rest : Text) :
    placedWords start (c :: rest) = placedWords (start + c.utf8Size) rest :=
  placedWords_append_of_isSeparator (List.forall_mem_singleton.2 h) start rest

/-- The words of a text in their places are exactly its longest runs without a separator. -/
theorem mem_placedWords_iff :
    word ∈ placedWords start text ↔ word.1.HoldsWord start text word.2 := by
  induction text using induction_words generalizing start with
  | nil =>
    rw [placedWords_nil]
    refine ⟨fun inside => absurd inside List.not_mem_nil, ?_⟩
    rintro ⟨nonempty, -, before, after, parts, -⟩
    simp [nonempty] at parts
  | separator c rest separates ih =>
    rw [placedWords_cons separates, ih, Span.holdsWord_cons_iff separates]
  | word front rest nonempty letters ends ih =>
    rw [placedWords_append_of_not_isSeparator nonempty letters ends, List.mem_cons, ih,
      Span.holdsWord_append_iff nonempty letters ends, Prod.ext_iff]

/-- Every word ends before the next one begins. -/
theorem pairwise_placedWords (start : Nat) (text : Text) :
    (placedWords start text).Pairwise (·.1.stop < ·.1.start) := by
  induction text using induction_words generalizing start with
  | nil => exact .nil
  | separator c rest separates ih =>
    rw [placedWords_cons separates]
    exact ih _
  | word front rest nonempty letters ends ih =>
    rw [placedWords_append_of_not_isSeparator nonempty letters ends]
    refine .cons (fun word later => ?_) (ih _)
    exact (mem_placedWords_iff.1 later).lt_start ends

/-- Words that are joined by single spaces are the same words again. -/
theorem words_intercalate {parts : List Text}
    (h : ∀ word ∈ parts, word ≠ [] ∧ ∀ c ∈ word, isSeparator c = false) :
    words ([' '].intercalate parts) = parts := by
  cases parts with
  | nil => rfl
  | cons first others => rw [intercalate_cons, words_append_flatMap h]

end Text

namespace Token

/-- Whether tokens are the words of a header that begins at a byte offset. -/
structure AreWords (offset : Nat) (text : Text) (words : List (Token HeaderToken)) : Prop where
  /-- The words are the longest runs of characters without a separator, in their places. -/
  mem_iff : ∀ word, word ∈ words ↔ word.span.HoldsWord offset text word.text
  /-- Every word ends before the next one begins. -/
  ordered : words.Pairwise (·.span.stop < ·.span.start)

variable {offset : Nat} {text : Text} {words others : List (Token HeaderToken)}

/-- Different words in their places are different tokens. -/
theorem ofWord_injective : Function.Injective ofWord := by
  rintro ⟨span, text⟩ ⟨place, part⟩ same
  cases same
  rfl

/-- The words of a header in their places are its words. -/
theorem areWords_placedWords (offset : Nat) (text : Text) :
    AreWords offset text ((text.placedWords offset).map ofWord) where
  mem_iff word := by
    have placed : word = ofWord (word.span, word.text) := rfl
    rw [placed, List.mem_map_of_injective ofWord_injective, Text.mem_placedWords_iff]
    rfl
  ordered := List.pairwise_map.2 (Text.pairwise_placedWords offset text)

/-- A word does not end before it begins. -/
theorem AreWords.start_le_stop (h : AreWords offset text words) {word : Token HeaderToken}
    (inside : word ∈ words) : word.span.start ≤ word.span.stop := by
  obtain ⟨-, -, before, after, -, place, -⟩ := (h.mem_iff word).1 inside
  rw [place]
  exact Nat.le_add_right _ _

/-- No word stands before itself, so none is listed twice. -/
theorem AreWords.nodup (h : AreWords offset text words) : words.Nodup := by
  refine h.ordered.imp_of_mem fun {word next} inside _ before => ?_
  rintro rfl
  exact absurd before (Nat.not_lt.2 (h.start_le_stop inside))

/-- A header has no other words. -/
theorem AreWords.eq (first : AreWords offset text words) (second : AreWords offset text others) :
    others = words := by
  have same : others.Perm words := by
    rw [List.perm_ext_iff_of_nodup second.nodup first.nodup]
    exact fun word => (second.mem_iff word).trans (first.mem_iff word).symm
  refine same.eq_of_pairwise (fun word next inside listed before after => ?_) second.ordered
    first.ordered
  -- two words cannot stand before one another
  have left := second.start_le_stop inside
  have right := first.start_le_stop listed
  omega

end Token

/-! ## Both kinds of tokens -/

/-- Lexing loses nothing. A definition is always made of tokens, which are the only ones that spell
it. A header is always made of words, which are its longest runs without a separator and no others,
and which are found again when they are joined by single spaces, wherever the joined text begins. -/
theorem tokens_lose_nothing (text : Text) (offset line : Nat) :
    (∃ tokens, definitionTokens text offset line = .ok tokens ∧ Token.Spell offset text tokens ∧
      ∀ others, Token.Spell offset text others → others = tokens) ∧
    ∃ words, headerTokens text offset line = .ok words ∧ Token.AreWords offset text words ∧
      (∀ others, Token.AreWords offset text others → others = words) ∧
      ∀ start number, ∃ again,
        headerTokens ([' '].intercalate (words.map (·.text))) start number = .ok again ∧
          again.map (·.text) = words.map (·.text) := by
  constructor
  · obtain ⟨tokens, found, -⟩ := definitionTokens_eq_ok text offset line
    refine ⟨tokens, found, definitionTokens_eq_ok_iff.1 found, fun others spell => ?_⟩
    exact Except.ok.inj ((definitionTokens_eq_ok_iff.2 spell).symm.trans found)
  · have are := Token.areWords_placedWords offset text
    refine ⟨_, headerTokens_eq text offset line, are, fun others => are.eq, fun start number => ?_⟩
    obtain ⟨again, found, texts⟩ := headerTokens_eq_ok
      ([' '].intercalate (((text.placedWords offset).map Token.ofWord).map (·.text))) start number
    refine ⟨again, found, texts.trans (Text.words_intercalate ?_)⟩
    rw [List.forall_mem_map]
    intro word inside
    obtain ⟨nonempty, letters, -⟩ := (are.mem_iff word).1 inside
    exact ⟨nonempty, letters⟩

end EntitySchema
