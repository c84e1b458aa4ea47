import EntitySchema.Proofs.Source.Errors

/-! # The grammar of headers

The grammar tells for the words of every header what they are read as, or which of them is refused
and why. The first word is looked at first, then the others in order; within a word the code counts
before the name of the target. A line with any content is read as a header exactly as the grammar
tells for its words. -/

namespace EntitySchema

open Text

/-! ## Words of relations -/

/-- What a word for a relation is read as, or why it is refused. It is cut at its first colon. -/
inductive RelationWord.Grammar : Text → Except Cause (RelationKind × EntityName) → Prop where
  /-- A word without a colon has no code. -/
  | uncoded {word : Text} (plain : ':' ∉ word) :
    Grammar word (.error (.unknownRelation (String.ofList word) ""))
  /-- A code has to be one of four, whatever stands before it. -/
  | miscoded {target code : Text} (plain : ':' ∉ target)
    (unknown : String.ofList code ∉ ["ho", "hm", "bt", "hmb"]) :
    Grammar (target ++ ':' :: code)
      (.error (.unknownRelation (String.ofList target) (String.ofList code)))
  /-- Before a code there has to be an identifier. -/
  | misnamed {target : Text} (plain : ':' ∉ target)
    (refused : isIdentifier (String.ofList target) = false) (kind : RelationKind) :
    Grammar (target ++ ':' :: kind.code.toList)
      (.error (.refused (.entityName (String.ofList target))))
  /-- An identifier and a code are a relation. -/
  | relation (kind : RelationKind) (target : EntityName) :
    Grammar (target.text.toList ++ ':' :: kind.code.toList) (.ok (kind, target))

/-- The codes are those of the kinds. -/
theorem RelationKind.ofCode?_eq_none_iff {code : String} :
    ofCode? code = none ↔ code ∉ ["ho", "hm", "bt", "hmb"] := by
  have codes : ["ho", "hm", "bt", "hmb"] = all.map RelationKind.code := rfl
  rw [codes, ofCode?, List.find?_eq_none, List.mem_map]
  simp only [beq_iff_eq, not_exists, not_and]

namespace RelationWord

variable {line : Nat} {word : Token HeaderToken}

/-- A word is read as the grammar tells for its text. -/
theorem eq_of_grammar {text : Text} {outcome : Except Cause (RelationKind × EntityName)}
    (h : Grammar text outcome) (spelled : word.text = text) (line : Nat) :
    ofToken line word = (outcome.map fun relation => ⟨relation.2, relation.1, word.span⟩).mapError
      (⟨·, line, word.span⟩) := by
  cases h with
  | uncoded plain =>
    -- the empty text is no code
    have unknown : RelationKind.ofCode? (String.ofList []) = none := by decide
    have cut : cutAt ':' text = (text, none) := by
      rcases cutAt_cases ':' text with ⟨-, cut⟩ | ⟨before, after, -, parts, -⟩
      · exact cut
      · exact (plain (by rw [parts]; simp)).elim
    simp only [ofToken, spelled, cut, Option.getD_none, unknown]
    rfl
  | miscoded plain unknown =>
    have none := RelationKind.ofCode?_eq_none_iff.2 unknown
    simp only [ofToken, spelled, cutAt_append plain, Option.getD_some, none]
    rfl
  | misnamed plain refused kind =>
    have named := EntityName.ofString_of_not_isIdentifier refused
    simp only [ofToken, spelled, cutAt_append plain, Option.getD_some, String.ofList_toList,
      RelationKind.ofCode?_code, named]
    rfl
  | relation kind target => exact ofToken_of_text spelled line

/-- The grammar tells something about every word. -/
theorem exists_grammar (word : Text) : ∃ outcome, Grammar word outcome := by
  rcases cutAt_cases ':' word with ⟨plain, -⟩ | ⟨target, code, plain, rfl, -⟩
  · exact ⟨_, .uncoded plain⟩
  · cases known : RelationKind.ofCode? (String.ofList code) with
    | none => exact ⟨_, .miscoded plain (RelationKind.ofCode?_eq_none_iff.1 known)⟩
    | some kind =>
      have coded : code = kind.code.toList := by
        rw [RelationKind.code_of_ofCode? known, String.toList_ofList]
      rw [coded]
      cases named : isIdentifier (String.ofList target) with
      | false => exact ⟨_, .misnamed plain named kind⟩
      | true =>
        have text : target = (⟨_, named⟩ : EntityName).text.toList := String.toList_ofList.symm
        rw [text]
        exact ⟨_, .relation kind ⟨_, named⟩⟩

end RelationWord

/-! ## Headers -/

/-- Whether a relation is read from a word, in the place of the word. -/
def RelationWord.IsReadFrom (relation : RelationWord) (word : Span × Text) : Prop :=
  RelationWord.Grammar word.2 (.ok (relation.kind, relation.target)) ∧ relation.span = word.1

/-- What the words of a header in their places are read as, or why the header is refused on the
numbered line. -/
inductive Header.Grammar (line : Nat) :
    List (Span × Text) → Except SourceError Header → Prop where
  /-- The first word has to be an identifier. -/
  | misnamed {first : Span × Text} {others : List (Span × Text)}
    (refused : isIdentifier (String.ofList first.2) = false) :
    Grammar line (first :: others)
      (.error ⟨.refused (.entityName (String.ofList first.2)), line, first.1⟩)
  /-- Every other word has to be a relation; the first that is none is reported. -/
  | unrelated {first wrong : Span × Text} {relations later : List (Span × Text)} {cause : Cause}
    (named : isIdentifier (String.ofList first.2) = true)
    (related : ∀ word ∈ relations, ∃ relation, RelationWord.Grammar word.2 (.ok relation))
    (refused : RelationWord.Grammar wrong.2 (.error cause)) :
    Grammar line (first :: (relations ++ wrong :: later)) (.error ⟨cause, line, wrong.1⟩)
  /-- Otherwise the header has the first word as its name, and a relation for every other word. -/
  | header {place : Span} (name : EntityName) {words : List (Span × Text)}
    {relations : List RelationWord}
    (related : List.Forall₂ (fun word relation => relation.IsReadFrom word) words relations) :
    Grammar line ((place, name.text.toList) :: words) (.ok ⟨name, place, relations⟩)

namespace Header

variable {line start : Nat}

/-- A relation is read from a word when the grammar tells it. -/
theorem ofToken_eq_ok_iff {word : Span × Text} {relation : RelationWord} :
    RelationWord.ofToken line (Token.ofWord word) = .ok relation ↔ relation.IsReadFrom word := by
  constructor
  · intro read
    obtain ⟨outcome, told⟩ := RelationWord.exists_grammar word.2
    rw [RelationWord.eq_of_grammar told rfl] at read
    cases outcome with
    | error cause => cases read
    | ok pair =>
      obtain rfl := Except.ok.inj read
      exact ⟨told, rfl⟩
  · rintro ⟨told, place⟩
    rw [RelationWord.eq_of_grammar told rfl]
    show Except.ok (⟨relation.target, relation.kind, word.1⟩ : RelationWord) = .ok relation
    rw [← place]

/-- Words are read one by one. -/
theorem mapM_ofToken_eq_ok_iff {words : List (Span × Text)} {relations : List RelationWord} :
    (words.map Token.ofWord).mapM (RelationWord.ofToken line) = .ok relations ↔
      List.Forall₂ (fun word relation => relation.IsReadFrom word) words relations := by
  induction words generalizing relations with
  | nil =>
    constructor
    · intro h
      obtain rfl := Except.ok.inj h
      exact .nil
    · rintro ⟨⟩
      rfl
  | cons word rest ih =>
    rw [List.map_cons, List.mapM_cons]
    simp only [Outcome.bind_eq_ok_iff, ofToken_eq_ok_iff, ih]
    constructor
    · rintro ⟨first, told, others, later, same⟩
      obtain rfl := Except.ok.inj same
      exact .cons told later
    · rintro (_ | ⟨told, later⟩)
      exact ⟨_, told, _, later, rfl⟩

/-- Relations that the grammar tells one by one are told in order. -/
theorem exists_relations {words : List (Span × Text)}
    (related : ∀ word ∈ words, ∃ relation, RelationWord.Grammar word.2 (.ok relation)) :
    ∃ relations : List RelationWord,
      List.Forall₂ (fun word relation => relation.IsReadFrom word) words relations := by
  induction words with
  | nil => exact ⟨[], .nil⟩
  | cons word rest ih =>
    rw [List.forall_mem_cons] at related
    obtain ⟨relation, told⟩ := related.1
    obtain ⟨relations, later⟩ := ih related.2
    exact ⟨⟨relation.2, relation.1, word.1⟩ :: relations, .cons ⟨told, rfl⟩ later⟩

/-- Every word is a relation, or there is a first word that is none. -/
theorem exists_relations_or_wrong (words : List (Span × Text)) :
    (∀ word ∈ words, ∃ relation, RelationWord.Grammar word.2 (.ok relation)) ∨
      ∃ front wrong later cause, words = front ++ wrong :: later ∧
        (∀ word ∈ front, ∃ relation, RelationWord.Grammar word.2 (.ok relation)) ∧
          RelationWord.Grammar wrong.2 (.error cause) := by
  induction words with
  | nil => exact .inl (List.forall_mem_nil _)
  | cons word rest ih =>
    obtain ⟨outcome, told⟩ := RelationWord.exists_grammar word.2
    cases outcome with
    | error cause => exact .inr ⟨[], word, rest, cause, rfl, List.forall_mem_nil _, told⟩
    | ok relation =>
      rcases ih with related | ⟨front, wrong, later, cause, rfl, related, refused⟩
      · exact .inl (List.forall_mem_cons.2 ⟨⟨relation, told⟩, related⟩)
      · exact .inr ⟨word :: front, wrong, later, cause, rfl,
          List.forall_mem_cons.2 ⟨⟨relation, told⟩, related⟩, refused⟩

/-- Words are read as the grammar tells. -/
theorem eq_of_grammar {words : List (Span × Text)} {outcome : Except SourceError Header}
    (h : Grammar line words outcome) :
    ofTokens line start (words.map Token.ofWord) = outcome := by
  cases h with
  | misnamed refused =>
    rw [List.map_cons, ofTokens, Token.ofWord, EntityName.ofString_of_not_isIdentifier refused]
    rfl
  | @unrelated first wrong relations later cause named related refused =>
    have accepted : EntityName.ofString (String.ofList first.2) = .ok ⟨_, named⟩ := dif_pos named
    obtain ⟨read, before⟩ := exists_relations related
    have stopped : ((relations ++ wrong :: later).map Token.ofWord).mapM
        (RelationWord.ofToken line) = .error ⟨cause, line, wrong.1⟩ := by
      rw [List.map_append, List.map_cons, List.mapM_append, mapM_ofToken_eq_ok_iff.2 before]
      show (Token.ofWord wrong :: later.map Token.ofWord).mapM (RelationWord.ofToken line) >>= _ = _
      rw [List.mapM_cons, RelationWord.eq_of_grammar refused rfl]
      rfl
    rw [List.map_cons, ofTokens, stopped, Token.ofWord, accepted]
    rfl
  | header name related =>
    rw [List.map_cons]
    exact ofTokens_cons_eq_ok_iff.2 ⟨rfl, rfl, mapM_ofToken_eq_ok_iff.2 related⟩

/-- The grammar tells something about the words of every header. -/
theorem exists_grammar (line : Nat) {words : List (Span × Text)} (nonempty : words ≠ []) :
    ∃ outcome, Grammar line words outcome := by
  obtain ⟨first, others, rfl⟩ := List.exists_cons_of_ne_nil nonempty
  cases named : isIdentifier (String.ofList first.2) with
  | false => exact ⟨_, .misnamed named⟩
  | true =>
    rcases exists_relations_or_wrong others with
      related | ⟨front, wrong, later, cause, rfl, related, refused⟩
    · obtain ⟨relations, read⟩ := exists_relations related
      have text : first = (first.1, (⟨_, named⟩ : EntityName).text.toList) :=
        Prod.ext rfl String.toList_ofList.symm
      rw [text]
      exact ⟨_, .header ⟨_, named⟩ read⟩
    · exact ⟨_, .unrelated named related refused⟩

/-- What is read from the words of a line with any content, or why one of them is refused, is what
the grammar tells for the words in their places, and nothing else. -/
theorem ofLine_eq_iff_words_grammar {line : SourceLine} (h : line.content ≠ [])
    (outcome : Except SourceError Header) :
    ofLine line = outcome ↔
      Grammar line.number (line.content.placedWords line.contentStart) outcome := by
  have read : ofLine line = ofTokens line.number line.contentStart
      ((line.content.placedWords line.contentStart).map Token.ofWord) := by
    rw [ofLine, headerTokens_eq]
    rfl
  have visible : line.isBlank = false := by
    rw [SourceLine.isBlank, ← SourceLine.content]
    simpa using h
  have nonempty : line.content.placedWords line.contentStart ≠ [] := by
    intro none
    have words := map_snd_placedWords line.contentStart line.content
    rw [none] at words
    exact line.words_content_ne_nil visible words.symm
  rw [read]
  constructor
  · -- the grammar tells something, and that is what is read
    intro same
    obtain ⟨told, grammar⟩ := exists_grammar line.number nonempty
    rw [← same, eq_of_grammar grammar]
    exact grammar
  · exact eq_of_grammar

/-- A header with a repeated relation, and one whose second relation has a code too long, before a
target that is no identifier. -/
theorem ofLine_eq_iff_words_grammar_user :
    let line : SourceLine := ⟨2, 9, "User\tPost:hm \x0cPost:hm".toList⟩
    let wrong : SourceLine := ⟨4, 9, "User Post:bt Größe:hmb: -:ho".toList⟩
    let post : EntityName := ⟨"Post", by decide⟩
    (line.content ≠ [] ∧ Grammar 2 (line.content.placedWords 9) (.ok ⟨⟨"User", by decide⟩, ⟨9, 13⟩,
      [⟨post, .hasMany, ⟨14, 21⟩⟩, ⟨post, .hasMany, ⟨23, 30⟩⟩]⟩)) ∧
    (wrong.content ≠ [] ∧ Grammar 4 (wrong.content.placedWords 9)
      (.error ⟨.unknownRelation "Größe" "hmb:", 4, ⟨22, 34⟩⟩)) := by
  intro line wrong post
  have shown : line.content ≠ [] := by decide
  have shownWrong : wrong.content ≠ [] := by decide
  exact ⟨⟨shown, (ofLine_eq_iff_words_grammar shown _).1 (by decide +kernel)⟩,
    ⟨shownWrong, (ofLine_eq_iff_words_grammar shownWrong _).1 (by decide +kernel)⟩⟩

end Header

end EntitySchema
