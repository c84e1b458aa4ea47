import EntitySchema.Proofs.Outcome
import EntitySchema.Proofs.Source.WordPlaces
import EntitySchema.Proofs.Text.Cutting
import EntitySchema.Source.Header

/-! # What a header is read as

A header is read from the words of its line alone. The first word is the name of the entity, and
every other word is the one that is written for its relation. -/

namespace EntitySchema

open Text

/-- A relation as the word that is written for it. -/
def relationText (relation : RelationKind × EntityName) : Text :=
  relation.2.text.toList ++ ':' :: relation.1.code.toList

/-- A name is read from its own characters. -/
theorem EntityName.ofString_ofList_eq_ok_iff {text : Text} {name : EntityName} :
    ofString (String.ofList text) = .ok name ↔ text = name.text.toList := by
  rw [ofString]
  constructor
  · intro h
    split at h
    · rw [← Except.ok.inj h, String.toList_ofList]
    · cases h
  · rintro rfl
    rw [String.ofList_toList, dif_pos name.valid]

/-- A name is refused when the text is no identifier, and then it is the text that is refused. -/
theorem EntityName.eq_of_ofString_eq_error {text : String} {defect : Defect}
    (h : ofString text = .error defect) : defect = .entityName text := by
  rw [ofString] at h
  split at h
  · cases h
  · exact (Except.error.inj h).symm

/-! ## Relations -/

namespace RelationWord

variable {line : Nat}

/-- The kind and the target of a relation, whatever its place. -/
def relation (word : RelationWord) : RelationKind × EntityName := (word.kind, word.target)

/-- A word that is written for a relation is read as that relation. -/
theorem ofToken_of_text {word : Token HeaderToken} {relation : RelationKind × EntityName}
    (h : word.text = relationText relation) (line : Nat) :
    ofToken line word = .ok ⟨relation.2, relation.1, word.span⟩ := by
  have colon : ':' ∉ relation.2.text.toList := fun inside =>
    absurd ((isIdentifier_iff.1 relation.2.valid).2 _ inside) (by decide)
  simp only [ofToken, h, relationText, cutAt_append colon, Option.getD_some,
    String.ofList_toList, RelationKind.ofCode?_code, EntityName.ofString_text]

/-- A word has an unknown code or none, or a known code after a text that is no identifier, or it is
written for a relation and read as that. -/
theorem ofToken_cases (line : Nat) (word : Token HeaderToken) :
    (∃ target code : String, ':' ∉ target.toList ∧
        (word.text = target.toList ++ ':' :: code.toList ∨
          word.text = target.toList ∧ code = "") ∧
        ofToken line word = .error ⟨.unknownRelation target code, line, word.span⟩) ∨
      (∃ (name : String) (kind : RelationKind), word.text = name.toList ++ ':' :: kind.code.toList ∧
        ofToken line word = .error ⟨.refused (.entityName name), line, word.span⟩) ∨
      ∃ relation, word.text = relationText relation ∧
        ofToken line word = .ok ⟨relation.2, relation.1, word.span⟩ := by
  rcases cutAt_cases ':' word.text with ⟨plain, cut⟩ | ⟨before, after, plain, parts, cut⟩
  · -- the empty text is no code
    have unknown : RelationKind.ofCode? (String.ofList []) = none := by decide
    refine .inl ⟨String.ofList word.text, "", ?_, .inr ⟨String.toList_ofList.symm, rfl⟩, ?_⟩
    · rwa [String.toList_ofList]
    · simp only [ofToken, cut, Option.getD_none, unknown]
  · cases known : RelationKind.ofCode? (String.ofList after) with
    | none =>
      refine .inl ⟨String.ofList before, String.ofList after, ?_, .inl ?_, ?_⟩
      · rwa [String.toList_ofList]
      · rw [String.toList_ofList, String.toList_ofList, parts]
      · simp only [ofToken, cut, Option.getD_some, known]
    | some kind =>
      have code : after = kind.code.toList := by
        rw [RelationKind.code_of_ofCode? known, String.toList_ofList]
      right
      cases named : EntityName.ofString (String.ofList before) with
      | error defect =>
        obtain rfl := EntityName.eq_of_ofString_eq_error named
        refine .inl ⟨String.ofList before, kind, ?_, ?_⟩
        · rw [String.toList_ofList, parts, code]
        · simp only [ofToken, cut, Option.getD_some, known, named]
      | ok name =>
        have text : word.text = relationText (kind, name) := by
          rw [parts, EntityName.ofString_ofList_eq_ok_iff.1 named, code]
          rfl
        exact .inr ⟨(kind, name), text, ofToken_of_text text line⟩

/-- A word that is read as a relation is the one that is written for it. -/
theorem text_of_ofToken {word : Token HeaderToken} {read : RelationWord}
    (h : ofToken line word = .ok read) : word.text = relationText read.relation := by
  rcases ofToken_cases line word with
    ⟨target, code, -, -, refused⟩ | ⟨name, kind, -, refused⟩ | ⟨relation, text, same⟩
  · rw [refused] at h
    cases h
  · rw [refused] at h
    cases h
  · obtain rfl := Except.ok.inj (same.symm.trans h)
    exact text

/-- Words that are written for relations are read as those relations. -/
theorem mapM_ofToken_of_text {words : List (Token HeaderToken)}
    {relations : List (RelationKind × EntityName)}
    (h : words.map (·.text) = relations.map relationText) (line : Nat) :
    ∃ read, words.mapM (ofToken line) = .ok read ∧ read.map relation = relations := by
  induction words generalizing relations with
  | nil =>
    obtain rfl : relations = [] := by simpa using h.symm
    exact ⟨[], rfl, rfl⟩
  | cons word rest ih =>
    cases relations with
    | nil => cases h
    | cons first others =>
      obtain ⟨text, later⟩ := List.cons.inj h
      obtain ⟨read, found, same⟩ := ih later
      refine ⟨⟨first.2, first.1, word.span⟩ :: read, ?_, by rw [List.map_cons, same]; rfl⟩
      rw [List.mapM_cons, ofToken_of_text text, found]
      rfl

/-- Words that are read as relations are those that are written for them. -/
theorem map_text_of_mapM_ofToken {words : List (Token HeaderToken)} {read : List RelationWord}
    (h : words.mapM (ofToken line) = .ok read) :
    words.map (·.text) = (read.map relation).map relationText := by
  induction words generalizing read with
  | nil =>
    cases h
    rfl
  | cons word rest ih =>
    rw [List.mapM_cons, Outcome.bind_eq_ok_iff] at h
    obtain ⟨first, accepted, h⟩ := h
    obtain ⟨others, later, same⟩ := Outcome.bind_eq_ok_iff.1 h
    obtain rfl := Except.ok.inj same
    rw [List.map_cons, text_of_ofToken accepted, ih later]
    rfl

end RelationWord

/-! ## Headers -/

namespace Header

variable {line : SourceLine} {name : EntityName} {relations : List (RelationKind × EntityName)}

/-- A header is read from its name in the first word and its relations in the others. -/
theorem ofTokens_cons_eq_ok_iff {number start : Nat} {first : Token HeaderToken}
    {others : List (Token HeaderToken)} {header : Header} :
    ofTokens number start (first :: others) = .ok header ↔
      first.text = header.name.text.toList ∧ header.nameSpan = first.span ∧
        others.mapM (RelationWord.ofToken number) = .ok header.relations := by
  simp only [ofTokens, Outcome.bind_eq_ok_iff, Outcome.mapError_eq_ok_iff,
    EntityName.ofString_ofList_eq_ok_iff]
  constructor
  · rintro ⟨name, text, relations, accepted, same⟩
    cases same
    exact ⟨text, rfl, accepted⟩
  · rintro ⟨text, place, accepted⟩
    refine ⟨header.name, text, header.relations, accepted, ?_⟩
    rw [← place]
    rfl

/-- A header is read from a name and the words that are written for relations. -/
theorem ofLine_of_words (h : line.content.words = name.text.toList :: relations.map relationText) :
    ∃ header, ofLine line = .ok header ∧ header.name = name ∧
      header.relations.map RelationWord.relation = relations := by
  obtain ⟨words, found, texts⟩ := headerTokens_eq_ok line.content line.contentStart line.number
  rw [h] at texts
  cases words with
  | nil => cases texts
  | cons first others =>
    obtain ⟨nameText, relationTexts⟩ := List.cons.inj texts
    obtain ⟨read, accepted, same⟩ := RelationWord.mapM_ofToken_of_text relationTexts line.number
    refine ⟨⟨name, first.span, read⟩, ?_, rfl, same⟩
    rw [ofLine, found]
    show ofTokens line.number line.contentStart (first :: others) = _
    exact ofTokens_cons_eq_ok_iff.2 ⟨nameText, rfl, accepted⟩

/-- A line that is read as a header has a first word, which is the name, and a word for every
relation. -/
theorem exists_tokens_of_ofLine {header : Header} (h : ofLine line = .ok header) :
    ∃ first others,
      headerTokens line.content line.contentStart line.number = .ok (first :: others) ∧
      first.text = header.name.text.toList ∧ header.nameSpan = first.span ∧
      others.mapM (RelationWord.ofToken line.number) = .ok header.relations := by
  obtain ⟨words, found, read⟩ := Outcome.bind_eq_ok_iff.1 h
  cases words with
  | nil => cases read
  | cons first others => exact ⟨first, others, found, ofTokens_cons_eq_ok_iff.1 read⟩

/-- A line that is read as a header has the words that are written for it. -/
theorem words_content_of_ofLine {header : Header} (h : ofLine line = .ok header) :
    line.content.words = header.name.text.toList ::
      (header.relations.map RelationWord.relation).map relationText := by
  obtain ⟨first, others, found, text, -, accepted⟩ := exists_tokens_of_ofLine h
  rw [← map_text_of_headerTokens found, List.map_cons, text,
    RelationWord.map_text_of_mapM_ofToken accepted]

end Header

end EntitySchema
