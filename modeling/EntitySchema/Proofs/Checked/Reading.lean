import EntitySchema.Proofs.Checked.Lines
import EntitySchema.Proofs.Checked.Tables
import EntitySchema.Proofs.Policies

/-! # Sources read with checked accesses

A source is read as before, but every text is cut at byte offsets, every segment is accessed by its
position and every entity in its slot, and where such an access misses the reading breaks off. It
never does: the checked reading of a source has the outcome of the plain one. -/

namespace EntitySchema

open Checked

/-- How far a reading has come, with the index of the table. -/
structure IndexedReading where
  /-- The reading. -/
  reading : Reading := .start
  /-- The slots of the names in the table. -/
  index : SlotIndex := ∅

namespace IndexedReading

/-- Whether the index has the slots of the table. -/
def Fits (state : IndexedReading) : Prop :=
  state.reading.declarations.entities.IndexedBy state.index

/-! ## Checked steps -/

/-- The error of a field line without an open entity. -/
def orphan? (line : SourceLine) : Checked SourceError := do
  let span ← access line.contentSpan?
  return ⟨.orphanField, line.number, span⟩

/-- Reads a field line, which adds to the entity in the open slot. -/
def feedField? (state : IndexedReading) (line : SourceLine) : Checked IndexedReading := do
  let some slot := state.reading.current | throw (← orphan? line)
  let parsed ← FieldLine.ofLine? line
  let some entity := state.reading.declarations.entities.at? slot | throw (← orphan? line)
  match parsed with
  | .timestamps => return { state with reading := state.reading.changeAt slot .withTimestamps }
  | .column field span =>
    if entity.hasField field.name then
      throw ⟨.duplicateField entity.name.text field.name.text, line.number, span⟩
    return { state with reading := state.reading.changeAt slot (·.addField field) }

/-- Reads a header line, which puts an entity into the table. -/
def feedHeader? (policy : DuplicatePolicy) (state : IndexedReading) (line : SourceLine) :
    Checked IndexedReading := do
  let header ← Header.ofLine? line
  -- whether a name is declared is asked of the index alone
  if policy = .reject && state.index.contains header.name.text then
    throw ⟨.duplicateEntity header.name.text, line.number, header.nameSpan⟩
  let declared := header.relations.foldl
    (fun reading relation => Reading.declareRelation header.name relation reading) state.reading
  let entity ← access header.entity?
  let (slot, entities, index) ← access (declared.declarations.entities.insert? state.index entity)
  return ⟨⟨some slot, { declared.declarations with entities }⟩, index⟩

/-- Reads one physical line; a blank line changes nothing. -/
def feed? (policy : DuplicatePolicy) (state : IndexedReading) (line : SourceLine) :
    Checked IndexedReading :=
  if line.isBlank then pure state
  else match line.kind with
    | .field => feedField? state line
    | .header => feedHeader? policy state line

/-! ## Checked steps have the outcomes of plain ones -/

/-- Whether a checked step has the outcome of a plain step, and leaves an index that fits. -/
inductive Mirrors : Checked IndexedReading → Except SourceError Unit × Reading → Prop where
  /-- Both go on with the same reading. -/
  | accepted {state : IndexedReading} (fits : state.Fits) :
      Mirrors (outcome (.ok state)) (.ok (), state.reading)
  /-- Both are refused for the same error. -/
  | refused (error : SourceError) (left : Reading) :
      Mirrors (outcome (.error error)) (.error error, left)

variable {state : IndexedReading}

/-- The error of a field line without an open entity can be told. -/
theorem orphan?_eq (line : SourceLine) :
    orphan? line = outcome (.ok ⟨.orphanField, line.number, line.contentSpan⟩) := by
  rw [orphan?, line.contentSpan?_eq]
  rfl

/-- Changing the entity in a slot keeps the index, unless its name is changed. -/
theorem Fits.changeAt (fits : state.Fits) (slot : Nat) {change : Entity → Entity}
    (kept : ∀ entity, (change entity).name = entity.name) :
    Fits { state with reading := state.reading.changeAt slot change } :=
  fits.congr (EntityTable.map_name_modifyAt fun entity _ => kept entity)

/-- No access misses in a field line. -/
theorem feedField?_mirrors (fits : state.Fits) (line : SourceLine) :
    Mirrors (feedField? state line) ((Reading.feedField line).run.run state.reading) := by
  rw [feedField?, Reading.run_feedField, FieldLine.ofLine?_eq, orphan?_eq]
  cases state.reading.current with
  | none => exact .refused _ _
  | some slot =>
    cases FieldLine.ofLine line with
    | error error => exact .refused _ _
    | ok parsed =>
      cases found : state.reading.declarations.entities.at? slot with
      | none =>
        simp only [outcome_ok_bind, found]
        exact .refused _ _
      | some entity =>
        simp only [outcome_ok_bind, found]
        cases parsed with
        | timestamps => exact .accepted (fits.changeAt slot Entity.name_withTimestamps)
        | column field span =>
          by_cases repeated : entity.hasField field.name = true
          · simp only [if_pos repeated]
            exact .refused _ _
          · simp only [if_neg repeated]
            exact .accepted (fits.changeAt slot fun entity => entity.name_addField field)

/-- No access misses in a header line. -/
theorem feedHeader?_mirrors (fits : state.Fits) (policy : DuplicatePolicy) (line : SourceLine) :
    Mirrors (feedHeader? policy state line)
      ((Reading.feedHeader policy line).run.run state.reading) := by
  rw [feedHeader?, Reading.run_feedHeader, Header.ofLine?_eq]
  cases Header.ofLine line with
  | error error => exact .refused _ _
  | ok header =>
    have declared : EntityTable.IndexedBy (header.relations.foldl (fun reading relation =>
        Reading.declareRelation header.name relation reading)
        state.reading).declarations.entities state.index := by
      rw [Reading.entities_foldl_declareRelation]
      exact fits
    obtain ⟨index, inserted, indexed⟩ := declared.insert?_eq header.entity
    simp only [outcome_ok_bind, fits.contains_eq, header.entity?_eq, access_some_bind, inserted,
      Bool.and_eq_true, decide_eq_true_eq]
    split
    · exact .refused _ _
    · exact .accepted indexed

/-- No access misses in a line. -/
theorem feed?_mirrors (fits : state.Fits) (policy : DuplicatePolicy) (line : SourceLine) :
    Mirrors (feed? policy state line) (Reading.step policy state.reading line) := by
  rw [feed?, Reading.step, Reading.feed]
  cases line.isBlank with
  | true => exact .accepted fits
  | false =>
    cases line.kind with
    | field => exact feedField?_mirrors fits line
    | header => exact feedHeader?_mirrors fits policy line

/-- No access misses in lines that are read one after the other. -/
theorem foldlM_feed?_mirrors (fits : state.Fits) (policy : DuplicatePolicy)
    (lines : List SourceLine) :
    Mirrors (lines.foldlM (feed? policy) state)
      ((Reading.feedAll policy lines).run.run state.reading) := by
  induction lines generalizing state with
  | nil => exact .accepted fits
  | cons line rest ih =>
    have first := feed?_mirrors fits policy line
    rw [List.foldlM_cons, Reading.run_feedAll_cons]
    generalize feed? policy state line = checked, Reading.step policy state.reading line = plain
      at first ⊢
    cases first with
    | accepted next => exact ih next -- the index fits again, so the rest is read as well
    | refused error left => exact .refused error left

end IndexedReading

/-- The schema that a source declares, or its first error, read with accesses that may miss. -/
def Schema.ofSource? (policy : DuplicatePolicy) (source : String) : Checked Schema := do
  let text := source.toList
  let state ← (SourceLine.all text).foldlM (IndexedReading.feed? policy) {}
  state.reading.declarations.resolve? state.index (.ofSource text)

/-- No access misses in the reading of a source. -/
theorem Schema.ofSource?_eq (policy : DuplicatePolicy) (source : String) :
    ofSource? policy source = outcome (ofSource policy source) := by
  have start : IndexedReading.Fits {} := EntityTable.indexedBy_empty
  have lines := IndexedReading.foldlM_feed?_mirrors start policy (SourceLine.all source.toList)
  rw [ofSource?, ofSource]
  generalize (SourceLine.all source.toList).foldlM (IndexedReading.feed? policy) {} = checked,
    (Reading.feedAll policy (SourceLine.all source.toList)).run.run .start = plain at lines ⊢
  cases lines with
  | accepted fits => exact Declarations.resolve?_eq fits (.ofSource source.toList)
  | refused error left => rfl

/-! ## The causes of errors -/

/-- Whether a cause can be that of the error of a source. No text fits no token, a type is not empty
once it is declared, and the words for properties and relations have causes of their own. -/
def Cause.CanArise (policy : DuplicatePolicy) : Cause → Prop
  | .orphanField | .missingType _ | .unknownProperty _ | .unknownRelation _ _
  | .unresolvedReference _ _ | .duplicateField _ _ => True
  | .duplicateEntity _ => policy = .reject
  | .refused (.entityName _) | .refused (.fieldName _) => True
  | .unknownToken | .refused (.emptyType _) | .refused (.property _)
  | .refused (.relationCode _) => False

variable {policy : DuplicatePolicy} {source : String}

/-- A cause that is about a text on a line can arise. -/
theorem Cause.canArise_of_isAbout {line : SourceLine} {text : Text} {cause : Cause}
    (about : cause.IsAbout line text)
    (rejecting : ∀ name, cause = .duplicateEntity name → policy = .reject) :
    cause.CanArise policy := by
  cases cause with
  | unknownToken => exact about
  | duplicateEntity name => exact rejecting name rfl
  | refused defect =>
    cases defect with
    | entityName name => trivial
    | fieldName name => trivial
    | emptyType field => exact about
    | property word => exact about
    | relationCode code => exact about
  | orphanField => trivial
  | missingType field => trivial
  | unknownProperty property => trivial
  | unknownRelation target code => trivial
  | unresolvedReference entity column => trivial
  | duplicateField entity field => trivial

namespace Schema

/-- The cause of the error of a source can arise. -/
theorem canArise_of_ofSource_eq_error {error : SourceError}
    (h : ofSource policy source = .error error) : error.cause.CanArise policy := by
  have rejecting : ∀ name, error.cause = .duplicateEntity name → policy = .reject := by
    intro name repeated
    cases policy with
    | reject => rfl
    | replace => exact absurd repeated (cause_ne_duplicateEntity h name)
  rcases ofSource_eq_error h with ⟨line, -, before, after, refused⟩ | ⟨entity, column, rfl⟩
  · obtain ⟨-, text, -, about⟩ := Reading.pointsAt_of_step refused
    exact Cause.canArise_of_isAbout about rejecting
  · trivial

/-- Whatever the source and the policy, no access misses while the source is read: with checked
accesses it has the same outcome. An error has one of the causes that can arise. And a line that is
not blank has a first word, so a header is never refused for want of one. -/
theorem no_access_misses (policy : DuplicatePolicy) (source : String) :
    (ofSource? policy source).run = some (ofSource policy source) ∧
    (∀ error, ofSource policy source = .error error → error.cause.CanArise policy) ∧
    ∀ line ∈ SourceLine.all source.toList, line.isBlank = false →
      ∃ first others,
        headerTokens line.content line.contentStart line.number = .ok (first :: others) := by
  refine ⟨congrArg ExceptT.run (ofSource?_eq policy source), fun error h =>
    canArise_of_ofSource_eq_error h, fun line _ blank => ?_⟩
  obtain ⟨words, found, texts, -⟩ := Header.exists_words line
  cases words with
  | nil => exact absurd texts.symm (line.words_content_ne_nil blank)
  | cons first others => exact ⟨first, others, found⟩

/-- Behind a wide blank and letters of two bytes, a name is refused without an access that misses,
and the header before it has its first word. -/
theorem no_access_misses_wide :
    let source := "Blog_Category Ax:hm\r\n\u3000größe:integer,8 -> é|x\n"
    let error : SourceError := ⟨.refused (.fieldName "größe"), 2, ⟨24, 31⟩⟩
    let line : SourceLine := ⟨1, 0, "Blog_Category Ax:hm".toList⟩
    ofSource .reject source = .error error ∧
      (ofSource? .reject source).run = some (.error error) ∧ error.cause.CanArise .reject ∧
      ∃ first others,
        headerTokens line.content line.contentStart line.number = .ok (first :: others) := by
  have h : ofSource .reject "Blog_Category Ax:hm\r\n\u3000größe:integer,8 -> é|x\n" =
      .error ⟨.refused (.fieldName "größe"), 2, ⟨24, 31⟩⟩ := by decide +kernel
  obtain ⟨checked, arises, words⟩ :=
    no_access_misses .reject "Blog_Category Ax:hm\r\n\u3000größe:integer,8 -> é|x\n"
  refine ⟨h, by rw [checked, h], arises _ h, words _ ?_ ?_⟩
  · decide +kernel
  · decide +kernel

end Schema

end EntitySchema
