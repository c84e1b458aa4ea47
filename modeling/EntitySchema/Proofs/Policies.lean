import EntitySchema.Proofs.ErrorPlaces
import EntitySchema.Proofs.ReadingOfBlocks

/-! # The policies compared

The two policies differ in nothing but the header that declares a name again. Up to the first such
header they read the same, so a source without one is read alike under both; at that header one
policy stops, and the other goes on. -/

namespace EntitySchema

namespace Reading

variable {policy : DuplicatePolicy} {line : SourceLine} {lines : List SourceLine}
  {reading next : Reading}

/-! ## Steps -/

/-- A line is read alike under both policies, unless it is the header of an entity that is declared
already: that header is refused where repeated names are rejected, and only there. -/
theorem step_reject_cases (reading : Reading) (line : SourceLine) :
    step .reject reading line = step .replace reading line ∨
      ∃ header next, line.header? = some header ∧
        reading.declarations.entities.contains header.name.text = true ∧
        step .replace reading line = (.ok (), next) ∧
        step .reject reading line =
          (.error ⟨.duplicateEntity header.name.text, line.number, header.nameSpan⟩, reading) := by
  rw [step, step, feed, feed]
  cases blank : line.isBlank with
  | true => exact .inl rfl
  | false =>
    cases kind : line.kind with
    | field => exact .inl rfl
    | header =>
      simp only [run_feedHeader, Bool.false_eq_true, if_false]
      cases read : Header.ofLine line with
      | error error => exact .inl rfl
      | ok header =>
        cases known : reading.declarations.entities.contains header.name.text with
        | false =>
          left
          simp only [known]
          rfl
        | true =>
          refine .inr ⟨header, _, SourceLine.header?_eq_some_iff.2 ⟨blank, kind, read⟩, known,
            rfl, ?_⟩
          simp only [known]
          rfl

/-- No line is refused for a repeated name where repeated names replace. -/
theorem cause_ne_duplicateEntity_of_step {error : SourceError}
    (h : step .replace reading line = (.error error, next)) (name : String) :
    error.cause ≠ .duplicateEntity name := by
  intro cause
  have grammatical : ¬ error.cause.IsGrammatical := by rw [cause]; exact id
  obtain ⟨-, ⟨-, refused⟩ | ⟨-, refused⟩⟩ := step_eq_error h
  -- neither the grammar nor what a field line adds to an entity is about repeated names of entities
  · rcases (run_feedField_eq_error refused).2 with ⟨-, rfl⟩ | wrong | ⟨entity, field, span, -, rfl⟩
    · cases cause
    · exact grammatical (FieldLine.isGrammatical_of_ofLine wrong)
    · cases cause
  · rcases (run_feedHeader_eq_error refused).2 with wrong | ⟨header, absurd, -⟩
    · exact grammatical (Header.isGrammatical_of_ofLine wrong)
    · cases absurd

/-! ## Runs -/

/-- Lines that are read to their end are read on from there. -/
theorem run_feedAll_append {front : List SourceLine}
    (h : (feedAll policy front).run.run reading = (.ok (), next)) (back : List SourceLine) :
    (feedAll policy (front ++ back)).run.run reading = (feedAll policy back).run.run next := by
  induction front generalizing reading with
  | nil =>
    obtain ⟨-, rfl⟩ := Prod.mk.inj h
    rfl
  | cons line rest ih =>
    obtain ⟨middle, first, later⟩ := run_feedAll_cons_eq_ok_iff.1 h
    rw [List.cons_append, run_feedAll_cons, step, first]
    exact ih later

/-- Lines are read alike under both policies, unless one of them is the header of an entity that is
declared already. Where repeated names are rejected the reading ends at the first of these, before
which both policies lead to one reading. -/
theorem run_feedAll_reject_cases (reading : Reading) (lines : List SourceLine) :
    (feedAll .reject lines).run.run reading = (feedAll .replace lines).run.run reading ∨
      ∃ front line back header middle next, lines = front ++ line :: back ∧
        (∀ policy, (feedAll policy front).run.run reading = (.ok (), middle)) ∧
        line.header? = some header ∧
        middle.declarations.entities.contains header.name.text = true ∧
        step .replace middle line = (.ok (), next) ∧
        (feedAll .reject lines).run.run reading =
          (.error ⟨.duplicateEntity header.name.text, line.number, header.nameSpan⟩, middle) := by
  induction lines generalizing reading with
  | nil => exact .inl rfl
  | cons line rest ih =>
    rcases step_reject_cases reading line with same | ⟨header, next, read, known, goes, refused⟩
    · cases outcome : step .replace reading line with
      | mk result middle =>
        rw [outcome] at same
        rw [run_feedAll_cons, run_feedAll_cons, same, outcome]
        cases result with
        | error error => exact .inl rfl
        | ok value =>
          -- the line is accepted under both policies, and the rest of the lines decides
          refine (ih middle).imp id ?_
          rintro ⟨front, other, back, header, last, next, rfl, accepted, repeated⟩
          refine ⟨line :: front, other, back, header, last, next, rfl, fun policy => ?_, repeated⟩
          have first : step policy reading line = (.ok (), middle) := by
            cases policy
            · exact outcome
            · exact same
          rw [run_feedAll_cons, first]
          exact accepted policy
    · refine .inr ⟨[], line, rest, header, reading, next, rfl, fun _ => rfl, read, known, goes, ?_⟩
      rw [run_feedAll_cons, refused]

end Reading

/-! ## Sources -/

/-- Whether a line is the header of an entity that is declared on an earlier line, and the first
such header: no name is repeated in the headers before it. -/
structure Header.FirstRepeated (header : Header) (line : SourceLine) (front : List SourceLine) :
    Prop where
  /-- The line is the header. -/
  stands : line.header? = some header
  /-- Its name is declared before. -/
  repeated : header.name ∈ (front.filterMap SourceLine.header?).map (·.name)
  /-- No name is repeated before. -/
  first : ((front.filterMap SourceLine.header?).map (·.name)).Nodup

/-- When lines are accepted under the policy that rejects repeated names, the next header to declare
a known entity is the first. -/
theorem Header.firstRepeated_of_run {front : List SourceLine} {line : SourceLine} {header : Header}
    {middle : Reading} (read : (Reading.feedAll .reject front).run.run .start = (.ok (), middle))
    (stands : line.header? = some header)
    (known : middle.declarations.entities.contains header.name.text = true) :
    header.FirstRepeated line front := by
  obtain ⟨blocks, cut, distinct, rfl⟩ := Reading.run_feedAll_start.1 read
  have names : blocks.map Block.name = (front.filterMap SourceLine.header?).map (·.name) := by
    rw [← Block.map_header_of_ofLines cut, List.map_map]
    rfl
  have inside := Reading.contains_ofBlocks_iff.1 known
  have first := distinct.names rfl
  rw [names] at inside first
  exact ⟨stands, inside, first⟩

namespace Schema

/-- No source is refused for a repeated name where repeated names replace. -/
theorem cause_ne_duplicateEntity {source : String} {error : SourceError}
    (h : ofSource .replace source = .error error) (name : String) :
    error.cause ≠ .duplicateEntity name := by
  rcases ofSource_eq_error h with ⟨line, -, before, after, refused⟩ | ⟨entity, column, rfl⟩
  · exact Reading.cause_ne_duplicateEntity_of_step refused name
  · intro absurd
    cases absurd

/-- When the first lines of a source are accepted, the source has a schema, or is refused for one of
the other lines, or in the end for an entity that is missing. -/
theorem ofSource_cases_of_run {policy : DuplicatePolicy} {source : String}
    {front back : List SourceLine} {next : Reading}
    (lines : SourceLine.all source.toList = front ++ back)
    (read : (Reading.feedAll policy front).run.run .start = (.ok (), next)) :
    (∃ schema, ofSource policy source = .ok schema) ∨
      (∃ later ∈ back, ∃ error, ofSource policy source = .error error ∧
        error.line = later.number) ∨
      ∃ entity column, ofSource policy source = .error ⟨.unresolvedReference entity column,
        SourceLine.lastNumber source.toList, .emptyAt source.utf8ByteSize⟩ := by
  rw [ofSource, lines, Reading.run_feedAll_append read]
  cases rest : (Reading.feedAll policy back).run.run next with
  | mk result last =>
    cases result with
    | error error =>
      obtain ⟨later, inside, before, left, refused⟩ := Reading.exists_of_run_feedAll_eq_error rest
      exact .inr (.inl ⟨later, inside, error, rfl, (Reading.pointsAt_of_step refused).1⟩)
    | ok value =>
      cases resolved : last.declarations.resolve (.ofSource source.toList) with
      | ok schema => exact .inl ⟨schema, resolved⟩
      | error error =>
        obtain ⟨entity, column, rfl⟩ := Declarations.resolve_eq_error resolved
        refine .inr (.inr ⟨entity, column, resolved.trans ?_⟩)
        rw [EndOfSource.ofSource, Text.byteLength_toList]

/-- Where repeated names are rejected and a source is not refused for one, its schema or its error
is the same where repeated names replace. When it is refused for one, its error is at the first
header that repeats a name; every line before is accepted under both policies, with one reading, and
where repeated names replace that header is accepted too, so that the source has a schema, or is
refused on a later line, or at its end for an entity that is missing. -/
theorem reject_refines_replace (source : String) :
    (∀ outcome, ofSource .reject source = outcome →
      (∀ name number span, outcome ≠ .error ⟨.duplicateEntity name, number, span⟩) →
      ofSource .replace source = outcome) ∧
    ∀ name number span, ofSource .reject source = .error ⟨.duplicateEntity name, number, span⟩ →
      ∃ (front : List SourceLine) (line : SourceLine) (back : List SourceLine) (header : Header),
        SourceLine.all source.toList = front ++ line :: back ∧
        line.number = number ∧ header.name.text = name ∧ header.nameSpan = span ∧
        header.FirstRepeated line front ∧
        (∃ middle, ∀ policy,
          (Reading.feedAll policy front).run.run .start = (.ok (), middle)) ∧
        (∃ next, (Reading.feedAll .replace (front ++ [line])).run.run .start = (.ok (), next)) ∧
        ((∃ schema, ofSource .replace source = .ok schema) ∨
          (∃ later ∈ back, ∃ error, ofSource .replace source = .error error ∧
            error.line = later.number ∧ number < error.line) ∨
          ∃ entity column, ofSource .replace source = .error ⟨.unresolvedReference entity column,
            SourceLine.lastNumber source.toList, .emptyAt source.utf8ByteSize⟩) := by
  rcases Reading.run_feedAll_reject_cases .start (SourceLine.all source.toList) with
    same | ⟨front, line, back, header, middle, next, lines, accepted, stands, known, goes, refused⟩
  · -- without a repeated header both policies come to one outcome
    have outcome : ofSource .reject source = ofSource .replace source := by
      rw [ofSource, ofSource, same]
    constructor
    · rintro _ rfl -
      exact outcome.symm
    · intro name number span h
      exact absurd rfl (cause_ne_duplicateEntity (outcome.symm.trans h) name)
  · have outcome : ofSource .reject source =
        .error ⟨.duplicateEntity header.name.text, line.number, header.nameSpan⟩ := by
      rw [ofSource, refused]
    constructor
    · rintro _ rfl other
      exact absurd outcome (other _ _ _)
    · intro name number span h
      obtain ⟨cause, rfl, rfl⟩ := SourceError.mk.inj (Except.error.inj (outcome.symm.trans h))
      -- the policy that replaces reads on after the header, and only the lines after it are left
      have through : (Reading.feedAll .replace (front ++ [line])).run.run .start =
          (.ok (), next) := by
        rw [Reading.run_feedAll_append (accepted .replace), Reading.run_feedAll_cons, goes]
        rfl
      have numbers := SourceLine.pairwise_number_all source.toList
      rw [lines] at numbers
      have increase := (List.pairwise_cons.1 (List.pairwise_append.1 numbers).2.1).1
      refine ⟨front, line, back, header, lines, rfl, Cause.duplicateEntity.inj cause, rfl,
        Header.firstRepeated_of_run (accepted .reject) stands known, ⟨middle, accepted⟩,
        ⟨next, through⟩, ?_⟩
      rw [List.append_cons] at lines
      rcases ofSource_cases_of_run lines through with
        schema | ⟨later, inside, error, refused, numbered⟩ | missing
      · exact .inl schema
      · refine .inr (.inl ⟨later, inside, error, refused, numbered, ?_⟩)
        rw [numbered]
        exact increase later inside
      · exact .inr (.inr missing)

/-- Of two headers that repeat a name the first is refused, before the field without a type on the
next line. A source that lacks an entity is refused for that under both policies. -/
theorem reject_refines_replace_user :
    (∃ header line front, Header.FirstRepeated header line front ∧
        line.number = 4 ∧ header.name.text = "User") ∧
      ofSource .replace "User Post:hm\n id:int" =
        .error ⟨.unresolvedReference "Post" "user_id", 2, .emptyAt 20⟩ := by
  have repeated : ofSource .reject "User\n id:int\nPost\nUser Post:hm\n id\nPost" =
      .error ⟨.duplicateEntity "User", 4, ⟨18, 22⟩⟩ := by decide +kernel
  have missing : ofSource .reject "User Post:hm\n id:int" =
      .error ⟨.unresolvedReference "Post" "user_id", 2, .emptyAt 20⟩ := by decide +kernel
  obtain ⟨front, line, -, header, -, numbered, named, -, first, -⟩ :=
    (reject_refines_replace _).2 _ _ _ repeated
  refine ⟨⟨header, line, front, first, numbered, named⟩,
    (reject_refines_replace _).1 _ missing fun name number span same => ?_⟩
  cases same

end Schema

end EntitySchema
