import EntitySchema.Reading
import Mathlib.Control.Monad.Basic

/-! # Lines that are refused

Every check of a line comes before the first change that the line makes, so a line that is refused
leaves the reading as it was. Going on after refused lines is therefore the same as reading only the
lines that are accepted. -/

namespace EntitySchema

namespace Reading

variable {policy : DuplicatePolicy} {line : SourceLine} {reading next : Reading}
  {error : SourceError}

/-! ## Why a line is refused -/

/-- A field line that is refused changes nothing. It is refused without an open entity, by its own
grammar, or for a field that the open entity has already. -/
theorem run_feedField_eq_error (h : (feedField line).run.run reading = (.error error, next)) :
    next = reading ∧
      ((reading.current.bind reading.declarations.entities.at? = none ∧
          error = ⟨.orphanField, line.number, line.contentSpan⟩) ∨
        FieldLine.ofLine line = .error error ∨
        ∃ (entity : Entity) (field : Field) (span : Span),
          FieldLine.ofLine line = .ok (.column field span) ∧
            error = ⟨.duplicateField entity.name.text field.name.text, line.number, span⟩) := by
  rw [run_feedField] at h
  cases current : reading.current with
  | none =>
    rw [current] at h
    obtain ⟨same, rfl⟩ := Prod.mk.inj h
    exact ⟨rfl, .inl ⟨rfl, (Except.error.inj same).symm⟩⟩
  | some slot =>
    rw [current] at h
    cases read : FieldLine.ofLine line with
    | error refusal =>
      rw [read] at h
      obtain ⟨same, rfl⟩ := Prod.mk.inj h
      exact ⟨rfl, .inr (.inl (congrArg _ (Except.error.inj same)))⟩
    | ok content =>
      rw [read] at h
      dsimp only at h
      cases found : reading.declarations.entities.at? slot with
      | none =>
        rw [found] at h
        obtain ⟨same, rfl⟩ := Prod.mk.inj h
        exact ⟨rfl, .inl ⟨found, (Except.error.inj same).symm⟩⟩
      | some entity =>
        rw [found] at h
        cases content with
        | timestamps => cases h
        | column field span =>
          dsimp only at h
          split at h
          · obtain ⟨same, rfl⟩ := Prod.mk.inj h
            exact ⟨rfl, .inr (.inr ⟨entity, field, span, rfl, (Except.error.inj same).symm⟩)⟩
          · cases h

/-- A header that is refused changes nothing. It is refused by its own grammar or, where repeated
names are rejected, for a name that is declared already. -/
theorem run_feedHeader_eq_error
    (h : (feedHeader policy line).run.run reading = (.error error, next)) :
    next = reading ∧
      (Header.ofLine line = .error error ∨
        ∃ header, policy = .reject ∧ Header.ofLine line = .ok header ∧
          error = ⟨.duplicateEntity header.name.text, line.number, header.nameSpan⟩) := by
  rw [run_feedHeader] at h
  cases read : Header.ofLine line with
  | error refusal =>
    rw [read] at h
    obtain ⟨same, rfl⟩ := Prod.mk.inj h
    exact ⟨rfl, .inl (congrArg _ (Except.error.inj same))⟩
  | ok header =>
    rw [read] at h
    dsimp only at h
    split at h
    · rename_i repeated
      obtain ⟨same, rfl⟩ := Prod.mk.inj h
      exact ⟨rfl, .inr ⟨header, repeated.1, rfl, (Except.error.inj same).symm⟩⟩
    · cases h

/-- A line that is refused is not blank, and is refused as a field line or as a header. -/
theorem step_eq_error (h : step policy reading line = (.error error, next)) :
    line.isBlank = false ∧
      ((line.kind = .field ∧ (feedField line).run.run reading = (.error error, next)) ∨
        (line.kind = .header ∧
          (feedHeader policy line).run.run reading = (.error error, next))) := by
  rw [step, feed] at h
  cases blank : line.isBlank with
  | true =>
    rw [blank] at h
    cases h
  | false =>
    rw [blank] at h
    refine ⟨rfl, ?_⟩
    cases kind : line.kind with
    | field =>
      rw [kind] at h
      exact .inl ⟨rfl, h⟩
    | header =>
      rw [kind] at h
      exact .inr ⟨rfl, h⟩

/-- A line that is refused leaves the reading as it was. -/
theorem eq_of_step_eq_error (h : step policy reading line = (.error error, next)) :
    next = reading := by
  obtain ⟨-, ⟨-, refused⟩ | ⟨-, refused⟩⟩ := step_eq_error h
  · exact (run_feedField_eq_error refused).1
  · exact (run_feedHeader_eq_error refused).1

/-! ## Going on after a refusal -/

/-- The reading after lines, whether they are accepted or refused. -/
def after (policy : DuplicatePolicy) (reading : Reading) (lines : List SourceLine) : Reading :=
  lines.foldl (fun reading line => (step policy reading line).2) reading

/-- Those of some lines that are accepted, each in the reading that the lines before it left. -/
def accepted (policy : DuplicatePolicy) : Reading → List SourceLine → List SourceLine
  | _, [] => []
  | reading, line :: rest =>
    match step policy reading line with
    | (.ok (), next) => line :: accepted policy next rest
    | (.error _, next) => accepted policy next rest

/-- The lines that are accepted are read to their end, and lead to the same reading as all lines. -/
theorem run_feedAll_accepted (policy : DuplicatePolicy) (reading : Reading)
    (lines : List SourceLine) :
    (feedAll policy (accepted policy reading lines)).run.run reading =
      (.ok (), after policy reading lines) := by
  induction lines generalizing reading with
  | nil => rfl
  | cons line rest ih =>
    rw [accepted, after, List.foldl_cons, ← after]
    cases outcome : step policy reading line with
    | mk result next =>
      cases result with
      | ok value =>
        show (feedAll policy (line :: accepted policy next rest)).run.run reading = _
        rw [run_feedAll_cons, outcome]
        exact ih next
      | error error =>
        -- the line is left out, and the others begin where it began
        obtain rfl := eq_of_step_eq_error outcome
        exact ih next

/-- Lines that are all accepted lead to the reading after them. -/
theorem after_of_run_feedAll {lines : List SourceLine}
    (h : (feedAll policy lines).run.run reading = (.ok (), next)) :
    after policy reading lines = next := by
  induction lines generalizing reading with
  | nil => exact (Prod.mk.inj h).2
  | cons line rest ih =>
    rw [run_feedAll_cons] at h
    rw [after, List.foldl_cons, ← after]
    cases outcome : step policy reading line with
    | mk result middle =>
      rw [outcome] at h
      cases result with
      | ok value => exact ih h
      | error error => cases h

/-- When the reading of lines ends in an error, one of the lines is refused with it. -/
theorem exists_of_run_feedAll_eq_error {lines : List SourceLine}
    (h : (feedAll policy lines).run.run reading = (.error error, next)) :
    ∃ line ∈ lines, ∃ before left, step policy before line = (.error error, left) := by
  induction lines generalizing reading with
  | nil => cases h
  | cons line rest ih =>
    rw [run_feedAll_cons] at h
    cases outcome : step policy reading line with
    | mk result middle =>
      rw [outcome] at h
      cases result with
      | ok value =>
        obtain ⟨other, inside, found⟩ := ih h
        exact ⟨other, List.mem_cons_of_mem line inside, found⟩
      | error refusal =>
        obtain ⟨same, -⟩ := Prod.mk.inj h
        rw [same] at outcome
        exact ⟨line, List.mem_cons_self, reading, middle, outcome⟩

/-- Under either policy, a line that is refused leaves the open entity, the entities, the pending
columns and the link tables as they were. So any lines, read on after every refusal, lead to the
same reading and the same resolution as the accepted ones among them, of which none is refused. -/
theorem refused_leaves_nothing (policy : DuplicatePolicy) :
    (∀ reading line error next, step policy reading line = (.error error, next) →
      next = reading) ∧
    ∀ reading lines,
      (feedAll policy (accepted policy reading lines)).run.run reading =
          (.ok (), after policy reading lines) ∧
        after policy reading (accepted policy reading lines) = after policy reading lines ∧
        ∀ finish,
          (after policy reading (accepted policy reading lines)).declarations.resolve finish =
            (after policy reading lines).declarations.resolve finish := by
  refine ⟨fun _ _ _ _ h => eq_of_step_eq_error h, fun reading lines => ?_⟩
  have run := run_feedAll_accepted policy reading lines
  have same := after_of_run_feedAll run
  exact ⟨run, same, fun finish => by rw [same]⟩

/-- A header whose last relation is unknown is refused and asks for nothing by its first. -/
theorem refused_leaves_nothing_mixed :
    let header : SourceLine := ⟨4, 24, "Tag Post:hm Post:xx".toList⟩
    let lines := SourceLine.all "  id:big\nPost\n  id:big\nTag Post:hm Post:xx\n  id:int".toList
    (∃ error next, step .replace start header = (.error error, next) ∧ next = start) ∧
      (accepted .replace start lines).map (·.number) = [2, 3] ∧
      after .replace start (accepted .replace start lines) = after .replace start lines := by
  refine ⟨?_, by decide +kernel, ((refused_leaves_nothing .replace).2 start _).2.1⟩
  have outcome : step .replace start ⟨4, 24, "Tag Post:hm Post:xx".toList⟩ =
      (.error ⟨.unknownRelation "Post" "xx", 4, ⟨36, 43⟩⟩, start) := by decide +kernel
  exact ⟨_, _, outcome, (refused_leaves_nothing .replace).1 _ _ _ _ outcome⟩

end Reading

end EntitySchema
