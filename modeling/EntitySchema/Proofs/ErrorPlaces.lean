import EntitySchema.Proofs.Refusals
import EntitySchema.Proofs.Source.Errors
import EntitySchema.Proofs.Source.Lines
import Mathlib.Control.Monad.Basic

/-! # Where the error of a source points

The error of a source has the number of one of its lines, and a span whose ends lie between
characters of the source. An entity that is missing in the end is reported at the end of the source;
every other error points to the text on its line that the cause is about. -/

namespace EntitySchema

/-- Whether the line and the span of an error fit a source. -/
structure SourceError.FitsSource (error : SourceError) (source : String) : Prop where
  /-- The line is one of the source. -/
  line_bounds : 1 ≤ error.line ∧ error.line ≤ SourceLine.lastNumber source.toList
  /-- The span ends in the source, and not before it starts. -/
  span_bounds : error.span.start ≤ error.span.stop ∧ error.span.stop ≤ source.utf8ByteSize
  /-- The span starts between characters. -/
  start_isValid : (⟨error.span.start⟩ : String.Pos.Raw).IsValid source
  /-- The span ends between characters. -/
  stop_isValid : (⟨error.span.stop⟩ : String.Pos.Raw).IsValid source
  /-- A missing entity is reported at the end of the source. -/
  at_end : ∀ entity column, error.cause = .unresolvedReference entity column →
    error.line = SourceLine.lastNumber source.toList ∧ error.span = .emptyAt source.utf8ByteSize
  /-- Any other error points into the trimmed text of its line, to the text that it is about. -/
  on_line : (∀ entity column, error.cause ≠ .unresolvedReference entity column) →
    ∃ line ∈ SourceLine.all source.toList, line.number = error.line ∧
      line.contentSpan.start ≤ error.span.start ∧ error.span.stop ≤ line.contentSpan.stop ∧
      ∃ text, error.span.slice source = String.ofList text ∧ error.cause.IsAbout line text

/-! ## Errors of lines -/

/-- An error that points to a text on a line of a source fits the source. -/
theorem SourceError.PointsAt.fitsSource {error : SourceError} {line : SourceLine} {source : String}
    (inSource : line ∈ SourceLine.all source.toList) (h : error.PointsAt line) :
    error.FitsSource source := by
  obtain ⟨numbered, text, held, about⟩ := h
  have holds : error.span.Holds 0 source.toList text :=
    (SourceLine.content_holds inSource).trans held
  have bounds := holds.bounds
  rw [Text.byteLength_toList, Nat.zero_add] at bounds
  refine ⟨numbered ▸ SourceLine.number_bounds inSource, bounds.2, holds.isValid.1, holds.isValid.2,
    fun entity column cause => ?_, fun _ => ?_⟩
  · -- no line is refused for a missing entity
    rw [cause] at about
    exact about.elim
  · have onLine : line.contentSpan.start ≤ error.span.start ∧
        error.span.stop ≤ line.contentSpan.stop := ⟨held.bounds.1, held.bounds.2.2⟩
    exact ⟨line, inSource, numbered.symm, onLine.1, onLine.2, text, holds.slice_eq, about⟩

namespace Reading

variable {policy : DuplicatePolicy} {line : SourceLine} {reading next : Reading}
  {error : SourceError}

/-- A field line that is refused is refused for what stands on it. -/
theorem pointsAt_of_run_feedField (h : (feedField line).run.run reading = (.error error, next)) :
    error.PointsAt line := by
  rcases (run_feedField_eq_error h).2 with ⟨-, rfl⟩ | refused | ⟨entity, field, span, read, rfl⟩
  · exact ⟨rfl, line.content, Span.holds_ofText _ _, rfl⟩
  · exact FieldLine.pointsAt_of_ofLine refused
  · obtain ⟨-, rfl, -, name, typed, properties, parts, spelled⟩ :=
      FieldLine.ofLine_eq_column_iff.1 read
    refine ⟨rfl, line.definition, Span.holds_of_prefix line.definition_prefix_content, rfl, ?_⟩
    rw [SourceLine.parts, parts, List.head?_cons, Option.map_some, spelled.trim_name]

/-- A header that is refused is refused for one of its words. -/
theorem pointsAt_of_run_feedHeader (blank : line.isBlank = false)
    (h : (feedHeader policy line).run.run reading = (.error error, next)) :
    error.PointsAt line := by
  rcases (run_feedHeader_eq_error h).2 with refused | ⟨header, -, read, rfl⟩
  · exact Header.pointsAt_of_ofLine blank refused
  · obtain ⟨first, held⟩ := Header.nameSpan_holds_of_ofLine read
    exact ⟨rfl, header.name.text.toList, held, first, rfl⟩

/-- A line that is refused is refused for what stands on it. -/
theorem pointsAt_of_step (h : step policy reading line = (.error error, next)) :
    error.PointsAt line := by
  obtain ⟨blank, ⟨-, refused⟩ | ⟨-, refused⟩⟩ := step_eq_error h
  · exact pointsAt_of_run_feedField refused
  · exact pointsAt_of_run_feedHeader blank refused

end Reading

/-! ## Errors at the end -/

/-- Declarations that cannot be resolved are refused at the end of the source, for an entity that is
missing. -/
theorem Declarations.resolve_eq_error {declarations : Declarations} {finish : EndOfSource}
    {error : SourceError} (h : declarations.resolve finish = .error error) :
    ∃ entity column,
      error = ⟨.unresolvedReference entity column, finish.line, .emptyAt finish.offset⟩ := by
  rw [resolve] at h
  cases granting : declarations.pending.entries.foldlM (grantAll finish) declarations.entities with
  | ok table =>
    rw [granting] at h
    cases h
  | error other =>
    rw [granting] at h
    obtain rfl := Except.error.inj h
    obtain ⟨⟨target, columns⟩, -, table, refused⟩ := Outcome.exists_of_foldlM_eq_error granting
    rw [grantAll] at refused
    split at refused
    · cases refused
    · exact ⟨_, _, (Except.error.inj refused).symm⟩

/-- An error at the end of a source fits it. -/
theorem SourceError.fitsSource_end (source : String) (entity column : String) :
    FitsSource ⟨.unresolvedReference entity column, SourceLine.lastNumber source.toList,
      .emptyAt source.utf8ByteSize⟩ source := by
  have ends : source.toList = source.toList ++ [] := (List.append_nil _).symm
  have valid := Span.isValid_byteLength ends
  rw [Text.byteLength_toList] at valid
  have lines : 1 ≤ SourceLine.lastNumber source.toList :=
    List.length_pos_of_ne_nil (List.splitOn_ne_nil _ _)
  exact ⟨⟨lines, Nat.le_refl _⟩, ⟨Nat.le_refl _, Nat.le_refl _⟩, valid, valid,
    fun _ _ _ => ⟨rfl, rfl⟩, fun absurd => (absurd entity column rfl).elim⟩

/-! ## The error of a source -/

namespace Schema

variable {policy : DuplicatePolicy} {source : String} {error : SourceError}

/-- A source is refused for one of its lines, or in the end for an entity that is missing. -/
theorem ofSource_eq_error (h : ofSource policy source = .error error) :
    (∃ line ∈ SourceLine.all source.toList, ∃ before after,
      Reading.step policy before line = (.error error, after)) ∨
    ∃ entity column, error = ⟨.unresolvedReference entity column,
      SourceLine.lastNumber source.toList, .emptyAt source.utf8ByteSize⟩ := by
  rw [ofSource] at h
  cases outcome : (Reading.feedAll policy (SourceLine.all source.toList)).run.run .start with
  | mk result reading =>
    simp only [outcome] at h
    cases result with
    | error refusal =>
      obtain rfl := Except.error.inj h
      exact .inl (Reading.exists_of_run_feedAll_eq_error outcome)
    | ok value =>
      obtain ⟨entity, column, rfl⟩ := Declarations.resolve_eq_error h
      refine .inr ⟨entity, column, ?_⟩
      rw [EndOfSource.ofSource, Text.byteLength_toList]

/-- Whatever the policy, the error of a source that is refused has one of its lines and a span
between its characters, and it points to the text that it is about. For the name of an entity that
is no identifier, this is the name itself as the first word of a header, and the whole word, with its
code, as the target of a relation. -/
theorem fitsSource_of_ofSource_eq_error (h : ofSource policy source = .error error) :
    error.FitsSource source := by
  rcases ofSource_eq_error h with ⟨line, inSource, before, after, refused⟩ | ⟨entity, column, rfl⟩
  · exact (Reading.pointsAt_of_step refused).fitsSource inSource
  · exact SourceError.fitsSource_end source entity column

/-- Behind a wide blank and letters of two bytes, the unknown property is underlined. -/
theorem fitsSource_of_ofSource_eq_error_wide :
    let source := "User\r\n\u3000name:größe:indx \r\nTag"
    let error : SourceError := ⟨.unknownProperty "indx", 2, ⟨22, 26⟩⟩
    ofSource .replace source = .error error ∧ error.FitsSource source := by
  have h : ofSource .replace "User\r\n\u3000name:größe:indx \r\nTag" =
      .error ⟨.unknownProperty "indx", 2, ⟨22, 26⟩⟩ := by decide +kernel
  exact ⟨h, fitsSource_of_ofSource_eq_error h⟩

/-- The span of a target that is no identifier does not hold its name alone, but the whole word. -/
theorem slice_ne_of_ofSource_invalid_target :
    let source := "User Blog-Post:hm"
    let error : SourceError := ⟨.refused (.entityName "Blog-Post"), 1, ⟨5, 17⟩⟩
    ofSource .replace source = .error error ∧ ofSource .reject source = .error error ∧
      error.span.slice source = "Blog-Post:hm" ∧ error.span.slice source ≠ "Blog-Post" := by
  decide +kernel

end Schema

end EntitySchema
