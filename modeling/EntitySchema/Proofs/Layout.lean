import EntitySchema.Proofs.Refusals
import EntitySchema.Proofs.Source.Layout
import EntitySchema.Proofs.Source.Relocation

/-! # The layout of a source

A source is read from what its lines say: blank lines are passed over, of a field line only the
trimmed text counts, and of a header only the words. So two sources whose lines say the same, one
after the other, have the same schema, or are refused for the same cause, whatever their layout. -/

namespace EntitySchema

open Text

/-! ## Steps -/

namespace Reading

variable {policy : DuplicatePolicy} {line other : SourceLine} {lines others : List SourceLine}

/-- What came of some lines, with the cause of an error but not its place. -/
def placeless (left : Except SourceError Unit × Reading) : Except Cause Unit × Reading :=
  (left.1.mapError (·.cause), left.2)

/-- Where nothing but the place of an error differs, both steps succeed with one reading left, or
both fail for one cause. -/
theorem cases_of_placeless_eq {left right : Except SourceError Unit × Reading}
    (same : placeless left = placeless right) :
    (∃ reading, left = (.ok (), reading) ∧ right = (.ok (), reading)) ∨
      ∃ error twin reading, left = (.error error, reading) ∧ right = (.error twin, reading) ∧
        error.cause = twin.cause := by
  obtain ⟨result, reading⟩ := left
  obtain ⟨other, next⟩ := right
  obtain ⟨outcome, rfl⟩ := Prod.mk.inj same
  cases result with
  | ok value =>
    cases other with
    | ok twin => exact .inl ⟨reading, rfl, rfl⟩
    | error twin => cases outcome
  | error error =>
    cases other with
    | ok twin => cases outcome
    | error twin => exact .inr ⟨error, twin, reading, rfl, rfl, Except.error.inj outcome⟩

/-- Field lines with the same content do the same to a reading. -/
theorem run_feedField_of_content_eq (same : line.content = other.content) (reading : Reading) :
    placeless ((feedField line).run.run reading) =
      placeless ((feedField other).run.run reading) := by
  rw [run_feedField, run_feedField]
  cases reading.current with
  | none => rfl
  | some slot =>
    dsimp only
    rcases Outcome.cases_of_moved_eq (FieldLine.moved_ofLine_of_content_eq same) with
      ⟨content, twin, read, again, alike⟩ | ⟨error, twin, read, again, cause⟩
    · rw [read, again]
      dsimp only
      cases reading.declarations.entities.at? slot with
      | none => rfl
      | some entity =>
        cases content with
        | timestamps =>
          cases twin with
          | timestamps => rfl
          | column field span => cases alike
        | column field span =>
          cases twin with
          | timestamps => cases alike
          | column field place =>
            cases alike
            dsimp only
            split <;> rfl
    · rw [read, again]
      exact congrArg (fun cause => (Except.error cause, reading)) cause

/-- Wherever its words stand, a header declares the same entity. -/
theorem entity_moved (place : Nat → Nat) (header : Header) :
    (header.moved place).entity = header.entity := by
  rw [Header.entity, Header.entity, Header.moved, List.foldl_map]
  rfl

/-- Wherever their words stand, the relations of a header are declared in the same way. -/
theorem foldl_declareRelation_moved (place : Nat → Nat) (header : Header) (reading : Reading) :
    (header.moved place).relations.foldl
        (fun reading relation => declareRelation header.name relation reading) reading =
      header.relations.foldl
        (fun reading relation => declareRelation header.name relation reading) reading := by
  rw [Header.moved, List.foldl_map]
  rfl

/-- Headers with the same words do the same to a reading. -/
theorem run_feedHeader_of_words_eq (same : line.content.words = other.content.words)
    (reading : Reading) :
    placeless ((feedHeader policy line).run.run reading) =
      placeless ((feedHeader policy other).run.run reading) := by
  rw [run_feedHeader, run_feedHeader]
  rcases Outcome.cases_of_moved_eq (Header.moved_ofLine_of_words_eq same) with
    ⟨header, twin, read, again, alike⟩ | ⟨error, twin, read, again, cause⟩
  · have name : header.name = twin.name := (Header.mk.inj alike).1
    rw [read, again]
    dsimp only
    -- entity and relations are the same as those of the header with every place forgotten
    rw [← entity_moved (fun _ => 0) header, ← foldl_declareRelation_moved (fun _ => 0) header,
      alike, entity_moved, name, foldl_declareRelation_moved]
    split <;> rfl
  · rw [read, again]
    exact congrArg (fun cause => (Except.error cause, reading)) cause

/-- Lines that say the same do the same to a reading. -/
theorem step_of_alike (policy : DuplicatePolicy) (alike : line.Alike other) (reading : Reading) :
    placeless (step policy reading line) = placeless (step policy reading other) := by
  rw [step, step, feed, feed]
  cases alike with
  | blank first second =>
    rw [if_pos first, if_pos second]
  | field first second same =>
    rw [first.1, first.2, second.1, second.2]
    exact run_feedField_of_content_eq same reading
  | header first second same =>
    rw [first.1, first.2, second.1, second.2]
    exact run_feedHeader_of_words_eq same reading

/-! ## Runs -/

/-- A blank line does nothing to a reading. -/
theorem step_of_isBlank (blank : line.isBlank = true) (reading : Reading) :
    step policy reading line = (.ok (), reading) := by
  rw [step, feed, if_pos blank]
  rfl

/-- Lines are read as those of them that are not blank. -/
theorem run_feedAll_filter (reading : Reading) (lines : List SourceLine) :
    (feedAll policy (lines.filter (!·.isBlank))).run.run reading =
      (feedAll policy lines).run.run reading := by
  induction lines generalizing reading with
  | nil => rfl
  | cons line rest ih =>
    rw [run_feedAll_cons, List.filter_cons]
    cases blank : line.isBlank with
    | true => rw [step_of_isBlank blank]; exact ih reading
    | false =>
      rw [if_pos (by rfl), run_feedAll_cons]
      simp only [ih]

/-- Lines that say the same, one after the other, do the same to a reading. -/
theorem run_feedAll_of_alike (policy : DuplicatePolicy)
    (alike : List.Forall₂ SourceLine.Alike lines others) (reading : Reading) :
    placeless ((feedAll policy lines).run.run reading) =
      placeless ((feedAll policy others).run.run reading) := by
  induction alike generalizing reading with
  | nil => rfl
  | @cons line other rest later said _ ih =>
    have same := step_of_alike policy said reading
    rw [run_feedAll_cons, run_feedAll_cons]
    rcases cases_of_placeless_eq same with
      ⟨middle, first, second⟩ | ⟨error, twin, left, first, second, cause⟩
    · rw [first, second]
      exact ih middle
    · -- the rest is not read after either refusal
      rw [first, second]
      exact congrArg (fun cause => (Except.error cause, left)) cause

end Reading

/-- The cause for which declarations cannot be resolved does not depend on where the source ends. -/
theorem Declarations.mapError_resolve (declarations : Declarations) (finish other : EndOfSource) :
    (declarations.resolve finish).mapError (·.cause) =
      (declarations.resolve other).mapError (·.cause) := by
  have granted : ∀ table entry, (grantAll finish table entry).mapError (·.cause) =
      (grantAll other table entry).mapError (·.cause) := by
    intro table entry
    rw [grantAll, grantAll]
    split <;> rfl
  have bound : ∀ finish, declarations.resolve finish =
      declarations.pending.entries.foldlM (grantAll finish) declarations.entities >>=
        fun table => .ok ⟨table.toList, declarations.links⟩ := by
    intro finish
    rw [resolve]
    cases declarations.pending.entries.foldlM (grantAll finish) declarations.entities <;> rfl
  rw [bound, bound, Outcome.mapError_bind, Outcome.mapError_bind,
    Outcome.mapError_foldlM_congr granted]

/-! ## Sources -/

namespace Schema

/-- Sources whose lines say the same, but for blank lines, have the same schema or are refused for
the same cause. -/
theorem mapError_ofSource_of_alike (policy : DuplicatePolicy) {source other : String}
    (alike : List.Forall₂ SourceLine.Alike
      ((SourceLine.all source.toList).filter (!·.isBlank))
      ((SourceLine.all other.toList).filter (!·.isBlank))) :
    (ofSource policy source).mapError (·.cause) = (ofSource policy other).mapError (·.cause) := by
  have same := Reading.run_feedAll_of_alike policy alike .start
  rw [Reading.run_feedAll_filter, Reading.run_feedAll_filter] at same
  rw [ofSource, ofSource]
  rcases Reading.cases_of_placeless_eq same with
    ⟨reading, first, second⟩ | ⟨error, twin, left, first, second, cause⟩
  · rw [first, second]
    exact Declarations.mapError_resolve _ _ _
  · rw [first, second]
    exact congrArg Except.error cause

/-- Under either policy, two sources whose lines that are not blank say the same, in order, both
have the same schema, or are both refused for the same cause. In particular, lines of blanks may be
added and left out, blanks may be added and dropped at the end of any line, an indented line may be
indented in any other way, and every line may end in a carriage return before its newline. -/
theorem ofSource_relaid (policy : DuplicatePolicy) :
    (∀ source other : String,
      List.Forall₂ SourceLine.Alike ((SourceLine.all source.toList).filter (!·.isBlank))
        ((SourceLine.all other.toList).filter (!·.isBlank)) →
      (ofSource policy source).mapError (·.cause) =
        (ofSource policy other).mapError (·.cause)) ∧
    (∀ source other : String,
      LinesRelaid (source.toList.splitOn '\n') (other.toList.splitOn '\n') →
      (ofSource policy source).mapError (·.cause) =
        (ofSource policy other).mapError (·.cause)) ∧
    ∀ source : String,
      (ofSource policy (String.ofList (withReturns source.toList))).mapError (·.cause) =
        (ofSource policy source).mapError (·.cause) := by
  refine ⟨fun source other alike => mapError_ofSource_of_alike policy alike,
    fun source other relaid =>
      mapError_ofSource_of_alike policy (SourceLine.alike_all_of_linesRelaid relaid),
    fun source => ?_⟩
  have relaid := linesRelaid_withReturns source.toList
  rw [← String.toList_ofList (l := withReturns source.toList)] at relaid
  exact (mapError_ofSource_of_alike policy (SourceLine.alike_all_of_linesRelaid relaid)).symm

/-- A header with wide spaces and a line indented by a tab are read as in the plain layout, and an
unknown property is one in any layout. -/
theorem ofSource_relaid_indented :
    (ofSource .reject "User Tag:hm\n name:str\nTag").mapError (·.cause) =
        (ofSource .reject "\r\nUser\u000c Tag:hm\u3000\r\n\t\u00a0name:str\r\n\n\nTag\r").mapError
          (·.cause) ∧
      (ofSource .replace "User\n name:str:indx").mapError (·.cause) =
        (ofSource .replace "User \r\n  \r\n\tname:str:indx\r\n").mapError (·.cause) ∧
      (ofSource .replace "User\n name:str:indx").mapError (·.cause) =
        .error (.unknownProperty "indx") := by
  have plain : (SourceLine.all "User Tag:hm\n name:str\nTag".toList).filter (!·.isBlank) =
      [⟨1, 0, "User Tag:hm".toList⟩, ⟨2, 12, " name:str".toList⟩, ⟨3, 22, "Tag".toList⟩] := by
    decide +kernel
  have wide : (SourceLine.all
        "\r\nUser\u000c Tag:hm\u3000\r\n\t\u00a0name:str\r\n\n\nTag\r".toList).filter
          (!·.isBlank) =
      [⟨2, 2, "User\u000c Tag:hm\u3000".toList⟩, ⟨3, 19, "\t\u00a0name:str".toList⟩,
        ⟨6, 34, "Tag".toList⟩] := by
    decide +kernel
  have blanks : ∀ {text : Text}, text.all isBlank = true → ∀ c ∈ text, isBlank c = true :=
    List.all_eq_true.1
  have relaid : LinesRelaid ("User\n name:str:indx".toList.splitOn '\n')
      ("User \r\n  \r\n\tname:str:indx\r\n".toList.splitOn '\n') := by
    have header : Relaid "User".toList ("User".toList ++ [' ', '\r']) :=
      relaid_append (blanks (by decide)) _
    have field : Relaid ([' '] ++ "name:str:indx".toList ++ [])
        (['\t'] ++ "name:str:indx".toList ++ ['\r']) :=
      .intro _ (by decide) (blanks (by decide)) (blanks (by decide))
    exact .line header (.added (blanks (by decide))
      (.line field (.added (blanks (by decide)) .nil)))
  refine ⟨(ofSource_relaid .reject).1 _ _ ?_, (ofSource_relaid .replace).2.1 _ _ relaid,
    by decide +kernel⟩
  rw [plain, wide]
  exact .cons (.header (by decide) (by decide) (by decide))
    (.cons (.field (by decide) (by decide) (by decide))
      (.cons (.header (by decide) (by decide) (by decide)) .nil))

end Schema

end EntitySchema
