import EntitySchema.Proofs.Blocks
import EntitySchema.Proofs.Source.FieldReading
import EntitySchema.Proofs.Source.Lines
import Mathlib.Data.List.Forall2

/-! # Lines that say the same

What a line says depends neither on its number and its place nor on its layout: of a field line only
the trimmed text counts, and of a header only the words. So lines that say the same declare the same
entities. -/

namespace EntitySchema

open Text

/-- Whether two lines say the same. -/
inductive SourceLine.Alike (line other : SourceLine) : Prop where
  /-- Both are blank. -/
  | blank (first : line.isBlank = true) (second : other.isBlank = true)
  /-- Both are field lines, with the same content. -/
  | field (first : line.isBlank = false ∧ line.kind = .field)
      (second : other.isBlank = false ∧ other.kind = .field) (same : line.content = other.content)
  /-- Both are headers, with the same words. -/
  | header (first : line.isBlank = false ∧ line.kind = .header)
      (second : other.isBlank = false ∧ other.kind = .header)
      (same : line.content.words = other.content.words)

namespace SourceLine

variable {line other : SourceLine}

/-- When one line says what another says, so does the other. -/
theorem Alike.symm (h : line.Alike other) : other.Alike line := by
  cases h with
  | blank first second => exact .blank second first
  | field first second same => exact .field second first same.symm
  | header first second same => exact .header second first same.symm

/-- Of two lines that say the same, both are blank or neither is. -/
theorem Alike.isBlank_eq (h : line.Alike other) : line.isBlank = other.isBlank := by
  cases h with
  | blank first second => rw [first, second]
  | field first second => rw [first.1, second.1]
  | header first second => rw [first.1, second.1]

/-- Lines with the same content say the same when they are of one kind or blank. -/
theorem alike_of_content (content : line.content = other.content)
    (kind : line.isBlank = false → line.kind = other.kind) : line.Alike other := by
  have blanks : line.isBlank = other.isBlank := congrArg List.isEmpty content
  cases blank : line.isBlank with
  | true => exact .blank blank (blanks ▸ blank)
  | false =>
    have kinds := kind blank
    cases stands : line.kind with
    | field =>
      exact .field ⟨blank, stands⟩ ⟨blanks ▸ blank, kinds ▸ stands⟩ content
    | header =>
      exact .header ⟨blank, stands⟩ ⟨blanks ▸ blank, kinds ▸ stands⟩ (congrArg words content)

/-! ## The carriage return at the end -/

/-- The carriage return at the end of a line is trimmed anyway. -/
theorem trim_dropReturn (raw : Text) : trim (dropReturn raw) = trim raw := by
  rw [dropReturn]
  split
  · rename_i ending
    have blank : ∀ c ∈ ['\r'], Text.isBlank c = true := List.forall_mem_singleton.2 rfl
    rw [← trim_append_of_isBlank_right blank raw.dropLast,
      List.dropLast_append_getLast? '\r' ending]
  · rfl

/-- The kind of a line that is not blank is decided by its first character, with or without the
carriage return at its end. -/
theorem kind_of_text {first : Char} {rest : Text} (text : line.text = dropReturn (first :: rest))
    (blank : line.isBlank = false) :
    line.kind = if Text.isBlank first then .field else .header := by
  obtain ⟨c, others, nonempty⟩ : ∃ c others, line.text = c :: others := by
    apply List.exists_cons_of_ne_nil
    intro empty
    rw [isBlank, empty] at blank
    cases blank
  have front : c :: others <+: first :: rest := by
    rw [← nonempty, text]
    exact dropReturn_prefix_self _
  rw [kind, nonempty, (List.cons_prefix_cons.1 front).1]

/-- A line without the carriage return at its end says what it said with it. -/
theorem alike_of_text (h : other.text = dropReturn line.text) : line.Alike other := by
  have content : line.content = other.content := by
    rw [SourceLine.content, SourceLine.content, h, trim_dropReturn]
  refine alike_of_content content fun blank => ?_
  have again : other.isBlank = false := by rwa [isBlank, ← SourceLine.content, ← content]
  cases text : line.text with
  | nil =>
    rw [isBlank, text] at blank
    cases blank
  | cons first rest =>
    rw [kind_of_text (text ▸ h) again, kind, text]

/-! ## Lines put together -/

/-- The text of lines, with a newline between them. -/
def joined (lines : List SourceLine) : String :=
  "\n".intercalate (lines.map fun line => String.ofList line.text)

/-- Lines that are put together to a source are found in it again, and say what they said. -/
theorem alike_all_joined {lines : List SourceLine} (nonempty : lines ≠ [])
    (plain : ∀ line ∈ lines, '\n' ∉ line.text) :
    List.Forall₂ Alike lines (all (joined lines).toList) := by
  have newline : "\n".toList = ['\n'] := rfl
  have parts : (joined lines).toList.splitOn '\n' = lines.map (·.text) := by
    rw [joined, String.toList_intercalate, newline, List.map_map]
    simp only [Function.comp_def, String.toList_ofList]
    apply List.splitOn_intercalate
    · rw [List.forall_mem_map]
      exact plain
    · simpa using nonempty
  have texts := map_text_all (joined lines).toList
  rw [parts, List.map_map, ← List.forall₂_eq_eq_eq, List.forall₂_map_left_iff,
    List.forall₂_map_right_iff] at texts
  exact texts.flip.imp fun line other => alike_of_text

end SourceLine

/-! ## What lines say -/

/-- Lines with the same content are read as the same field, or both as the word for timestamps. -/
theorem FieldLine.exists_ofLine_of_content_eq {line other : SourceLine}
    (same : line.content = other.content) {content : FieldLine} (h : ofLine line = .ok content) :
    ∃ twin, ofLine other = .ok twin ∧ twin.field? = content.field? := by
  cases content with
  | timestamps =>
    have word := ofLine_eq_timestamps_iff.1 h
    rw [same] at word
    exact ⟨.timestamps, ofLine_eq_timestamps_iff.2 word, rfl⟩
  | column field span =>
    obtain ⟨word, -, rules, spelled⟩ := ofLine_eq_column_iff.1 h
    rw [SourceLine.rules, same, ← SourceLine.rules] at rules
    rw [SourceLine.definition, same, ← SourceLine.definition] at spelled
    rw [same] at word
    exact ⟨.column field _, ofLine_eq_column_iff.2 ⟨word, rfl, rules, spelled⟩, rfl⟩

/-- Lines with the same words are read as headers of one name with the same relations. -/
theorem Header.exists_ofLine_of_words_eq {line other : SourceLine}
    (same : line.content.words = other.content.words) {header : Header}
    (h : ofLine line = .ok header) :
    ∃ twin, ofLine other = .ok twin ∧ twin.name = header.name ∧
      twin.relations.map RelationWord.relation = header.relations.map RelationWord.relation :=
  ofLine_of_words (same.symm.trans (words_content_of_ofLine h))

namespace Block

/-- The entity of a block depends on the name and the relations in its header, and on the fields and
the words for timestamps on its lines. -/
theorem entity_congr {block other : Block} (name : block.name = other.name)
    (relations : block.header.relations.map RelationWord.relation =
      other.header.relations.map RelationWord.relation)
    (lines : block.lines.map FieldLine.field? = other.lines.map FieldLine.field?) :
    block.entity = other.entity := by
  have fields : ∀ block : Block,
      block.fields = (block.lines.map FieldLine.field?).filterMap id := by
    intro block
    rw [List.filterMap_map]
    rfl
  have timestamps : ∀ block : Block,
      block.timestamps = (block.lines.map FieldLine.field?).contains none := by
    intro block
    rw [Bool.eq_iff_iff, Block.timestamps, List.contains_iff_mem, List.contains_iff_mem,
      List.mem_map]
    constructor
    · exact fun inside => ⟨.timestamps, inside, rfl⟩
    · rintro ⟨_ | _, inside, same⟩
      · exact inside
      · cases same
  simp only [entity, name, related_eq, fields, timestamps, relations, lines]

/-- Lines that say the same are cut into the same field lines and into blocks of the same
entities. -/
theorem exists_ofLines_of_alike {lines others : List SourceLine}
    (alike : List.Forall₂ SourceLine.Alike lines others) {loose : List FieldLine}
    {blocks : List Block} (cut : ofLines lines = .ok (loose, blocks)) :
    ∃ twins copies, ofLines others = .ok (twins, copies) ∧
      twins.map FieldLine.field? = loose.map FieldLine.field? ∧
      copies.map entity = blocks.map entity := by
  -- both lists are cut in step: blank lines are passed over, a field line goes to the loose ones,
  -- and a header takes the loose ones of the rest into its block
  induction alike generalizing loose blocks with
  | nil =>
    cases cut
    exact ⟨[], [], rfl, rfl, rfl⟩
  | cons said _ ih =>
    cases said with
    | blank first second =>
      rw [ofLines_cons_of_isBlank first] at cut
      rw [ofLines_cons_of_isBlank second]
      exact ih cut
    | field first second same =>
      obtain ⟨content, own, read, later, rfl⟩ := (ofLines_cons_of_field first.1 first.2).1 cut
      obtain ⟨twin, again, field⟩ := FieldLine.exists_ofLine_of_content_eq same read
      obtain ⟨twins, copies, found, fields, entities⟩ := ih later
      refine ⟨twin :: twins, copies, ?_, by rw [List.map_cons, field, fields]; rfl, entities⟩
      exact (ofLines_cons_of_field second.1 second.2).2 ⟨twin, twins, again, found, rfl⟩
    | header first second same =>
      obtain ⟨header, own, later, read, after, rfl, rfl⟩ :=
        (ofLines_cons_of_header first.1 first.2).1 cut
      obtain ⟨twin, again, name, relations⟩ := Header.exists_ofLine_of_words_eq same read
      obtain ⟨twins, copies, found, fields, entities⟩ := ih after
      have declared : entity ⟨twin, twins⟩ = entity ⟨header, own⟩ :=
        entity_congr name relations fields
      refine ⟨[], ⟨twin, twins⟩ :: copies, ?_, rfl, by rw [List.map_cons, declared, entities]; rfl⟩
      exact (ofLines_cons_of_header second.1 second.2).2
        ⟨twin, twins, copies, again, found, rfl, rfl⟩

end Block

/-! ## The entities that lines declare -/

/-- Whether lines begin with no loose field and are cut into blocks that declare these entities. -/
def Entity.DeclaredBy (lines : List SourceLine) (entities : List Entity) : Prop :=
  ∃ blocks, Block.ofLines lines = .ok ([], blocks) ∧ blocks.map Block.entity = entities

/-- Lines that say the same declare the same entities. -/
theorem Entity.declaredBy_congr {lines others : List SourceLine}
    (alike : List.Forall₂ SourceLine.Alike lines others) {entities : List Entity} :
    DeclaredBy lines entities ↔ DeclaredBy others entities := by
  have transfer : ∀ {lines others : List SourceLine},
      List.Forall₂ SourceLine.Alike lines others →
        DeclaredBy lines entities → DeclaredBy others entities := by
    rintro lines others alike ⟨blocks, cut, rfl⟩
    obtain ⟨twins, copies, found, fields, same⟩ := Block.exists_ofLines_of_alike alike cut
    obtain rfl : twins = [] := List.map_eq_nil_iff.1 fields
    exact ⟨copies, found, same⟩
  constructor
  · exact transfer alike
  · exact transfer (alike.imp fun _ _ => SourceLine.Alike.symm).flip

end EntitySchema
