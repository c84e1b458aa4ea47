import EntitySchema.Proofs.AlikeLines

/-! # Sections of a source

A *section* is a header line with all lines up to the next header line, as they stand in the source.
What a section declares depends on no other section, so the sections of a source declare one entity
each, whatever their order. -/

namespace EntitySchema

/-! ## Cutting lines into sections -/

namespace SourceLine

/-- Whether a line stands at the margin and is not blank. -/
def isHeader (line : SourceLine) : Bool := !line.isBlank && line.kind = .header

/-- The lines before the first header line, and for each header line that line with all lines up to
the next. -/
def sections : List SourceLine → List SourceLine × List (List SourceLine)
  | [] => ([], [])
  | line :: rest =>
    let (front, later) := sections rest
    if line.isHeader then ([], (line :: front) :: later) else (line :: front, later)

/-- Whether lines are a header line and other lines after it. -/
def IsSection (lines : List SourceLine) : Prop :=
  ∃ header body, lines = header :: body ∧ header.isHeader = true ∧
    ∀ line ∈ body, line.isHeader = false

variable {line : SourceLine} {lines rest : List SourceLine}

/-- A header line stands at the margin, and is not blank. -/
theorem isHeader_iff : line.isHeader = true ↔ line.isBlank = false ∧ line.kind = .header := by
  simp [isHeader]

/-- A header line begins a section, with the lines before the next header line. -/
theorem sections_cons_of_isHeader (h : line.isHeader = true) :
    sections (line :: rest) = ([], (line :: (sections rest).1) :: (sections rest).2) := by
  simp [sections, h]

/-- Any other line stands before the next header line. -/
theorem sections_cons_of_not_isHeader (h : line.isHeader = false) :
    sections (line :: rest) = (line :: (sections rest).1, (sections rest).2) := by
  simp [sections, h]

/-- No line is lost, and the lines keep their order. -/
theorem append_flatten_sections (lines : List SourceLine) :
    (sections lines).1 ++ (sections lines).2.flatten = lines := by
  induction lines with
  | nil => rfl
  | cons line rest ih =>
    cases header : line.isHeader with
    | true =>
      rw [sections_cons_of_isHeader header, List.flatten_cons, List.nil_append, List.cons_append,
        ih]
    | false => rw [sections_cons_of_not_isHeader header, List.cons_append, ih]

/-- The lines before the first header line are no header lines. -/
theorem not_isHeader_of_mem_sections (lines : List SourceLine) :
    ∀ line ∈ (sections lines).1, line.isHeader = false := by
  induction lines with
  | nil => exact List.forall_mem_nil _
  | cons line rest ih =>
    cases header : line.isHeader with
    | true =>
      rw [sections_cons_of_isHeader header]
      exact List.forall_mem_nil _
    | false =>
      rw [sections_cons_of_not_isHeader header, List.forall_mem_cons]
      exact ⟨header, ih⟩

/-- Lines are cut into sections. -/
theorem isSection_of_mem_sections (lines : List SourceLine) :
    ∀ group ∈ (sections lines).2, IsSection group := by
  induction lines with
  | nil => exact List.forall_mem_nil _
  | cons line rest ih =>
    cases header : line.isHeader with
    | true =>
      rw [sections_cons_of_isHeader header, List.forall_mem_cons]
      exact ⟨⟨line, _, rfl, header, not_isHeader_of_mem_sections rest⟩, ih⟩
    | false =>
      rw [sections_cons_of_not_isHeader header]
      exact ih

/-- When the first line that is not blank is a header line, nothing but blank lines stands before
the first section. -/
theorem isBlank_of_mem_sections
    (first : ∀ line ∈ lines.find? (!·.isBlank), line.kind = .header) :
    ∀ line ∈ (sections lines).1, line.isBlank = true := by
  induction lines with
  | nil => exact List.forall_mem_nil _
  | cons line rest ih =>
    cases blank : line.isBlank with
    | true =>
      have passed : line.isHeader = false := by simp [isHeader, blank]
      rw [List.find?_cons_of_neg (by simp [blank])] at first
      rw [sections_cons_of_not_isHeader passed, List.forall_mem_cons]
      exact ⟨blank, ih first⟩
    | false =>
      rw [List.find?_cons_of_pos (by simp [blank])] at first
      rw [sections_cons_of_isHeader (isHeader_iff.2 ⟨blank, first line rfl⟩)]
      exact List.forall_mem_nil _

end SourceLine

/-! ## What sections declare -/

namespace Block

variable {front rest : List SourceLine} {loose : List FieldLine} {blocks : List Block}

/-- Blank lines at the front are passed over. -/
theorem ofLines_append_of_isBlank (blank : ∀ line ∈ front, line.isBlank = true) :
    ofLines (front ++ rest) = ofLines rest := by
  induction front with
  | nil => rfl
  | cons line others ih =>
    rw [List.forall_mem_cons] at blank
    rw [List.cons_append, ofLines_cons_of_isBlank blank.1, ih blank.2]

/-- Lines without a header line are cut into field lines, which stand before those of the rest. -/
theorem ofLines_append_of_not_isHeader (plain : ∀ line ∈ front, line.isHeader = false) :
    ofLines (front ++ rest) = .ok (loose, blocks) ↔
      ∃ own others, ofLines front = .ok (own, []) ∧ ofLines rest = .ok (others, blocks) ∧
        loose = own ++ others := by
  induction front generalizing loose with
  | nil =>
    constructor
    · exact fun cut => ⟨[], loose, rfl, cut, rfl⟩
    · rintro ⟨own, others, none, cut, rfl⟩
      cases none
      exact cut
  | cons line lines ih =>
    rw [List.forall_mem_cons] at plain
    rw [List.cons_append]
    cases blank : line.isBlank with
    | true => rw [ofLines_cons_of_isBlank blank, ofLines_cons_of_isBlank blank, ih plain.2]
    | false =>
      have kind : line.kind = .field := by
        cases kind : line.kind with
        | field => rfl
        | header => exact absurd (SourceLine.isHeader_iff.2 ⟨blank, kind⟩) (by simp [plain.1])
      simp only [ofLines_cons_of_field blank kind, ih plain.2]
      constructor
      · rintro ⟨content, _, read, ⟨own, others, cut, after, rfl⟩, rfl⟩
        exact ⟨content :: own, others, ⟨content, own, read, cut, rfl⟩, after, rfl⟩
      · rintro ⟨_, others, ⟨content, own, read, cut, rfl⟩, after, rfl⟩
        exact ⟨content, own ++ others, read, ⟨own, others, cut, after, rfl⟩, rfl⟩

/-- No field line stands before the first of some sections. -/
theorem eq_nil_of_ofLines_flatten {groups : List (List SourceLine)}
    (cut : ∀ group ∈ groups, SourceLine.IsSection group)
    (h : ofLines groups.flatten = .ok (loose, blocks)) : loose = [] := by
  cases groups with
  | nil =>
    cases h
    rfl
  | cons group others =>
    obtain ⟨header, body, rfl, isHeader, -⟩ := cut group List.mem_cons_self
    obtain ⟨blank, kind⟩ := SourceLine.isHeader_iff.1 isHeader
    rw [List.flatten_cons, List.cons_append] at h
    obtain ⟨_, _, _, -, -, none, -⟩ := (ofLines_cons_of_header blank kind).1 h
    exact none

end Block

namespace Entity

variable {entities : List Entity}

/-- A section declares one entity, and the lines after it declare others, when no field line stands
at their front. -/
theorem declaredBy_append_iff {group rest : List SourceLine} (cut : SourceLine.IsSection group)
    (fresh : ∀ loose blocks, Block.ofLines rest = .ok (loose, blocks) → loose = []) :
    DeclaredBy (group ++ rest) entities ↔
      ∃ entity others, DeclaredBy group [entity] ∧ DeclaredBy rest others ∧
        entities = entity :: others := by
  obtain ⟨header, body, rfl, isHeader, plain⟩ := cut
  obtain ⟨blank, kind⟩ := SourceLine.isHeader_iff.1 isHeader
  rw [List.cons_append]
  constructor
  · rintro ⟨_, cut, rfl⟩
    obtain ⟨header, _, others, read, later, -, rfl⟩ :=
      (Block.ofLines_cons_of_header blank kind).1 cut
    obtain ⟨own, loose, inside, after, rfl⟩ :=
      (Block.ofLines_append_of_not_isHeader plain).1 later
    -- the field lines up to the next header line are all in the section
    obtain rfl := fresh loose others after
    refine ⟨Block.entity ⟨header, own⟩, others.map Block.entity, ⟨[⟨header, own⟩], ?_, rfl⟩,
      ⟨others, after, rfl⟩, ?_⟩
    · exact (Block.ofLines_cons_of_header blank kind).2
        ⟨header, own, [], read, inside, rfl, rfl⟩
    · rw [List.map_cons, List.append_nil]
  · rintro ⟨entity, _, ⟨blocks, cut, same⟩, ⟨others, after, rfl⟩, rfl⟩
    obtain ⟨block, rfl, rfl⟩ := List.map_eq_singleton_iff.1 same
    obtain ⟨header, own, none, read, inside, -, single⟩ :=
      (Block.ofLines_cons_of_header blank kind).1 cut
    -- the section is one block, so its body begins no other
    obtain ⟨rfl, rfl⟩ := List.cons.inj single
    have later : Block.ofLines (body ++ rest) = .ok (own, others) :=
      (Block.ofLines_append_of_not_isHeader plain).2
        ⟨own, [], inside, after, (List.append_nil own).symm⟩
    refine ⟨⟨header, own⟩ :: others, ?_, rfl⟩
    exact (Block.ofLines_cons_of_header blank kind).2
      ⟨header, own, others, read, later, rfl, rfl⟩

/-- Whether each of some sections declares the entity that stands in its place. -/
def DeclaredByEach (groups : List (List SourceLine)) (entities : List Entity) : Prop :=
  List.Forall₂ (fun group entity => DeclaredBy group [entity]) groups entities

/-- Sections that are put together declare what each of them declares. -/
theorem declaredBy_flatten_iff {groups : List (List SourceLine)}
    (cut : ∀ group ∈ groups, SourceLine.IsSection group) :
    DeclaredBy groups.flatten entities ↔ DeclaredByEach groups entities := by
  induction groups generalizing entities with
  | nil =>
    rw [DeclaredByEach, List.forall₂_nil_left_iff]
    constructor
    · rintro ⟨blocks, none, rfl⟩
      cases none
      rfl
    · rintro rfl
      exact ⟨[], rfl, rfl⟩
  | cons group others ih =>
    rw [List.forall_mem_cons] at cut
    rw [DeclaredByEach, List.flatten_cons, List.forall₂_cons_left_iff,
      declaredBy_append_iff cut.1 fun _ _ => Block.eq_nil_of_ofLines_flatten cut.2]
    simp only [ih cut.2]
    rfl

/-- Blank lines before sections declare nothing. -/
theorem declaredBy_append_flatten_iff {front : List SourceLine} {groups : List (List SourceLine)}
    (blank : ∀ line ∈ front, line.isBlank = true)
    (cut : ∀ group ∈ groups, SourceLine.IsSection group) :
    DeclaredBy (front ++ groups.flatten) entities ↔ DeclaredByEach groups entities := by
  rw [← declaredBy_flatten_iff cut, DeclaredBy, Block.ofLines_append_of_isBlank blank, DeclaredBy]

end Entity

/-! ## Sections in another order -/

/-- The text of a source with its sections replaced by others. -/
def SourceLine.rearranged (source : String) (groups : List (List SourceLine)) : String :=
  joined ((sections (all source.toList)).1 ++ groups.flatten)

variable {source : String} {groups : List (List SourceLine)} {entities : List Entity}

/-- The lines of a source whose sections are rearranged are found again, and say what they said. -/
theorem SourceLine.alike_all_rearranged
    (perm : groups.Perm (sections (all source.toList)).2) :
    List.Forall₂ Alike ((sections (all source.toList)).1 ++ groups.flatten)
      (all (rearranged source groups).toList) := by
  have lines : ((sections (all source.toList)).1 ++ groups.flatten).Perm (all source.toList) := by
    have moved := perm.flatten.append_left (sections (all source.toList)).1
    rwa [append_flatten_sections] at moved
  apply alike_all_joined
  · intro none
    have count := lines.length_eq
    rw [none, length_all, lastNumber] at count
    exact List.splitOn_ne_nil _ _ (List.length_eq_zero_iff.1 count.symm)
  · exact fun line inside => newline_not_mem (lines.mem_iff.1 inside)

/-- A source that begins with a section, but for blank lines, declares what its sections declare. -/
theorem Entity.declaredBy_all_iff
    (first : ∀ line ∈ (SourceLine.all source.toList).find? (!·.isBlank), line.kind = .header) :
    DeclaredBy (SourceLine.all source.toList) entities ↔
      DeclaredByEach (SourceLine.sections (SourceLine.all source.toList)).2 entities := by
  have whole := SourceLine.append_flatten_sections (SourceLine.all source.toList)
  have each : DeclaredBy _ entities ↔ _ :=
    declaredBy_append_flatten_iff (SourceLine.isBlank_of_mem_sections first)
      (SourceLine.isSection_of_mem_sections (SourceLine.all source.toList))
  rwa [whole] at each

/-- Whatever their order, the sections of such a source declare what each of them declares. -/
theorem Entity.declaredBy_all_rearranged_iff
    (first : ∀ line ∈ (SourceLine.all source.toList).find? (!·.isBlank), line.kind = .header)
    (perm : groups.Perm (SourceLine.sections (SourceLine.all source.toList)).2) :
    DeclaredBy (SourceLine.all (SourceLine.rearranged source groups).toList) entities ↔
      DeclaredByEach groups entities := by
  rw [← declaredBy_congr (SourceLine.alike_all_rearranged perm)]
  apply declaredBy_append_flatten_iff (SourceLine.isBlank_of_mem_sections first)
  intro group inside
  exact SourceLine.isSection_of_mem_sections _ group (perm.mem_iff.1 inside)

end EntitySchema
