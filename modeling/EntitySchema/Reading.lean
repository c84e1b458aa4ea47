import EntitySchema.Declarations
import EntitySchema.Source.FieldLine
import EntitySchema.Source.Header

/-! # Reading a source

A source is read line by line. A header opens an entity, and field lines add to the entity that is
open. Each line either takes the reading one step further or is refused, and a refused line leaves
nothing behind. When the source ends, the declarations are resolved. -/

namespace EntitySchema

/-- What happens when a header names an entity that is declared already. -/
inductive DuplicatePolicy where
  /-- The new declaration takes over the name and the place of the earlier one. -/
  | replace
  /-- The new declaration is an error. -/
  | reject
  deriving DecidableEq, Repr

namespace DuplicatePolicy

/-- The word for a policy. -/
def name : DuplicatePolicy → String
  | .replace => "replace"
  | .reject => "reject"

/-- The policy with exactly the given word. -/
def ofName? : String → Option DuplicatePolicy
  | "replace" => some .replace
  | "reject" => some .reject
  | _ => none

/-- The wording of the refusal of any other word. -/
def unknownMessage (word : String) : String :=
  s!"unknown duplicate entity policy '{word}': expected replace or reject"

/-- A policy is found by its own word. -/
@[simp] theorem ofName?_name (policy : DuplicatePolicy) : ofName? policy.name = some policy := by
  cases policy <;> rfl

end DuplicatePolicy

/-- How far the reading of a source has come. -/
structure Reading where
  /-- The slot of the open entity, once a header was read. -/
  current : Option Nat := none
  /-- What was declared so far. -/
  declarations : Declarations := {}
  deriving DecidableEq, Repr

/-- A step of reading, which may stop with an error; the reading outlives the error. -/
abbrev ReadingStep := ExceptT SourceError (StateM Reading)

namespace Reading

/-- The reading of a source of which no line was read. -/
def start : Reading := {}

/-- Whether an entity is open. -/
def hasOpenEntity (reading : Reading) : Bool := reading.current.isSome

/-- The reading with the entity in a slot changed. -/
def changeAt (slot : Nat) (change : Entity → Entity) (reading : Reading) : Reading :=
  let declarations := reading.declarations
  { reading with
    declarations := { declarations with
      entities := declarations.entities.modifyAt slot change } }

/-- The reading with a relation of the named entity among the pending columns and link tables. -/
def declareRelation (owner : EntityName) (relation : RelationWord) (reading : Reading) : Reading :=
  let declarations := reading.declarations
  let pending :=
    if relation.kind.needsForeignKey then
      (declarations.pending.register relation.target (FieldName.foreignKeyFor owner)).2
    else declarations.pending
  let links :=
    if relation.kind = .hasManyAndBelongsTo then
      declarations.links ++ [LinkTable.between owner relation.target]
    else declarations.links
  { reading with declarations := { declarations with pending, links } }

/-- The reading with an entity put into the table and opened. -/
def openEntity (entity : Entity) (reading : Reading) : Reading :=
  let (slot, entities) := reading.declarations.entities.insert entity
  ⟨some slot, { reading.declarations with entities }⟩

/-- Reads a field line, which adds to the open entity. -/
def feedField (line : SourceLine) : ReadingStep Unit := do
  let orphan : SourceError := ⟨.orphanField, line.number, line.contentSpan⟩
  let some slot := (← get).current | throw orphan
  let parsed ← FieldLine.ofLine line
  let some entity := (← get).declarations.entities.at? slot | throw orphan
  match parsed with
  | .timestamps => modify (changeAt slot .withTimestamps)
  | .column field span =>
    if entity.hasField field.name then
      throw ⟨.duplicateField entity.name.text field.name.text, line.number, span⟩
    modify (changeAt slot (·.addField field))

/-- Reads a header line, which opens an entity. -/
def feedHeader (policy : DuplicatePolicy) (line : SourceLine) : ReadingStep Unit := do
  let header ← Header.ofLine line
  if policy = .reject && (← get).declarations.entities.contains header.name.text then
    throw ⟨.duplicateEntity header.name.text, line.number, header.nameSpan⟩
  header.relations.forM fun relation => modify (declareRelation header.name relation)
  modify (openEntity header.entity)

/-- Reads one physical line; a blank line changes nothing. -/
def feed (policy : DuplicatePolicy) (line : SourceLine) : ReadingStep Unit :=
  if line.isBlank then pure ()
  else match line.kind with
    | .field => feedField line
    | .header => feedHeader policy line

/-! ## What a step does to a reading

A step gives an outcome and the reading that it leaves. Where the outcome of a line is an error, the
reading is the one before the line. -/

/-- After an outcome the next step goes on with the reading that was left; an error is the end. -/
theorem run_bind {α β : Type} (first : ReadingStep α) (next : α → ReadingStep β)
    (reading : Reading) :
    (first >>= next).run.run reading =
      match first.run.run reading with
      | (.ok value, left) => (next value).run.run left
      | (.error error, left) => (.error error, left) := by
  rw [ExceptT.run_bind, StateT.run_bind]
  rcases first.run.run reading with ⟨_ | value, left⟩ <;> rfl

/-- A step that looks at the reading goes on with it unchanged. -/
theorem run_get_bind {α : Type} (next : Reading → ReadingStep α) (reading : Reading) :
    (get >>= next).run.run reading = (next reading).run.run reading := rfl

/-- A value that was read without looking at the reading leaves it unchanged. -/
theorem run_ok_bind {α β : Type} (value : α) (next : α → ReadingStep β) (reading : Reading) :
    ((liftM (Except.ok value : Except SourceError α) : ReadingStep α) >>= next).run.run reading
      = (next value).run.run reading := rfl

/-- Changing a reading once for each item gives what a fold over the items gives. -/
theorem run_forM_modify {α : Type} (change : α → Reading → Reading) (items : List α)
    (reading : Reading) :
    (items.forM fun item => (modify (change item) : ReadingStep Unit)).run.run reading
      = (.ok (), items.foldl (fun reading item => change item reading) reading) := by
  induction items generalizing reading with
  | nil => rfl
  | cons item rest ih => exact ih (change item reading)

/-- A field line is refused without an open entity, by its own grammar, or as a repeated field. -/
theorem run_feedField (line : SourceLine) (reading : Reading) :
    (feedField line).run.run reading =
      match reading.current with
      | none => (.error ⟨.orphanField, line.number, line.contentSpan⟩, reading)
      | some slot =>
        match FieldLine.ofLine line with
        | .error error => (.error error, reading)
        | .ok parsed =>
          match reading.declarations.entities.at? slot with
          | none => (.error ⟨.orphanField, line.number, line.contentSpan⟩, reading)
          | some entity =>
            match parsed with
            | .timestamps => (.ok (), reading.changeAt slot .withTimestamps)
            | .column field span =>
              if entity.hasField field.name then
                (.error ⟨.duplicateField entity.name.text field.name.text, line.number, span⟩,
                  reading)
              else (.ok (), reading.changeAt slot (·.addField field)) := by
  unfold feedField
  rw [run_get_bind]
  cases reading.current with
  | none => rfl
  | some slot =>
    dsimp only
    cases FieldLine.ofLine line with
    | error error => rfl
    | ok parsed =>
      rw [run_ok_bind, run_get_bind]
      cases reading.declarations.entities.at? slot with
      | none => rfl
      | some entity =>
        cases parsed with
        | timestamps => rfl
        | column field span => dsimp only; split <;> rfl

/-- A header line is refused by its own grammar, or as a repeated entity; otherwise its relations
are declared one by one before its entity is opened. -/
theorem run_feedHeader (policy : DuplicatePolicy) (line : SourceLine) (reading : Reading) :
    (feedHeader policy line).run.run reading =
      match Header.ofLine line with
      | .error error => (.error error, reading)
      | .ok header =>
        if policy = .reject ∧ reading.declarations.entities.contains header.name.text = true then
          (.error ⟨.duplicateEntity header.name.text, line.number, header.nameSpan⟩, reading)
        else
          (.ok (), openEntity header.entity (header.relations.foldl
            (fun reading relation => declareRelation header.name relation reading) reading)) := by
  unfold feedHeader
  cases Header.ofLine line with
  | error error => rfl
  | ok header =>
    rw [run_ok_bind]
    dsimp only
    rw [run_get_bind]
    simp only [Bool.and_eq_true, decide_eq_true_eq]
    split
    · rfl
    · rw [run_bind, run_forM_modify]
      rfl

/-- Reads lines until the first that is refused. -/
def feedAll (policy : DuplicatePolicy) (lines : List SourceLine) : ReadingStep Unit :=
  lines.forM (feed policy)

/-- The outcome of one physical line and the reading after it. -/
def step (policy : DuplicatePolicy) (reading : Reading) (line : SourceLine) :
    Except SourceError Unit × Reading :=
  (feed policy line).run.run reading

/-- Lines are read up to the first that is refused. -/
theorem run_feedAll_cons (policy : DuplicatePolicy) (reading : Reading) (line : SourceLine)
    (lines : List SourceLine) :
    (feedAll policy (line :: lines)).run.run reading =
      match step policy reading line with
      | (.ok (), middle) => (feedAll policy lines).run.run middle
      | (.error error, left) => (.error error, left) := by
  have unfolded : feedAll policy (line :: lines) = feed policy line >>= fun _ =>
      feedAll policy lines := rfl
  rw [unfolded, run_bind, ← step]
  rcases step policy reading line with ⟨_ | _, left⟩ <;> rfl

end Reading

/-- The schema that a source declares, or its first error. -/
def Schema.ofSource (policy : DuplicatePolicy) (source : String) : Except SourceError Schema :=
  let text := source.toList
  match (Reading.feedAll policy (SourceLine.all text)).run.run .start with
  | (.error error, _) => .error error
  | (.ok (), reading) => reading.declarations.resolve (.ofSource text)

end EntitySchema
