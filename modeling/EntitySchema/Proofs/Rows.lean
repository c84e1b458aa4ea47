import EntitySchema.Proofs.Integrity
import EntitySchema.Proofs.Name.Plurals
import EntitySchema.Proofs.RoundTrip
import EntitySchema.Report.Rows

/-! # Rows that are read again

Every row of an accepted source stands on a line of its own, and all of its columns but the type of
a field are words. So the columns are found again between the tabs of the line, unless the type of a
field has a tab itself: then the line of that field has a column too many for each such tab. -/

namespace EntitySchema

open Text

namespace Row

variable {row : Row}

/-! ## Lines and columns -/

/-- The columns of a row with tabs between them. -/
def line (row : Row) : Text := ['\t'].intercalate (row.map String.toList)

/-- The row whose columns stand between the tabs of a line. -/
def ofLine (text : Text) : Row := (text.splitOn '\t').map String.ofList

/-- The rows on the lines of a text in which every line is ended by a newline. -/
def readAll (text : String) : List Row := (text.toList.splitOn '\n').dropLast.map ofLine

/-- Whether a row has as many columns as its kind asks for, the name of the kind included. -/
def Fits : Row → Prop
  | "entity" :: others | "field" :: others => others.length = 4
  | "relation" :: others | "link" :: others => others.length = 3
  | _ => False

/-- A row is rendered as its line, ended by a newline. -/
theorem toList_render (row : Row) : row.render.toList = row.line ++ ['\n'] := by
  have newline : "\n".toList = ['\n'] := rfl
  have tab : "\t".toList = ['\t'] := rfl
  rw [render, String.toList_append, String.toList_intercalate, newline, tab, line]

/-- A row is found again on its line when no column has a tab. -/
theorem ofLine_line_iff (nonempty : row ≠ []) :
    ofLine row.line = row ↔ ∀ column ∈ row, '\t' ∉ column.toList := by
  constructor
  · intro same column inside
    rw [← same, ofLine, List.mem_map] at inside
    obtain ⟨part, member, rfl⟩ := inside
    rw [String.toList_ofList]
    exact not_mem_of_mem_splitOn member
  · intro plain
    have parts : row.line.splitOn '\t' = row.map String.toList := by
      apply List.splitOn_intercalate
      · rw [List.forall_mem_map]
        exact plain
      · simpa using nonempty
    rw [ofLine, parts, List.map_map]
    exact (List.map_congr_left fun column _ => String.ofList_toList).trans (List.map_id row)

/-- A row stands on one line when no column has a newline. -/
theorem newline_not_mem_line (h : ∀ column ∈ row, '\n' ∉ column.toList) : '\n' ∉ row.line := by
  intro inside
  rcases of_mem_intercalate inside with mark | ⟨part, member, inside⟩
  · cases mark
  · obtain ⟨column, listed, rfl⟩ := List.mem_map.1 member
    exact h column listed inside

/-! ## Words -/

/-- Whether a column is made of identifier characters. -/
def IsWord (column : String) : Prop := ∀ c ∈ column.toList, isIdentifierChar c = true

/-- An identifier is a word. -/
theorem isWord_of_isIdentifier {name : String} (h : isIdentifier name = true) : IsWord name :=
  (isIdentifier_iff.1 h).2

/-- The digits of a number are a word. -/
theorem isWord_toString (number : Nat) : IsWord (toString number) := by
  intro c inside
  have digits : (toString number).toList = Nat.toDigits 10 number := Nat.toList_repr
  rw [digits] at inside
  have digit := Nat.isDigit_of_mem_toDigits (by decide) (by decide) inside
  change (c.isUpper || c.isLower || c.isDigit || c == '_') = true
  simp [digit]

/-- A word has none of the marks between columns and rows. -/
theorem IsWord.not_mem {column : String} (h : IsWord column) {mark : Char}
    (other : isIdentifierChar mark = false) : mark ∉ column.toList := by
  intro inside
  rw [h mark inside] at other
  cases other

/-- A row of words is found again on its line. -/
theorem ofLine_line_of_isWord (nonempty : row ≠ []) (h : ∀ column ∈ row, IsWord column) :
    ofLine row.line = row :=
  (ofLine_line_iff nonempty).2 fun column inside => (h column inside).not_mem (by decide)

end Row

/-! ## The columns of each kind of row -/

/-- The row of an entity whose table has the derived name is made of words. -/
theorem Entity.isWord_of_mem_headRow {entity : Entity}
    (derived : entity.tableName = entity.name.tableName) :
    ∀ column ∈ entity.headRow, Row.IsWord column := by
  have stamp : Row.IsWord (if entity.timestamps then "true" else "false") := by
    split <;> exact Row.isWord_of_isIdentifier (by decide)
  have table : Row.IsWord entity.tableName := by
    rw [derived]
    exact entity.name.isIdentifierChar_of_mem_tableName
  simp only [headRow, List.forall_mem_cons]
  exact ⟨Row.isWord_of_isIdentifier (by decide), Row.isWord_of_isIdentifier entity.name.valid,
    table, Row.isWord_toString _, stamp, List.forall_mem_nil _⟩

/-- The row of a relation is made of words. -/
theorem isWord_of_mem_relationRow (entity : EntityName) (relation : RelationKind × EntityName) :
    ∀ column ∈ relationRow entity relation, Row.IsWord column := by
  have kind : isIdentifier relation.1.name = true := by cases relation.1 <;> decide
  simp only [relationRow, List.forall_mem_cons]
  exact ⟨Row.isWord_of_isIdentifier (by decide), Row.isWord_of_isIdentifier entity.valid,
    Row.isWord_of_isIdentifier kind, Row.isWord_of_isIdentifier relation.2.valid,
    List.forall_mem_nil _⟩

/-- The row of a link table with the derived name is made of words. -/
theorem LinkTable.isWord_of_mem_row (owner target : EntityName) :
    ∀ column ∈ (between owner target).row, Row.IsWord column := by
  simp only [row, List.forall_mem_cons]
  exact ⟨Row.isWord_of_isIdentifier (by decide),
    Row.isWord_of_isIdentifier (isIdentifier_tableName_between owner target),
    Row.isWord_of_isIdentifier owner.valid, Row.isWord_of_isIdentifier target.valid,
    List.forall_mem_nil _⟩

/-- The row of a field has a mark only when its type has it. -/
theorem Field.not_mem_row_iff (entity : EntityName) (field : Field) {mark : Char}
    (other : isIdentifierChar mark = false) :
    (∀ column ∈ field.row entity, mark ∉ column.toList) ↔ mark ∉ field.type.toList := by
  have word : ∀ {name : String}, isIdentifier name = true → mark ∉ name.toList :=
    fun h => (Row.isWord_of_isIdentifier h).not_mem other
  have origin : isIdentifier field.origin.name = true := by cases field.origin <;> decide
  simp only [row, List.forall_mem_cons]
  constructor
  · exact fun h => h.2.2.2.1
  · exact fun h => ⟨word (by decide), word entity.valid, word field.name.valid, h, word origin,
      List.forall_mem_nil _⟩

/-- The line of a field has its five columns, and one more for each tab in its type. -/
theorem Field.length_ofLine_row (entity : EntityName) (field : Field) :
    (Row.ofLine (field.row entity).line).length = 5 + field.type.toList.count '\t' := by
  have word : ∀ {name : String}, isIdentifier name = true → name.toList.count '\t' = 0 :=
    fun h => List.count_eq_zero.2 ((Row.isWord_of_isIdentifier h).not_mem (by decide))
  have origin : isIdentifier field.origin.name = true := by cases field.origin <;> decide
  have tag : isIdentifier "field" = true := by decide
  simp only [Row.ofLine, List.length_map, length_splitOn, Row.line, row, List.map_cons,
    List.map_nil, intercalate_cons, List.flatMap_cons, List.flatMap_nil, List.count_append,
    List.count_cons_self, List.count_nil, word tag, word entity.valid, word field.name.valid,
    word origin]
  omega

/-- What holds of all rows of an entity holds of its own row and of those of its fields and
relations. -/
theorem Entity.forall_mem_rows_iff {entity : Entity} {P : Row → Prop} :
    (∀ row ∈ entity.rows, P row) ↔ P entity.headRow ∧
      (∀ field ∈ entity.fields, P (field.row entity.name)) ∧
      ∀ relation ∈ entity.relations, P (relationRow entity.name relation) := by
  rw [rows, List.forall_mem_cons, List.forall_mem_append, List.forall_mem_map, List.forall_mem_map]

/-! ## The rows of a schema -/

namespace Schema

variable {schema : Schema}

/-- Whether the names in a schema are derived and its types stand on one line, as in the schema of a
source. -/
structure Derived (schema : Schema) : Prop where
  /-- Tables have the names that are derived from their entities. -/
  tableName_eq : ∀ entity ∈ schema.entities, entity.tableName = entity.name.tableName
  /-- No type goes over the end of a line. -/
  newline_not_mem : ∀ entity ∈ schema.entities, ∀ field ∈ entity.fields,
    '\n' ∉ field.type.toList
  /-- Link tables are derived from two entities. -/
  links : ∀ link ∈ schema.links, ∃ owner target, link = LinkTable.between owner target

/-- The schema of a source has derived names, and types that stand on one line. -/
theorem derived_of_ofSource {policy : DuplicatePolicy} {source : String}
    (h : ofSource policy source = .ok schema) : schema.Derived := by
  obtain ⟨entities, declared, rfl, -⟩ := exists_ofSource_printed h
  refine ⟨fun entity inside => ?_, fun entity inside field listed => ?_, fun link inside => ?_⟩
  · obtain ⟨own, member, rfl⟩ := exists_of_mem_entities_ofDeclared inside
    exact (declared own member).tableName_eq
  · obtain ⟨own, member, rfl⟩ := exists_of_mem_entities_ofDeclared inside
    rcases List.mem_append.1 listed with written | added
    · refine ((declared own member).fields field written).2 field.type ?_
      exact List.mem_cons_self
    · -- a foreign key is an integer
      obtain ⟨column, -, rfl⟩ := List.mem_map.1 added
      have plain : '\n' ∉ Field.integerType.toList := by decide
      exact plain
  · obtain ⟨entity, -, made⟩ := List.mem_flatMap.1 inside
    obtain ⟨target, -, rfl⟩ := List.mem_map.1 made
    exact ⟨entity.name, target, rfl⟩

/-- What holds of all rows holds of the rows of each entity and of the link tables. -/
theorem forall_mem_rows_iff {P : Row → Prop} :
    (∀ row ∈ schema.rows, P row) ↔
      (∀ entity ∈ schema.entities, P entity.headRow ∧
        (∀ field ∈ entity.fields, P (field.row entity.name)) ∧
        ∀ relation ∈ entity.relations, P (relationRow entity.name relation)) ∧
      ∀ link ∈ schema.links, P link.row := by
  rw [rows, List.forall_mem_append, List.forall_mem_map, List.forall_mem_flatMap]
  simp only [Entity.forall_mem_rows_iff]

/-- Every row has as many columns as its kind asks for. -/
theorem fits_of_mem_rows (schema : Schema) : ∀ row ∈ schema.rows, row.Fits :=
  forall_mem_rows_iff.2 ⟨fun _ _ => ⟨rfl, fun _ _ => rfl, fun _ _ => rfl⟩, fun _ _ => rfl⟩

/-- A mark that stands between columns or rows is found in a row only when it is in the type of a
field. -/
theorem Derived.not_mem_rows_iff (h : schema.Derived) {mark : Char}
    (other : isIdentifierChar mark = false) :
    (∀ row ∈ schema.rows, ∀ column ∈ row, mark ∉ column.toList) ↔
      ∀ entity ∈ schema.entities, ∀ field ∈ entity.fields, mark ∉ field.type.toList := by
  rw [forall_mem_rows_iff]
  constructor
  · intro rows entity inside field listed
    have row := (rows.1 entity inside).2.1 field listed
    exact (Field.not_mem_row_iff entity.name field other).1 row
  · intro types
    refine ⟨fun entity inside => ⟨?_, fun field listed => ?_, fun relation _ => ?_⟩,
      fun link inside => ?_⟩
    · exact fun column member =>
        (Entity.isWord_of_mem_headRow (h.tableName_eq entity inside) column member).not_mem other
    · exact (Field.not_mem_row_iff entity.name field other).2 (types entity inside field listed)
    · exact fun column member =>
        (isWord_of_mem_relationRow entity.name relation column member).not_mem other
    · obtain ⟨owner, target, rfl⟩ := h.links link inside
      exact fun column member =>
        (LinkTable.isWord_of_mem_row owner target column member).not_mem other

/-- Every row stands on a line of its own, in order. -/
theorem Derived.splitOn_renderRows (h : schema.Derived) :
    schema.renderRows.toList.splitOn '\n' = schema.rows.map Row.line ++ [[]] := by
  -- no column has a newline, so the text is cut at the end of a row and nowhere else
  have newlines := (h.not_mem_rows_iff (by decide)).2 h.newline_not_mem
  have lines : schema.renderRows.toList = (schema.rows.map Row.line).flatMap (· ++ ['\n']) := by
    rw [renderRows, String.toList_join, List.flatMap_map, List.flatMap_map]
    simp only [Row.toList_render]
  rw [lines]
  apply splitOn_flatMap_append
  rw [List.forall_mem_map]
  exact fun row inside => Row.newline_not_mem_line (newlines row inside)

/-- The rows are read again exactly when each of them is found again on its line. -/
theorem Derived.readAll_renderRows_iff (h : schema.Derived) :
    Row.readAll schema.renderRows = schema.rows ↔
      ∀ entity ∈ schema.entities, ∀ field ∈ entity.fields, '\t' ∉ field.type.toList := by
  rw [← h.not_mem_rows_iff (by decide), Row.readAll, h.splitOn_renderRows, List.dropLast_concat,
    List.map_map]
  nth_rewrite 2 [← List.map_id schema.rows]
  rw [List.map_inj_left]
  refine forall₂_congr fun row inside => Row.ofLine_line_iff ?_
  rintro rfl
  exact (fits_of_mem_rows schema [] inside).elim

/-- The rows of an accepted source stand on lines of their own, in order, and each has the columns
that its kind asks for. Between the tabs of its line every row of an entity, of a relation or of a
link table is found again; the line of a field has one column too many for each tab in the type. So
the rows are read again from the whole text exactly when no type has a tab. -/
theorem renderRows_of_ofSource {policy : DuplicatePolicy} {source : String}
    (h : ofSource policy source = .ok schema) :
    schema.renderRows.toList.splitOn '\n' = schema.rows.map Row.line ++ [[]] ∧
      (∀ row ∈ schema.rows, row.Fits) ∧
      (∀ entity ∈ schema.entities,
        Row.ofLine entity.headRow.line = entity.headRow ∧
        (∀ field ∈ entity.fields,
          (Row.ofLine (field.row entity.name).line).length =
            5 + field.type.toList.count '\t' ∧
          (Row.ofLine (field.row entity.name).line = field.row entity.name ↔
            '\t' ∉ field.type.toList)) ∧
        ∀ relation ∈ entity.relations,
          Row.ofLine (relationRow entity.name relation).line = relationRow entity.name relation) ∧
      (∀ link ∈ schema.links, Row.ofLine link.row.line = link.row) ∧
      (Row.readAll schema.renderRows = schema.rows ↔
        ∀ entity ∈ schema.entities, ∀ field ∈ entity.fields, '\t' ∉ field.type.toList) := by
  have derived := derived_of_ofSource h
  refine ⟨derived.splitOn_renderRows, fits_of_mem_rows schema, fun entity inside => ⟨?_,
    fun field _ => ⟨field.length_ofLine_row entity.name, ?_⟩, fun relation _ => ?_⟩,
    fun link inside => ?_, derived.readAll_renderRows_iff⟩
  · exact Row.ofLine_line_of_isWord (List.cons_ne_nil _ _)
      (Entity.isWord_of_mem_headRow (derived.tableName_eq entity inside))
  · exact (Row.ofLine_line_iff (List.cons_ne_nil _ _)).trans
      (Field.not_mem_row_iff entity.name field (by decide))
  · exact Row.ofLine_line_of_isWord (List.cons_ne_nil _ _)
      (isWord_of_mem_relationRow entity.name relation)
  · obtain ⟨owner, target, rfl⟩ := derived.links link inside
    exact Row.ofLine_line_of_isWord (List.cons_ne_nil _ _)
      (LinkTable.isWord_of_mem_row owner target)

/-- The rows of a field with a blank in its type and of a link table are read again. -/
theorem renderRows_of_ofSource_user :
    let user : EntityName := ⟨"User", by decide⟩
    let tag : EntityName := ⟨"Tag", by decide⟩
    let name : Field := { name := ⟨"name", by decide⟩, type := "char varying" }
    let schema : Schema :=
      ⟨[{ Entity.named user with fields := [name], hasManyAndBelongsTo := [tag] },
        Entity.named tag], [.between user tag]⟩
    ofSource .reject "User Tag:hmb\n  name:char varying\nTag" = .ok schema ∧
      Row.readAll schema.renderRows = schema.rows := by
  intro user tag name schema
  have h : ofSource .reject "User Tag:hmb\n  name:char varying\nTag" = .ok schema := by
    decide +kernel
  exact ⟨h, (renderRows_of_ofSource h).2.2.2.2.2 (by decide)⟩

/-- With a tab in the type of its field, a source is accepted under both policies, and the line of
the field is read as six columns. -/
theorem readAll_renderRows_tab :
    let name : Field := { name := ⟨"name", by decide⟩, type := "foo\tbar" }
    let schema : Schema := ⟨[{ Entity.named ⟨"User", by decide⟩ with fields := [name] }], []⟩
    (∀ policy, ofSource policy "User\n  name:foo\tbar" = .ok schema) ∧
      Row.readAll schema.renderRows = [["entity", "User", "users", "1", "false"],
        ["field", "User", "name", "foo", "bar", "declared"]] ∧
      Row.readAll schema.renderRows ≠ schema.rows := by
  intro name schema
  refine ⟨fun policy => ?_, by decide +kernel, by decide +kernel⟩
  cases policy <;> decide +kernel

end Schema

end EntitySchema
