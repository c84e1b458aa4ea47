import EntitySchema.Proofs.Meaning
import EntitySchema.Proofs.Name.Derived

/-! # The columns of link tables

A link table has a column for each of its two entities, named after the entity in lower case. Unlike
the fields of an entity the two are not compared, so they have one name when an entity is related to
itself, or to an entity whose name differs in case alone. In every other link table the two columns
differ. -/

namespace EntitySchema

/-- The columns of a link table have one name exactly when the names of its entities are the same up
to case. -/
theorem LinkTable.name_ownerColumn_between_eq_iff {owner target : EntityName} :
    (between owner target).ownerColumn.name = (between owner target).targetColumn.name ↔
      SameUpToCase owner.text target.text := by
  rw [FieldName.ext_iff, ← EntityName.foreignKeyColumn_eq_iff]
  rfl

namespace Schema

variable {policy : DuplicatePolicy} {source : String} {schema : Schema}

/-- The link tables of an accepted source are those of the many-to-many relations in its headers. -/
theorem mem_links_iff_of_ofSource (h : ofSource policy source = .ok schema) {link : LinkTable} :
    link ∈ schema.links ↔
      ∃ line ∈ SourceLine.all source.toList, ∃ header, line.header? = some header ∧
        ∃ relation ∈ header.relations, relation.kind = .hasManyAndBelongsTo ∧
          link = .between header.name relation.target := by
  obtain ⟨blocks, cut, -, -, rfl⟩ := ofSource_eq_ok_iff.1 h
  have headers : ∀ header, header ∈ blocks.map Block.header ↔
      ∃ line ∈ SourceLine.all source.toList, line.header? = some header := by
    intro header
    rw [Block.map_header_of_ofLines cut, List.mem_filterMap]
  rw [ofDeclared, Entity.linkTables, List.flatMap_map, List.mem_flatMap]
  constructor
  · rintro ⟨block, inside, listed⟩
    obtain ⟨target, related, rfl⟩ := List.mem_map.1 listed
    obtain ⟨relation, chosen, rfl⟩ := List.mem_map.1 related
    obtain ⟨member, kind⟩ := List.mem_filter.1 chosen
    obtain ⟨line, inSource, found⟩ := (headers block.header).1 (List.mem_map_of_mem inside)
    exact ⟨line, inSource, block.header, found, relation, member, of_decide_eq_true kind, rfl⟩
  · rintro ⟨line, inSource, header, found, relation, member, kind, rfl⟩
    obtain ⟨block, inside, rfl⟩ := List.mem_map.1 ((headers header).2 ⟨line, inSource, found⟩)
    refine ⟨block, inside, List.mem_map_of_mem (List.mem_map_of_mem (List.mem_filter.2 ?_))⟩
    exact ⟨member, decide_eq_true kind⟩

/-- In the schema of an accepted source the two columns of a link table have different names, unless
its two entities have names that are the same up to case. So the columns of all link tables differ
exactly when no header has a many-to-many relation to such a name. -/
theorem name_ownerColumn_ne_iff_of_ofSource (h : ofSource policy source = .ok schema) :
    (∀ link ∈ schema.links, link.ownerColumn.name ≠ link.targetColumn.name ↔
      ¬ SameUpToCase link.owner.text link.target.text) ∧
    ((∀ link ∈ schema.links, link.ownerColumn.name ≠ link.targetColumn.name) ↔
      ∀ line ∈ SourceLine.all source.toList, ∀ header, line.header? = some header →
        ∀ relation ∈ header.relations, relation.kind = .hasManyAndBelongsTo →
          ¬ SameUpToCase header.name.text relation.target.text) := by
  constructor
  · intro link inside
    obtain ⟨line, -, header, -, relation, -, -, rfl⟩ := (mem_links_iff_of_ofSource h).1 inside
    exact not_congr LinkTable.name_ownerColumn_between_eq_iff
  · constructor
    · intro differ line inSource header found relation member kind same
      have inside := (mem_links_iff_of_ofSource h).2
        ⟨line, inSource, header, found, relation, member, kind, rfl⟩
      exact differ _ inside (LinkTable.name_ownerColumn_between_eq_iff.2 same)
    · intro apart link inside
      obtain ⟨line, inSource, header, found, relation, member, kind, rfl⟩ :=
        (mem_links_iff_of_ofSource h).1 inside
      rw [Ne, LinkTable.name_ownerColumn_between_eq_iff]
      exact apart line inSource header found relation member kind

/-- Posts and tags have a link table with two columns, and so have users and teams. -/
theorem name_ownerColumn_ne_iff_of_ofSource_tags :
    ∃ schema, ofSource .reject "Post Tag:hmb user:bt\nUser Team:hmb" = .ok schema ∧
      schema.links.length = 2 ∧
      ∀ link ∈ schema.links, link.ownerColumn.name ≠ link.targetColumn.name := by
  let post : EntityName := ⟨"Post", by decide⟩
  let tag : EntityName := ⟨"Tag", by decide⟩
  let user : EntityName := ⟨"User", by decide⟩
  let team : EntityName := ⟨"Team", by decide⟩
  have h : ofSource .reject "Post Tag:hmb user:bt\nUser Team:hmb" =
      .ok ⟨[{ Entity.named post with
          belongsTo := [⟨"user", by decide⟩], hasManyAndBelongsTo := [tag] },
        { Entity.named user with hasManyAndBelongsTo := [team] }],
        [.between post tag, .between user team]⟩ := by decide +kernel
  refine ⟨_, h, rfl, fun link inside => ?_⟩
  refine ((name_ownerColumn_ne_iff_of_ofSource h).1 link inside).2 ?_
  rcases List.mem_cons.1 inside with rfl | last
  · decide
  · obtain rfl := List.mem_singleton.1 last
    decide

/-- A user that is related to users is accepted under both policies, and its link table has one
column twice. -/
theorem name_ownerColumn_eq_of_ofSource_self :
    let user : EntityName := ⟨"User", by decide⟩
    let link : LinkTable := .between user user
    let schema : Schema := ⟨[{ Entity.named user with hasManyAndBelongsTo := [user] }], [link]⟩
    (∀ policy, ofSource policy "User User:hmb" = .ok schema) ∧
      link ∈ schema.links ∧ link.ownerColumn.name = link.targetColumn.name := by
  intro user link schema
  refine ⟨fun policy => ?_, List.mem_singleton_self link, rfl⟩
  cases policy <;> decide +kernel

end Schema

end EntitySchema
