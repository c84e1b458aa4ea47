import EntitySchema.CommandLine.Arguments
import EntitySchema.Json.Value
import EntitySchema.Report.Style

/-! # Releases

The version of the program and what was new in each release. -/

namespace EntitySchema

/-- The name of the program. -/
def programName : String := "larry"

/-- A release with its notes. -/
structure Release where
  /-- The version. -/
  version : String
  /-- What was new. -/
  notes : List String
  deriving DecidableEq, Repr

namespace Release

/-- The version of the program. -/
def current : String := "0.1.0"

/-- The releases, the newest first. -/
def all : List Release :=
  [{ version := "0.1.0"
     notes :=
      ["Line-oriented entity DSL with has-one, has-many, belongs-to and many-to-many relations",
        "Foreign keys resolved after the whole file is read, so relations may name later entities",
        "Every error reports its line and underlines the offending text",
        "Resolved graph as a readable summary, JSON, tab-separated rows or canonical DSL"] }]

/-- A release as JSON. -/
def toJson (release : Release) : Json :=
  .object [("notes", .strings release.notes), ("version", .string release.version)]

/-- The notes of a release for readers. -/
def outline (style : Style) (release : Release) : String :=
  style.heading s!"Version {release.version}" ++ "\n"
    ++ String.join (release.notes.map fun note => s!"  - {note}\n") ++ "\n"

/-- The notes of a release as rows. -/
def rows (release : Release) : String :=
  String.join (release.notes.map fun note => s!"{release.version}\t{note}\n")

/-- The version and all release notes, in a format. -/
def report (style : Style) : Format → String
  | .human => s!"{programName} {current}\n\n" ++ String.join (all.map (outline style))
  | .json =>
    Json.pretty (.object [("releases", .array (all.map toJson)), ("version", .string current)])
      ++ "\n"
  | .plain => String.join (all.map rows)

/-- The name of the program in a scope, with the version. -/
def line (scope : Scope) : String :=
  let name := match scope with
    | none => programName
    | some command => programName ++ "-" ++ command.name
  s!"{name} {current}\n"

end Release

end EntitySchema
