import EntitySchema.CommandLine.Invocation
import EntitySchema.Json.Value
import EntitySchema.Report.Diagnosis
import EntitySchema.Report.Style

/-! # Failures

A run that was asked for a command can fail in four ways. Each has an exit code, a wording and a
form in JSON. -/

namespace EntitySchema

/-- Why a run failed. -/
inductive Failure where
  /-- The file holds an erroneous source. -/
  | rejected (error : SourceError) (file : String)
  /-- The file cannot be read. -/
  | unreadable (path reason : String)
  /-- The settings are not valid. -/
  | settings (message : String)
  /-- Anything else. -/
  | other (message : String)
  deriving DecidableEq, Repr

namespace Failure

/-- The exit code of a run that failed. -/
def exitCode : Failure → Nat
  | .rejected _ _ => 3
  | .settings _ => 2
  | .unreadable _ _ | .other _ => 1

/-- The wording of a failure. -/
def message : Failure → String
  | .rejected error _ => error.render
  | .unreadable path reason => s!"IO error for {path}: {reason}"
  | .settings message => s!"configuration error: {message}"
  | .other message => message

/-- A failure as JSON. -/
def toJson : Failure → Json
  | .rejected error file =>
    .object [("error", .string "parse_error"), ("file", .string file),
      ("line", .number error.line), ("message", .string error.message),
      ("span", .object [("end", .number error.span.stop), ("start", .number error.span.start)])]
  | .unreadable path reason =>
    .object [("error", .string "io_error"), ("message", .string reason), ("path", .string path)]
  | .settings message =>
    .object [("error", .string "config_error"), ("message", .string message)]
  | .other message => .object [("error", .string "error"), ("message", .string message)]

/-- The diagnosis of an error in a file, a line for each of its parts. -/
def explain (diagnosis : Diagnosis) (file : String) : String :=
  s!"error: {diagnosis.message}\n  at {file}, byte {diagnosis.offset}: {diagnosis.label}\n"
    ++ s!"  help: {diagnosis.advice}\n"

/-- A failure as reported in a format. -/
def report (style : Style) (format : Format) (failure : Failure) : String :=
  match format, failure with
  | .json, failure => failure.toJson.compact ++ "\n"
  | .human, .rejected error file => explain error.diagnosis file
  | .human, failure => style.labelled .error failure.message
  | .plain, .rejected error _ => error.render ++ "\n"
  | .plain, failure => "error\t" ++ failure.message ++ "\n"

end Failure

end EntitySchema
