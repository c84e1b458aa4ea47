import EntitySchema.CommandLine.Invocation
import EntitySchema.Reading
import EntitySchema.Report.Style

/-! # Consoles

The console is where the messages of a run go. It may be a terminal, which can show colors, and it
takes the log. Both are told here without saying how a terminal or a log looks. -/

namespace EntitySchema

/-- A source that is read, as the log sees it. -/
structure Compilation where
  /-- The policy for repeated entities. -/
  policy : DuplicatePolicy
  /-- The file with the source. -/
  file : String
  /-- The source. -/
  source : String

/-- Where messages go. -/
structure Console where
  /-- Whether messages go to a terminal. -/
  terminal : Bool := false
  /-- The style in which a terminal shows colors. -/
  colored : Style := .plain
  /-- What is logged under the filter of the environment, when it has one, and else at a level,
  while a source is read, if one is. -/
  log : Option String → String → Option Compilation → String := fun _ _ _ => ""

/-- The style of a run: there are colors on a terminal that is not a dumb one, unless they are
turned off. -/
def Options.style (options : Options) (terminalName : Option String) (console : Console) : Style :=
  if !options.noColor && terminalName != some "dumb" && console.terminal then console.colored
  else .plain

end EntitySchema
