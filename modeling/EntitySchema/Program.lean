import EntitySchema.Program.Console
import EntitySchema.Program.Release
import EntitySchema.Program.Surroundings
import EntitySchema.Json.Schema
import EntitySchema.Report.Outline
import EntitySchema.Report.Rows
import EntitySchema.Schema.Printed

/-! # Runs of the program

A run is a function of its surroundings, its command line and the console that its messages go to.
It ends with an exit code, the text that it writes as its result, and the text of its messages. A
run that fails writes no result. -/

namespace EntitySchema

/-- What a run leaves behind. -/
structure Outcome where
  /-- The exit code. -/
  exitCode : Nat
  /-- The result. -/
  output : String
  /-- The messages. -/
  messages : String
  deriving DecidableEq, Repr

/-- The text of help. -/
def helpText : String :=
  "Compiler for the larry entity DSL\n\n"
    ++ "Usage: larry [OPTIONS] <COMMAND>\n\n"
    ++ "Commands:\n"
    ++ "  parse <FILE> [--print]  Parse a DSL file and print the resolved entity graph\n"
    ++ "  version                 Show the version and release notes\n"
    ++ "  completions <SHELL>     Generate shell completion scripts\n"
    ++ "  help [COMMAND]          Print this message\n\n"
    ++ "Options:\n"
    ++ "  -c, --config <CONFIG>  Configuration file path\n"
    ++ "      --format <FORMAT>  human, json or plain\n"
    ++ "  -v, --verbose...       Increase verbosity\n"
    ++ "  -q, --quiet            Suppress all non-error output\n"
    ++ "      --no-color         Disable colored output\n"
    ++ "  -h, --help             Print help\n"
    ++ "  -V, --version          Print version\n"

/-- The wording of a misuse. -/
def Misuse.message : Misuse → String
  | .nothingGiven => helpText
  | .missingCommand => "error: a command is missing\n"
  | .unknownCommand => "error: unknown command\n"
  | .unknownArgument => "error: unexpected argument\n"
  | .missingArgument => "error: an argument is missing\n"
  | .invalidValue => "error: invalid value\n"
  | .unexpectedValue => "error: unexpected value for an option\n"
  | .conflict => "error: an option is repeated or excluded by another\n"

/-- The outcome of a command line that asks for no command. -/
def Halt.outcome : Halt → Outcome
  | .help => ⟨0, helpText, ""⟩
  | .version scope => ⟨0, Release.line scope, ""⟩
  | .misuse error => ⟨2, "", error.message⟩

/-- The script that completes the names of commands and long options in a shell. -/
def completionScript : Shell → String
  | .bash => "complete -W 'parse version completions help --config --format' larry\n"
  | .elvish =>
    "set edit:completion:arg-completer[larry] = \x7b|@words| "
      ++ "put parse version completions help \x7d\n"
  | .fish => "complete -c larry -f -a 'parse version completions help'\n"
  | .powershell =>
    "Register-ArgumentCompleter -Native -CommandName larry -ScriptBlock \x7b "
      ++ "'parse', 'version', 'completions', 'help' \x7d\n"
  | .zsh => "compdef '_arguments \"1:command:(parse version completions help)\"' larry\n"

/-- A schema in a format. -/
def Schema.report (style : Style) (schema : Schema) : Format → String
  | .human => schema.outline style
  | .json => schema.toJson.pretty ++ "\n"
  | .plain => schema.renderRows

/-- A warning in a format, unless only errors are reported. -/
def Options.warn (style : Style) (options : Options) (message : String) : String :=
  if options.quiet then ""
  else match options.format with
    | .human => style.labelled .warning message
    | .json => (Json.object [("warning", .string message)]).compact ++ "\n"
    | .plain => s!"warning\t{message}\n"

/-- The message after a command ended well, which only readers see. -/
def Options.succeed (style : Style) (options : Options) (message : String) : String :=
  if !options.quiet && options.format = .human then style.labelled .ok message else ""

/-- The outcome of reading a file. -/
def parseOutcome (style : Style) (options : Options) (file : String) (print : Bool)
    (schema : Schema) : Outcome :=
  let warning :=
    if schema.entities.isEmpty then options.warn style s!"no entities declared in {file}" else ""
  let summary :=
    file ++ ": " ++ toString schema.entities.length ++ " entities, "
      ++ toString schema.links.length ++ " link tables"
  ⟨0, if print then schema.printed else schema.report style options.format,
    warning ++ options.succeed style summary⟩

/-- Carries out an invocation. -/
def Invocation.run (surroundings : Surroundings) (style : Style) (invocation : Invocation) :
    Except Failure Outcome := do
  let options := invocation.options
  let settings ← surroundings.settings options.config
  match invocation.command with
  | .parse file print =>
    let source ← surroundings.read file
    match Schema.ofSource settings.duplicates source with
    | .error error => throw (.rejected error file)
    | .ok schema => return parseOutcome style options file print schema
  | .version => return ⟨0, Release.report style options.format, ""⟩
  | .completions shell => return ⟨0, completionScript shell, ""⟩

/-- The source that an invocation reads, if it comes to that. -/
def Invocation.compilation? (surroundings : Surroundings) (settings : Settings)
    (invocation : Invocation) : Option Compilation :=
  match invocation.command with
  | .parse file _ => (surroundings.read file).toOption.map (⟨settings.duplicates, file, ·⟩)
  | _ => none

/-- What is logged while an invocation is carried out; there is no log before there are settings. -/
def Invocation.log (surroundings : Surroundings) (console : Console) (invocation : Invocation) :
    String :=
  let options := invocation.options
  match surroundings.settings options.config with
  | .error _ => ""
  | .ok settings =>
    console.log (surroundings.valueOf "RUST_LOG")
      (logLevel options.verbose options.quiet settings.logLevel)
      (invocation.compilation? surroundings settings)

/-- The outcome of a command line in its surroundings, with its messages on a console. -/
def run (surroundings : Surroundings) (words : List String) (console : Console := {}) : Outcome :=
  match Invocation.ofWords (Surroundings.optionVariables surroundings.valueOf) words with
  | .error halt => halt.outcome
  | .ok invocation =>
    let style := invocation.options.style (surroundings.valueOf "TERM") console
    let log := invocation.log surroundings console
    match invocation.run surroundings style with
    | .ok outcome => { outcome with messages := log ++ outcome.messages }
    | .error failure =>
      ⟨failure.exitCode, "", log ++ failure.report style invocation.options.format⟩

/-- The paths that a command line may make a run look at. -/
def consultedPaths (valueOf : String → Option String) (words : List String) : List String :=
  match Invocation.ofWords (Surroundings.optionVariables valueOf) words with
  | .error _ => []
  | .ok invocation =>
    let files := match invocation.command with
      | .parse file _ => [file]
      | _ => []
    invocation.options.config.toList ++ Surroundings.settingsPlaces valueOf ++ files

end EntitySchema
