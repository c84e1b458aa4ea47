/-! # Invocations

An invocation is what a command line asks for: a command with its own arguments, and options that
every command knows. -/

namespace EntitySchema

/-- How results and messages are written. -/
inductive Format where
  /-- For readers. -/
  | human
  /-- As JSON. -/
  | json
  /-- As rows of tab-separated columns. -/
  | plain
  deriving DecidableEq, Repr

/-- The format with exactly the given word. -/
def Format.ofName? : String → Option Format
  | "human" => some .human
  | "json" => some .json
  | "plain" => some .plain
  | _ => none

/-- A shell for which there is a completion script. -/
inductive Shell where
  /-- The Bourne-again shell. -/
  | bash
  /-- The Elvish shell. -/
  | elvish
  /-- The friendly interactive shell. -/
  | fish
  /-- PowerShell. -/
  | powershell
  /-- The Z shell. -/
  | zsh
  deriving DecidableEq, Repr

namespace Shell

/-- The word for a shell. -/
def name : Shell → String
  | .bash => "bash"
  | .elvish => "elvish"
  | .fish => "fish"
  | .powershell => "powershell"
  | .zsh => "zsh"

/-- The shell with exactly the given word. -/
def ofName? (word : String) : Option Shell :=
  [bash, elvish, fish, powershell, zsh].find? (·.name == word)

end Shell

/-- What to do. -/
inductive Command where
  /-- Read a file and write the schema that it declares, in its printed form if asked. -/
  | parse (file : String) (print : Bool)
  /-- Write the version and the release notes. -/
  | version
  /-- Write the completion script of a shell. -/
  | completions (shell : Shell)
  deriving DecidableEq, Repr

/-- The options that every command knows. -/
structure Options where
  /-- The file with the settings, when one is named. -/
  config : Option String := none
  /-- How results and messages are written. -/
  format : Format := .human
  /-- How often more messages were asked for. -/
  verbose : Nat := 0
  /-- Whether only errors are reported. -/
  quiet : Bool := false
  /-- Whether colors are turned off. -/
  noColor : Bool := false
  deriving DecidableEq, Repr

/-- What a command line asks for. -/
structure Invocation where
  /-- What to do. -/
  command : Command
  /-- The options. -/
  options : Options
  deriving DecidableEq, Repr

/-- The level of the log: quiet and verbose win over a level from the settings. -/
def logLevel (verbose : Nat) (quiet : Bool) (configured : Option String) : String :=
  if quiet then "error"
  else match verbose with
    | 0 => configured.getD "warn"
    | 1 => "info"
    | 2 => "debug"
    | _ => "trace"

end EntitySchema
