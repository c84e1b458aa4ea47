import EntitySchema.CommandLine.Invocation
import EntitySchema.Text.Cut

/-! # Command lines

The words of a command line are read in two scopes: first those of the program, up to the name of a
command, then those of the command. Options are known in both scopes, and one given for the command
wins over one given for the program, which wins over the environment. An option that takes a value
is *pending* until its value is checked, which happens when the next option or argument begins or
the scope ends; so a later unknown word is reported before an earlier bad value. -/

namespace EntitySchema

/-- What is wrong with a command line. -/
inductive Misuse where
  /-- There is nothing on the command line. -/
  | nothingGiven
  /-- There are options but no command. -/
  | missingCommand
  /-- The word is not the name of a command. -/
  | unknownCommand
  /-- The word is no known option, or an argument too many. -/
  | unknownArgument
  /-- The command lacks an argument. -/
  | missingArgument
  /-- The value of an option or argument is missing or not allowed. -/
  | invalidValue
  /-- An option that takes no value is given one. -/
  | unexpectedValue
  /-- An option is repeated, or excluded by another. -/
  | conflict
  deriving DecidableEq, Repr

/-- The names of the commands. -/
inductive CommandName where
  /-- The name of `Command.parse`. -/
  | parse
  /-- The name of `Command.version`. -/
  | version
  /-- The name of `Command.completions`. -/
  | completions
  deriving DecidableEq, Repr

/-- The command with exactly the given word as its name. -/
def CommandName.ofName? : String → Option CommandName
  | "parse" => some .parse
  | "version" => some .version
  | "completions" => some .completions
  | _ => none

/-- The word for a command. -/
def CommandName.name : CommandName → String
  | .parse => "parse"
  | .version => "version"
  | .completions => "completions"

/-- Where a word stands: before the name of a command, or after it. -/
abbrev Scope := Option CommandName

/-- Why a command line asks for no command. -/
inductive Halt where
  /-- It asks for help. -/
  | help
  /-- It asks for the version in a scope. -/
  | version (scope : Scope)
  /-- It is wrong. -/
  | misuse (error : Misuse)
  deriving DecidableEq, Repr

/-- An option without a value. -/
inductive Flag where
  /-- More messages. -/
  | verbose
  /-- Only errors. -/
  | quiet
  /-- No colors. -/
  | noColor
  /-- The printed form. -/
  | print
  /-- Help. -/
  | help
  /-- The version. -/
  | version
  deriving DecidableEq, Repr

/-- An option or an argument with a value. -/
inductive Slot where
  /-- The file with the settings. -/
  | config
  /-- The format. -/
  | format
  /-- The file to read. -/
  | file
  /-- The shell. -/
  | shell
  deriving DecidableEq, Repr

/-- What was given in one scope. -/
structure Given where
  /-- The file with the settings. -/
  config : Option String := none
  /-- The format. -/
  format : Option Format := none
  /-- How often more messages were asked for; counting stops at 255. -/
  verbose : Nat := 0
  /-- Whether only errors are reported. -/
  quiet : Bool := false
  /-- Whether colors are turned off. -/
  noColor : Bool := false
  /-- Whether the printed form is asked for. -/
  print : Bool := false
  /-- The file to read. -/
  file : Option String := none
  /-- The shell. -/
  shell : Option Shell := none
  deriving DecidableEq, Repr

/-- How far the words of one scope have been read. -/
structure Scan where
  /-- What was given. -/
  given : Given := {}
  /-- The option or argument whose value is not checked yet, with the value if it was read. -/
  pending : Option (Slot × Option String) := none
  /-- Whether every further word is an argument. -/
  trailing : Bool := false
  /-- Whether the argument of the command was read. -/
  argumentRead : Bool := false
  deriving DecidableEq, Repr

namespace Given

/-- Whether anything was given. -/
def isEmpty (given : Given) : Bool := given == {}

/-- Records a flag. -/
def raise (scope : Scope) (given : Given) : Flag → Except Halt Given
  | .verbose => .ok { given with verbose := min 255 (given.verbose + 1) }
  | .quiet =>
    if given.quiet then .error (.misuse .conflict) else .ok { given with quiet := true }
  | .noColor =>
    if given.noColor then .error (.misuse .conflict) else .ok { given with noColor := true }
  | .print =>
    if given.print then .error (.misuse .conflict) else .ok { given with print := true }
  | .help => .error .help
  | .version => .error (.version scope)

/-- Records a value; a second value for the same option is a conflict whatever it is. -/
def store (given : Given) (slot : Slot) (value : String) : Except Halt Given :=
  match slot with
  | .config =>
    if given.config.isSome then .error (.misuse .conflict)
    else if value.isEmpty then .error (.misuse .invalidValue)
    else .ok { given with config := some value }
  | .format =>
    if given.format.isSome then .error (.misuse .conflict)
    else match Format.ofName? value with
      | some format => .ok { given with format := some format }
      | none => .error (.misuse .invalidValue)
  | .file =>
    if value.isEmpty then .error (.misuse .invalidValue)
    else .ok { given with file := some value }
  | .shell =>
    match Shell.ofName? value with
    | some shell => .ok { given with shell := some shell }
    | none => .error (.misuse .invalidValue)

end Given

/-- The option with a long name. -/
def longOption? (scope : Scope) (name : String) : Option (Flag ⊕ Slot) :=
  match name with
  | "config" => some (.inr .config)
  | "format" => some (.inr .format)
  | "verbose" => some (.inl .verbose)
  | "quiet" => some (.inl .quiet)
  | "no-color" => some (.inl .noColor)
  | "help" => some (.inl .help)
  | "version" => some (.inl .version)
  | "print" => if scope = some .parse then some (.inl .print) else none
  | _ => none

/-- The option with a short name. -/
def shortOption? : Char → Option (Flag ⊕ Slot)
  | 'c' => some (.inr .config)
  | 'v' => some (.inl .verbose)
  | 'q' => some (.inl .quiet)
  | 'h' => some (.inl .help)
  | 'V' => some (.inl .version)
  | _ => none

namespace Scan

/-- Whether the next word may be the value of an option. -/
def awaitsValue (scan : Scan) : Bool :=
  match scan.pending with
  | some (_, none) => true
  | _ => false

/-- Checks and records the pending value. -/
def settle (scan : Scan) : Except Halt Scan :=
  match scan.pending with
  | none => .ok scan
  | some (_, none) => .error (.misuse .invalidValue)
  | some (slot, some value) => do
    return { scan with given := ← scan.given.store slot value, pending := none }

/-- Records a flag, once the pending value is settled. -/
def raise (scope : Scope) (scan : Scan) (flag : Flag) : Except Halt Scan := do
  let scan ← scan.settle
  return { scan with given := ← scan.given.raise scope flag }

/-- Begins an option with a value, which may be attached to it. -/
def openSlot (scan : Scan) (slot : Slot) (attached : Option String) : Except Halt Scan := do
  let scan ← scan.settle
  match attached with
  | some value => return { scan with given := ← scan.given.store slot value }
  | none => return { scan with pending := some (slot, none) }

/-- Reads a long option, whose dashes were taken. -/
def takeLong (scope : Scope) (scan : Scan) (word : Text) : Except Halt Scan :=
  let (name, attached) := word.cutAt '='
  match longOption? scope (String.ofList name), attached with
  | none, _ => .error (.misuse .unknownArgument)
  | some (.inl _), some _ => .error (.misuse .unexpectedValue)
  | some (.inl flag), none => scan.raise scope flag
  | some (.inr slot), attached => scan.openSlot slot (attached.map String.ofList)

/-- Reads short options written together, whose dash was taken. -/
def takeShort (scope : Scope) (scan : Scan) : Text → Except Halt Scan
  | [] => .ok scan
  | c :: rest =>
    match shortOption? c with
    | none => .error (.misuse .unknownArgument)
    | some (.inl flag) => do takeShort scope (← scan.raise scope flag) rest
    | some (.inr slot) =>
      match rest with
      | [] => scan.openSlot slot none
      | '=' :: value => scan.openSlot slot (some (String.ofList value))
      | value => scan.openSlot slot (some (String.ofList value))

/-- Reads an argument. -/
def takeArgument (scope : Scope) (scan : Scan) (word : String) : Except Halt Scan :=
  let slot? : Option Slot := match scope with
    | some .parse => some .file
    | some .completions => some .shell
    | _ => none
  match slot?, scan.argumentRead with
  | some slot, false => do
    let scan ← scan.settle
    return { scan with pending := some (slot, some word), argumentRead := true }
  | _, _ =>
    let named := word = "help" || (CommandName.ofName? word).isSome
    if scope.isNone && !(scan.trailing && named) then .error (.misuse .unknownCommand)
    else .error (.misuse .unknownArgument)

/-- Reads the words after `help`, which may only name one command. -/
def takeHelp : List String → Halt
  | [] => .help
  | [word] =>
    if word = "help" || (CommandName.ofName? word).isSome then .help else .misuse .unknownCommand
  | _ => .misuse .unknownCommand

/-- Reads one word that is not the name of a command. -/
def takeWord (scope : Scope) (scan : Scan) (word : String) : Except Halt Scan :=
  if scan.trailing then scan.takeArgument scope word
  else
    let plain : Except Halt Scan :=
      match scan.pending with
      | some (slot, none) => .ok { scan with pending := some (slot, some word) }
      | _ => scan.takeArgument scope word
    match word.toList with
    | ['-', '-'] => .ok { scan with trailing := true }
    | '-' :: '-' :: name => scan.takeLong scope name
    | ['-'] => plain
    | '-' :: letters => scan.takeShort scope letters
    | _ => plain

/-- Reads the words of the program, up to the name of a command and the words after it. -/
def takeProgram (scan : Scan) :
    List String → Except Halt (Scan × Option (CommandName × List String))
  | [] => .ok (scan, none)
  | word :: rest =>
    let next := do takeProgram (← scan.takeWord none word) rest
    if scan.trailing || scan.awaitsValue then next
    else if word = "help" then .error (takeHelp rest)
    else match CommandName.ofName? word with
      | some command => .ok (scan, some (command, rest))
      | none => next

end Scan

/-- The values that the environment gives to options. -/
structure OptionVariables where
  /-- The file with the settings. -/
  config : Option String := none
  /-- Whether colors are turned off. -/
  noColor : Option String := none
  deriving DecidableEq, Repr

/-- Checks the values of the environment, of which those that were given in a scope are ignored. -/
def OptionVariables.check (environment : OptionVariables) (given : Given) : Except Halt Unit :=
  if given.config.isNone && environment.config == some "" then .error (.misuse .invalidValue)
  else match given.noColor, environment.noColor with
    | false, some word =>
      if word = "true" ∨ word = "false" then .ok () else .error (.misuse .invalidValue)
    | _, _ => .ok ()

/-- Checks that options which exclude each other were not given in one scope. -/
def Given.checkConflict (given : Given) : Except Halt Unit :=
  if given.quiet && given.verbose != 0 then .error (.misuse .conflict) else .ok ()

/-- The command with its arguments, which have to be there. -/
def Given.command (given : Given) : CommandName → Except Halt Command
  | .parse =>
    match given.file with
    | some file => .ok (.parse file given.print)
    | none => .error (.misuse .missingArgument)
  | .version => .ok .version
  | .completions =>
    match given.shell with
    | some shell => .ok (.completions shell)
    | none => .error (.misuse .missingArgument)

/-- Reads the words of a command. -/
def Given.ofCommand (environment : OptionVariables) (name : CommandName) (words : List String) :
    Except Halt (Command × Given) := do
  let scan ← words.foldlM (Scan.takeWord (some name)) {}
  let given := (← scan.settle).given
  environment.check given
  given.checkConflict
  return (← given.command name, given)

/-- The options of a run: those of the command, else those of the program, else the environment. -/
def Options.merge (environment : OptionVariables) (program command : Given) : Options where
  config := command.config <|> program.config <|> environment.config
  format := (command.format <|> program.format).getD .human
  verbose := if command.verbose = 0 then program.verbose else command.verbose
  quiet := command.quiet || program.quiet
  noColor := command.noColor || program.noColor || environment.noColor == some "true"

/-- What the words of a command line ask for, without the name of the program. -/
def Invocation.ofWords (environment : OptionVariables) (words : List String) :
    Except Halt Invocation := do
  let (scan, rest) ← Scan.takeProgram {} words
  match rest with
  | some (name, words) =>
    let (command, commandGiven) ← Given.ofCommand environment name words
    let given := (← scan.settle).given
    environment.check given
    given.checkConflict
    return ⟨command, .merge environment given commandGiven⟩
  | none =>
    let given := (← scan.settle).given
    environment.check given
    if given.isEmpty && environment == {} then throw (.misuse .nothingGiven)
    throw (.misuse .missingCommand)

end EntitySchema
