import EntitySchema.Program

/-! # The command line program

Takes a snapshot of what a run may look at, runs, and writes the outcome. -/

namespace EntitySchema

/-- The number of an error of the system; some calls report it with a minus sign. -/
def errorNumber (code : UInt32) : Nat := min code.toNat (0x100000000 - code.toNat)

/-- What an error of the file system says about the path that was read. -/
def Entry.ofError : IO.Error → Entry
  | .noFileOrDirectory _ _ _ => .missing
  | .inappropriateType _ code _ => if errorNumber code = 20 then .behindFile else .folder
  | .invalidArgument _ code _ =>
    match errorNumber code with
    | 36 => .nameTooLong
    | 40 => .absent "Too many levels of symbolic links (os error 40)"
    | number => .unreadable s!"Invalid argument (os error {number})"
  | .permissionDenied _ code _ =>
    .unreadable s!"Permission denied (os error {errorNumber code})"
  | error => .unreadable (toString error)

/-- What stands at a path of the file system. -/
def Entry.load (path : String) : IO Entry := do
  try return .file (← IO.FS.readBinFile path)
  catch error => return .ofError error

/-- The variables of the environment that a run may look at. -/
def consultedVariables : List String :=
  ["LARRY_CONFIG", "NO_COLOR", "XDG_CONFIG_HOME", "HOME", "TERM", "RUST_LOG"]

/-- A text with the control codes that a terminal undoes after it. -/
def emphasized (codes text : String) : String := codes ++ text ++ "\x1b[0m"

/-- The colors of a terminal. -/
def Style.terminal : Style where
  heading := emphasized "\x1b[1m"
  label
    | .ok => emphasized "\x1b[32m\x1b[1m" Tone.ok.label
    | .warning => emphasized "\x1b[33m\x1b[1m" Tone.warning.label
    | .error => emphasized "\x1b[31m\x1b[1m" Tone.error.label

/-- The console of the process, on which nothing is logged; colors are written only when results go
to a terminal too. -/
def Console.attached : IO Console := do
  let colored := if ← (← IO.getStdout).isTty then Style.terminal else .plain
  return { terminal := ← (← IO.getStderr).isTty, colored }

end EntitySchema

open EntitySchema in
/-- Runs the program on the words of its command line. -/
def main (words : List String) : IO UInt32 := do
  let environment ← consultedVariables.mapM fun name => return (name, ← IO.getEnv name)
  let valueOf (name : String) : Option String := (environment.lookup name).join
  let entries ← (consultedPaths valueOf words).mapM fun path => return (path, ← Entry.load path)
  let entry (path : String) : Entry := (entries.lookup path).getD .missing
  let outcome := run ⟨valueOf, entry⟩ words (← Console.attached)
  IO.print outcome.output
  IO.eprint outcome.messages
  return outcome.exitCode.toUInt32
