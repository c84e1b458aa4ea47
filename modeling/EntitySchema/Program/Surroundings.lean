import EntitySchema.CommandLine.Arguments
import EntitySchema.Program.Failure
import EntitySchema.Settings

/-! # Surroundings

What a run can see: the variables of its environment, and for every path what stands there. The
settings of a run come from the file that is named for it, or else from the first of three places
where there is a file; a file that is there but cannot be used is a failure, not passed over. -/

namespace EntitySchema

/-- What stands at a path. -/
inductive Entry where
  /-- A file with its bytes. -/
  | file (bytes : ByteArray)
  /-- Something that is there but cannot be read. -/
  | unreadable (reason : String)
  /-- Nothing. -/
  | absent (reason : String)

namespace Entry

/-- A path where there is no file and no folder. -/
def missing : Entry := .absent "No such file or directory (os error 2)"

/-- A path that goes on behind a file. -/
def behindFile : Entry := .absent "Not a directory (os error 20)"

/-- A path with a part that is too long for any file, or too long as a whole. -/
def nameTooLong : Entry := .absent "File name too long (os error 36)"

/-- A folder. -/
def folder : Entry := .unreadable "Is a directory (os error 21)"

/-- Whether there is something at the path. -/
def exists? : Entry → Bool
  | .absent _ => false
  | _ => true

end Entry

/-- What a run can see. -/
structure Surroundings where
  /-- The value of an environment variable, if it is set. -/
  valueOf : String → Option String
  /-- What stands at a path. -/
  entry : String → Entry

namespace Surroundings

/-- The text of the file at a path. -/
def read (surroundings : Surroundings) (path : String) : Except Failure String :=
  match surroundings.entry path with
  | .file bytes =>
    match String.fromUTF8? bytes with
    | some text => .ok text
    | none => .error (.unreadable path "stream did not contain valid UTF-8")
  | .unreadable reason | .absent reason => .error (.unreadable path reason)

/-- The values that the environment gives to options. -/
def optionVariables (valueOf : String → Option String) : OptionVariables :=
  ⟨valueOf "LARRY_CONFIG", valueOf "NO_COLOR"⟩

/-- A path inside a folder. -/
def inside (folder path : String) : String :=
  if folder.isEmpty then path
  else if folder.toList.getLast? = some '/' then folder ++ path
  else folder ++ "/" ++ path

/-- The places where settings are looked for when no file is named, in order. -/
def settingsPlaces (valueOf : String → Option String) : List String :=
  "larry.toml" ::
    ((valueOf "XDG_CONFIG_HOME").map (inside · "larry/config.toml")).toList
    ++ ((valueOf "HOME").map (inside · ".config/larry/config.toml")).toList

/-- The settings in the file at a path. -/
def settingsAt (surroundings : Surroundings) (path : String) : Except Failure Settings := do
  let text ← surroundings.read path
  match Settings.ofText text with
  | some settings => return settings
  | none => throw (.settings s!"failed to parse {path}: not a valid settings document")

/-- The path of the settings of a run, if there are any. -/
def settingsPath? (surroundings : Surroundings) (named : Option String) : Option String :=
  named <|> (settingsPlaces surroundings.valueOf).find? fun path =>
    (surroundings.entry path).exists?

/-- The settings of a run, for which a file may be named. -/
def settings (surroundings : Surroundings) (named : Option String) : Except Failure Settings :=
  match surroundings.settingsPath? named with
  | some path => surroundings.settingsAt path
  | none => .ok {}

end Surroundings

end EntitySchema
