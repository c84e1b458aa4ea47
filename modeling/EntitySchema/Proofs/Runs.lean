import EntitySchema.Program
import EntitySchema.Proofs.CommandLine.Switches

/-! # How a run ends that reads a file

A run first takes its settings from the first place that is named or exists, then reads the file,
then compiles it. The first of these steps that fails ends the run with an exit code of its own and
without a result. Switches on the command line change neither, unless the messages go to a
terminal. -/

namespace EntitySchema

open Outcome

namespace Surroundings

variable {surroundings : Surroundings} {option : Option String} {path file : String}

/-! ## Files -/

/-- The text of a file, when something at the path can be read as text. -/
def text? (surroundings : Surroundings) (path : String) : Option String :=
  match surroundings.entry path with
  | .file bytes => String.fromUTF8? bytes
  | _ => none

/-- A file with text is read. -/
theorem read_of_text? {text : String} (h : surroundings.text? path = some text) :
    surroundings.read path = .ok text := by
  rw [text?] at h
  rw [read]
  cases standing : surroundings.entry path with
  | file bytes =>
    rw [standing] at h
    dsimp only at h ⊢
    rw [h]
  | unreadable reason =>
    rw [standing] at h
    cases h
  | absent reason =>
    rw [standing] at h
    cases h

/-- What has no text is not read. -/
theorem exists_read_of_text?_eq_none (h : surroundings.text? path = none) :
    ∃ reason, surroundings.read path = .error (.unreadable path reason) := by
  rw [text?] at h
  rw [read]
  cases standing : surroundings.entry path with
  | file bytes =>
    rw [standing] at h
    dsimp only at h ⊢
    rw [h]
    exact ⟨_, rfl⟩
  | unreadable reason => exact ⟨reason, rfl⟩
  | absent reason => exact ⟨reason, rfl⟩

/-! ## Settings -/

/-- A place where the settings of a run may be. -/
structure Candidate where
  /-- The path. -/
  path : String
  /-- Whether the path was given for this run, so that it is taken even if nothing is there. -/
  given : Bool

/-- The candidates for the settings of a run, in order: the option, the variable for it, the working
folder, and the two folders for configuration. -/
def candidates (valueOf : String → Option String) (option : Option String) : List Candidate :=
  (option.map (⟨·, true⟩)).toList
    ++ ((valueOf "LARRY_CONFIG").map (⟨·, true⟩)).toList
    ++ [⟨"larry.toml", false⟩]
    ++ ((valueOf "XDG_CONFIG_HOME").map fun folder =>
        ⟨inside folder "larry/config.toml", false⟩).toList
    ++ ((valueOf "HOME").map fun folder =>
        ⟨inside folder ".config/larry/config.toml", false⟩).toList

/-- The path of the first candidate that is given or exists. -/
def chosen? (surroundings : Surroundings) (option : Option String) : Option String :=
  ((candidates surroundings.valueOf option).find? fun candidate =>
    candidate.given || (surroundings.entry candidate.path).exists?).map (·.path)

/-- The candidates are the named paths, then the places where settings are looked for. -/
theorem candidates_eq (valueOf : String → Option String) (option : Option String) :
    candidates valueOf option =
      (option.toList ++ (valueOf "LARRY_CONFIG").toList).map (⟨·, true⟩)
        ++ (settingsPlaces valueOf).map (⟨·, false⟩) := by
  rw [candidates, settingsPlaces]
  cases option <;> cases valueOf "LARRY_CONFIG" <;> cases valueOf "XDG_CONFIG_HOME" <;>
    cases valueOf "HOME" <;> rfl

/-- The settings come from the chosen candidate. -/
theorem settingsPath?_eq_chosen? :
    surroundings.settingsPath? (option <|> surroundings.valueOf "LARRY_CONFIG") =
      surroundings.chosen? option := by
  have searched : ((settingsPlaces surroundings.valueOf).map (Candidate.mk · false)).find?
        (fun candidate => candidate.given || (surroundings.entry candidate.path).exists?) =
      ((settingsPlaces surroundings.valueOf).find? fun path =>
        (surroundings.entry path).exists?).map (Candidate.mk · false) :=
    List.find?_map
  rw [settingsPath?, chosen?, candidates_eq, List.find?_append, searched]
  cases option with
  | some path => rfl
  | none =>
    cases surroundings.valueOf "LARRY_CONFIG" with
    | some path => rfl
    | none =>
      cases (settingsPlaces surroundings.valueOf).find? fun path =>
        (surroundings.entry path).exists? <;> rfl

/-- Whether settings are those of a run: the default ones where nothing is chosen, and else those in
the chosen file. -/
inductive HasSettings (surroundings : Surroundings) (option : Option String) : Settings → Prop where
  /-- Nothing is chosen. -/
  | default (none : surroundings.chosen? option = none) : HasSettings surroundings option {}
  /-- The chosen file can be read and is valid. -/
  | chosen {path text : String} {settings : Settings}
      (chosen : surroundings.chosen? option = some path)
      (readable : surroundings.text? path = some text)
      (valid : Settings.ofText text = some settings) :
      HasSettings surroundings option settings

/-- The settings of a run are loaded. -/
theorem settings_of_hasSettings {settings : Settings}
    (h : surroundings.HasSettings option settings) :
    surroundings.settings (option <|> surroundings.valueOf "LARRY_CONFIG") = .ok settings := by
  rw [Surroundings.settings, settingsPath?_eq_chosen?]
  cases h with
  | default none => rw [none]
  | chosen chosen readable valid =>
    rw [chosen]
    dsimp only
    rw [settingsAt, read_of_text? readable]
    dsimp only [bind, Except.bind]
    rw [valid]
    rfl

/-- A chosen file that cannot be read ends the search for settings. -/
theorem settings_of_unreadable (chosen : surroundings.chosen? option = some path)
    (unreadable : surroundings.text? path = none) :
    ∃ reason, surroundings.settings (option <|> surroundings.valueOf "LARRY_CONFIG") =
      .error (.unreadable path reason) := by
  obtain ⟨reason, failed⟩ := exists_read_of_text?_eq_none unreadable
  rw [Surroundings.settings, settingsPath?_eq_chosen?, chosen]
  dsimp only
  rw [settingsAt, failed]
  exact ⟨reason, rfl⟩

/-- A chosen file that is not valid ends the search for settings. -/
theorem settings_of_invalid {text : String} (chosen : surroundings.chosen? option = some path)
    (readable : surroundings.text? path = some text) (invalid : Settings.ofText text = none) :
    ∃ message, surroundings.settings (option <|> surroundings.valueOf "LARRY_CONFIG") =
      .error (.settings message) := by
  rw [Surroundings.settings, settingsPath?_eq_chosen?, chosen]
  dsimp only
  rw [settingsAt, read_of_text? readable]
  dsimp only [bind, Except.bind]
  rw [invalid]
  exact ⟨_, rfl⟩

end Surroundings

/-! ## Ends of a run -/

/-- How a run ends that reads a file, by what stands at the chosen place for settings and at the
path of the file: with which exit code, and with which result. -/
inductive ParseEnds (surroundings : Surroundings) (option : Option String) (file : String)
    (result : Schema → String) : Nat → String → Prop where
  /-- The chosen settings cannot be read. -/
  | settingsUnreadable {path : String} (chosen : surroundings.chosen? option = some path)
      (unreadable : surroundings.text? path = none) :
      ParseEnds surroundings option file result 1 ""
  /-- The chosen settings are not valid. -/
  | settingsInvalid {path text : String} (chosen : surroundings.chosen? option = some path)
      (readable : surroundings.text? path = some text) (invalid : Settings.ofText text = none) :
      ParseEnds surroundings option file result 2 ""
  /-- The file cannot be read. -/
  | unreadable {settings : Settings} (has : surroundings.HasSettings option settings)
      (unreadable : surroundings.text? file = none) :
      ParseEnds surroundings option file result 1 ""
  /-- The source in the file is rejected. -/
  | rejected {settings : Settings} {source : String} {error : SourceError}
      (has : surroundings.HasSettings option settings)
      (readable : surroundings.text? file = some source)
      (rejects : Schema.ofSource settings.duplicates source = .error error) :
      ParseEnds surroundings option file result 3 ""
  /-- The source in the file declares a schema. -/
  | accepted {settings : Settings} {source : String} {schema : Schema}
      (has : surroundings.HasSettings option settings)
      (readable : surroundings.text? file = some source)
      (accepts : Schema.ofSource settings.duplicates source = .ok schema) :
      ParseEnds surroundings option file result 0 (result schema)

/-- Every run that reads a file ends. -/
theorem exists_parseEnds (surroundings : Surroundings) (option : Option String) (file : String)
    (result : Schema → String) :
    ∃ code output, ParseEnds surroundings option file result code output := by
  have loaded {settings : Settings} (has : surroundings.HasSettings option settings) :
      ∃ code output, ParseEnds surroundings option file result code output := by
    cases readable : surroundings.text? file with
    | none => exact ⟨1, "", .unreadable has readable⟩
    | some source =>
      cases compiled : Schema.ofSource settings.duplicates source with
      | error error => exact ⟨3, "", .rejected has readable compiled⟩
      | ok schema => exact ⟨0, result schema, .accepted has readable compiled⟩
  cases chosen : surroundings.chosen? option with
  | none => exact loaded (.default chosen)
  | some path =>
    cases readable : surroundings.text? path with
    | none => exact ⟨1, "", .settingsUnreadable chosen readable⟩
    | some text =>
      cases valid : Settings.ofText text with
      | none => exact ⟨2, "", .settingsInvalid chosen readable valid⟩
      | some settings => exact loaded (.chosen chosen readable valid)

/-- The result of a run that reads a file, when the source in it declares a schema. -/
def Invocation.result (surroundings : Surroundings) (console : Console) (invocation : Invocation)
    (print : Bool) (schema : Schema) : String :=
  if print then schema.printed
  else schema.report (invocation.options.style (surroundings.valueOf "TERM") console)
    invocation.options.format

section Runs

variable {surroundings : Surroundings} {words : List String} {console : Console}
  {invocation : Invocation} {file : String} {print : Bool}

/-- A run that reads a file takes its settings, reads the file and compiles the source, in this
order. -/
theorem Invocation.run_of_parse (parse : invocation.command = .parse file print) (style : Style) :
    invocation.run surroundings style = (do
      let settings ← surroundings.settings invocation.options.config
      let source ← surroundings.read file
      match Schema.ofSource settings.duplicates source with
      | .error error => throw (.rejected error file)
      | .ok schema => return parseOutcome style invocation.options file print schema) := by
  obtain ⟨command, options⟩ := invocation
  cases parse
  rfl

/-- A run that fails has the exit code of its failure, and no result. -/
theorem run_of_failure
    (accepted : Invocation.ofWords (Surroundings.optionVariables surroundings.valueOf) words =
      .ok invocation) {failure : Failure}
    (fails : invocation.run surroundings
      (invocation.options.style (surroundings.valueOf "TERM") console) = .error failure) :
    (run surroundings words console).exitCode = failure.exitCode ∧
      (run surroundings words console).output = "" := by
  rw [run, accepted]
  dsimp only
  rw [fails]
  exact ⟨rfl, rfl⟩

/-- A run that does not fail has the exit code and the result of its invocation. -/
theorem run_of_outcome
    (accepted : Invocation.ofWords (Surroundings.optionVariables surroundings.valueOf) words =
      .ok invocation) {outcome : Outcome}
    (ends : invocation.run surroundings
      (invocation.options.style (surroundings.valueOf "TERM") console) = .ok outcome) :
    (run surroundings words console).exitCode = outcome.exitCode ∧
      (run surroundings words console).output = outcome.output := by
  rw [run, accepted]
  dsimp only
  rw [ends]
  exact ⟨rfl, rfl⟩

/-- A run that reads a file ends as it does by what stands at the paths that it looks at. -/
theorem ParseEnds.run_eq {option : Option String} {code : Nat} {output : String}
    (h : ParseEnds surroundings option file (invocation.result surroundings console print) code
      output)
    (accepted : Invocation.ofWords (Surroundings.optionVariables surroundings.valueOf) words =
      .ok invocation)
    (parse : invocation.command = .parse file print)
    (config : invocation.options.config = (option <|> surroundings.valueOf "LARRY_CONFIG")) :
    (run surroundings words console).exitCode = code ∧
      (run surroundings words console).output = output := by
  have steps : invocation.run surroundings
      (invocation.options.style (surroundings.valueOf "TERM") console) = _ :=
    Invocation.run_of_parse parse _
  rw [config] at steps
  -- every way to end stops the run at a step of its own
  cases h with
  | settingsUnreadable chosen unreadable =>
    obtain ⟨reason, failed⟩ := Surroundings.settings_of_unreadable chosen unreadable
    rw [failed] at steps
    exact run_of_failure accepted steps
  | settingsInvalid chosen readable invalid =>
    obtain ⟨message, failed⟩ := Surroundings.settings_of_invalid chosen readable invalid
    rw [failed] at steps
    exact run_of_failure accepted steps
  | unreadable has unreadable =>
    obtain ⟨reason, failed⟩ := Surroundings.exists_read_of_text?_eq_none unreadable
    rw [Surroundings.settings_of_hasSettings has, failed] at steps
    exact run_of_failure accepted steps
  | rejected has readable rejects =>
    rw [Surroundings.settings_of_hasSettings has, Surroundings.read_of_text? readable] at steps
    dsimp only [bind, Except.bind] at steps
    rw [rejects] at steps
    exact run_of_failure accepted steps
  | accepted has readable accepts =>
    rw [Surroundings.settings_of_hasSettings has, Surroundings.read_of_text? readable] at steps
    dsimp only [bind, Except.bind] at steps
    rw [accepts] at steps
    exact run_of_outcome accepted steps

/-- Without a terminal there are no colors. -/
theorem Options.style_eq_plain (options : Options) (terminalName : Option String)
    (h : console.terminal = false) : options.style terminalName console = .plain := by
  simp [style, h]

/-- Without a terminal the result only depends on the format. -/
theorem Invocation.result_eq {other : Invocation} (h : console.terminal = false)
    (format : other.options.format = invocation.options.format) :
    other.result surroundings console print = invocation.result surroundings console print := by
  funext schema
  simp [result, Options.style_eq_plain _ _ h, format]

/-- A run that was asked to read a file ends as it does by what stands at the paths that it looks
at, where the named settings are those of the words, read without the environment. Switches that are
added to its words change neither the exit code nor the result, if the words are still accepted and
the messages do not go to a terminal. -/
theorem run_eq_iff_parseEnds
    (accepted : Invocation.ofWords (Surroundings.optionVariables surroundings.valueOf) words =
      .ok invocation)
    (parse : invocation.command = .parse file print) :
    (∃ bare, Invocation.ofWords {} words = .ok bare ∧ bare.command = .parse file print ∧
      bare.options.format = invocation.options.format ∧
      ∀ code output,
        (run surroundings words console).exitCode = code ∧
            (run surroundings words console).output = output ↔
          ParseEnds surroundings bare.options.config file
            (invocation.result surroundings console print) code output) ∧
    ∀ longer other, SwitchesAdded words longer →
      Invocation.ofWords (Surroundings.optionVariables surroundings.valueOf) longer = .ok other →
      console.terminal = false →
        (run surroundings longer console).exitCode = (run surroundings words console).exitCode ∧
          (run surroundings longer console).output = (run surroundings words console).output := by
  obtain ⟨bare, read, command, format, config⟩ := Invocation.exists_ofWords_empty accepted
  obtain ⟨code, output, ends⟩ := exists_parseEnds surroundings bare.options.config file
    (invocation.result surroundings console print)
  obtain ⟨sameCode, sameOutput⟩ := ends.run_eq accepted parse config
  -- a run has only one end, so the end that was found is the only one
  refine ⟨⟨bare, read, command.trans parse, format, fun otherCode otherOutput => ?_⟩, ?_⟩
  · constructor
    · rintro ⟨rfl, rfl⟩
      rw [sameCode, sameOutput]
      exact ends
    · exact fun h => h.run_eq accepted parse config
  · intro longer other added also noTerminal
    obtain ⟨sameCommand, sameConfig, sameFormat⟩ :=
      Invocation.ofWords_of_switchesAdded added accepted parse also
    -- the longer words look at the same paths, and give the same result without colors
    have alsoEnds := ends
    rw [← Invocation.result_eq noTerminal sameFormat] at alsoEnds
    obtain ⟨alsoCode, alsoOutput⟩ :=
      alsoEnds.run_eq also (sameCommand.trans parse) (sameConfig.trans config)
    exact ⟨alsoCode.trans sameCode.symm, alsoOutput.trans sameOutput.symm⟩

/-- Settings that the variable names and that reject repeated names, before settings in the working
folder that are not valid: a file is printed, with switches in both scopes too. -/
theorem run_eq_iff_parseEnds_printed :
    let surroundings : Surroundings :=
      ⟨fun name => if name = "LARRY_CONFIG" then some "strict.toml" else none, fun path =>
        if path = "strict.toml" then .file "parse.duplicate_entities = 'reject'".toUTF8
        else if path = "larry.toml" then .file "[parse".toUTF8
        else if path = "m.larry" then .file "User  Post:hm\n\nPost\n\ttitle : string".toUTF8
        else .missing⟩
    let words := ["--format", "json", "parse", "m.larry", "--print"]
    let longer := ["--no-color", "--format", "json", "-q", "parse", "-q", "m.larry", "--print"]
    let result := "User Post:hm\n\nPost\n    title:string\n"
    (∃ invocation other,
      Invocation.ofWords (Surroundings.optionVariables surroundings.valueOf) words =
        .ok invocation ∧ invocation.command = .parse "m.larry" true ∧
      SwitchesAdded words longer ∧
      Invocation.ofWords (Surroundings.optionVariables surroundings.valueOf) longer = .ok other ∧
      ParseEnds surroundings none "m.larry" (invocation.result surroundings {} true) 0 result) ∧
    (run surroundings longer).exitCode = 0 ∧ (run surroundings longer).output = result := by
  intro surroundings words longer result
  have accepted : Invocation.ofWords (Surroundings.optionVariables surroundings.valueOf) words =
      .ok ⟨.parse "m.larry" true, { config := some "strict.toml", format := .json }⟩ := by
    rfl
  have also : Invocation.ofWords (Surroundings.optionVariables surroundings.valueOf) longer =
      .ok ⟨.parse "m.larry" true,
        { config := some "strict.toml", format := .json, quiet := true, noColor := true }⟩ := by
    rfl
  have added : SwitchesAdded words longer :=
    .add (.inl (by decide)) <| .keep _ <| .keep _ <|
      .add (.inr ⟨'q', [], rfl, by simp⟩) <| .keep _ <|
      .add (.inr ⟨'q', [], rfl, by simp⟩) <| .keep _ <| .keep _ .nil
  have ends : (run surroundings words).exitCode = 0 ∧ (run surroundings words).output = result := by
    decide +kernel
  obtain ⟨⟨bare, read, -, -, told⟩, switched⟩ := run_eq_iff_parseEnds accepted rfl
  have option : bare.options.config = none := by
    cases read
    rfl
  have followed := (told 0 result).1 ends
  obtain ⟨sameCode, sameOutput⟩ := switched longer _ added also rfl
  rw [option] at followed
  exact ⟨⟨_, _, accepted, rfl, added, also, followed⟩, sameCode.trans ends.1,
    sameOutput.trans ends.2⟩

/-- A run whose settings are not valid does not come to reading its file, so it does not have the
exit code of a file that cannot be read. -/
theorem run_ne_one_of_invalid_settings :
    let surroundings : Surroundings :=
      ⟨fun _ => none, fun path =>
        if path = "bad.toml" then .file "[parse\n".toUTF8 else .missing⟩
    let words := ["--config", "bad.toml", "parse", "missing.larry"]
    (∃ invocation, Invocation.ofWords (Surroundings.optionVariables surroundings.valueOf) words =
        .ok invocation ∧ invocation.command = .parse "missing.larry" false) ∧
      surroundings.text? "missing.larry" = none ∧ (run surroundings words).exitCode ≠ 1 := by
  intro surroundings words
  have accepted : Invocation.ofWords (Surroundings.optionVariables surroundings.valueOf) words =
      .ok ⟨.parse "missing.larry" false, { config := some "bad.toml" }⟩ := by
    rfl
  exact ⟨⟨_, accepted, rfl⟩, rfl, by decide +kernel⟩

end Runs

end EntitySchema
