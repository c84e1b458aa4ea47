import EntitySchema.Proofs.CommandLine.Words

/-! # Accepted command lines

A command line is accepted when both of its scopes are: the words up to the name of a command, and
the words after it. The environment only fills in the options that the words leave out, so an
accepted command line is accepted in an empty environment too. -/

namespace EntitySchema

open Outcome

variable {environment : OptionVariables} {words : List String}

/-! ## The two scopes -/

/-- The words of a command are accepted when each is, the last value too, and what was given then
passes the checks. -/
theorem Given.ofCommand_eq_ok_iff {name : CommandName} {command : Command} {given : Given} :
    ofCommand environment name words = .ok (command, given) ↔
      ∃ scan settled, words.foldlM (Scan.takeWord (some name)) {} = .ok scan ∧
        scan.settle = .ok settled ∧ given = settled.given ∧
        environment.check given = .ok () ∧ given.checkConflict = .ok () ∧
        given.command name = .ok command := by
  simp only [ofCommand, bind_eq_ok_iff]
  constructor
  · rintro ⟨scan, taken, settled, settles, ⟨⟩, checked, ⟨⟩, apart, other, found, same⟩
    cases same
    exact ⟨scan, settled, taken, settles, rfl, checked, apart, found⟩
  · rintro ⟨scan, settled, taken, settles, rfl, checked, apart, found⟩
    exact ⟨scan, taken, settled, settles, (), checked, (), apart, command, found, rfl⟩

/-- Only the name `parse` with a file asks to read a file. -/
theorem Given.command_eq_parse_iff {given : Given} {name : CommandName} {file : String}
    {print : Bool} :
    given.command name = .ok (.parse file print) ↔
      name = .parse ∧ given.file = some file ∧ given.print = print := by
  cases name with
  | parse => cases found : given.file <;> simp [command, found]
  | version => simp [command]
  | completions => cases found : given.shell <;> simp [command, found]

/-- A command line is accepted when it names a command whose words are accepted, and the words
before the name are too. -/
theorem Invocation.ofWords_eq_ok_iff {invocation : Invocation} :
    ofWords environment words = .ok invocation ↔
      ∃ scan settled name rest given,
        Scan.takeProgram {} words = .ok (scan, some (name, rest)) ∧
        Given.ofCommand environment name rest = .ok (invocation.command, given) ∧
        scan.settle = .ok settled ∧ environment.check settled.given = .ok () ∧
        settled.given.checkConflict = .ok () ∧
        invocation.options = .merge environment settled.given given := by
  simp only [ofWords, bind_eq_ok_iff]
  constructor
  · rintro ⟨⟨scan, _ | ⟨name, rest⟩⟩, taken, accepted⟩
    · simp only [bind_eq_ok_iff] at accepted
      obtain ⟨settled, -, ⟨⟩, -, accepted⟩ := accepted
      split at accepted <;> cases accepted
    · simp only [bind_eq_ok_iff] at accepted
      obtain ⟨⟨command, given⟩, read, settled, settles, ⟨⟩, checked, ⟨⟩, apart, same⟩ := accepted
      cases same
      exact ⟨scan, settled, name, rest, given, taken, read, settles, checked, apart, rfl⟩
  · rintro ⟨scan, settled, name, rest, given, taken, read, settles, checked, apart, options⟩
    refine ⟨⟨scan, some (name, rest)⟩, taken, ?_⟩
    simp only [bind_eq_ok_iff]
    refine ⟨⟨invocation.command, given⟩, read, settled, settles, (), checked, (), apart, ?_⟩
    rw [← options]
    rfl

/-! ## The environment -/

/-- An empty environment passes every check. -/
theorem OptionVariables.check_empty (given : Given) :
    ({} : OptionVariables).check given = .ok () := by
  simp [check]

/-- An accepted command line is accepted without its environment, which only names the file with the
settings where the words do not. -/
theorem Invocation.exists_ofWords_empty {invocation : Invocation}
    (h : ofWords environment words = .ok invocation) :
    ∃ bare, ofWords {} words = .ok bare ∧ bare.command = invocation.command ∧
      bare.options.format = invocation.options.format ∧
      invocation.options.config = (bare.options.config <|> environment.config) := by
  obtain ⟨scan, settled, name, rest, given, taken, read, settles, -, apart, options⟩ :=
    ofWords_eq_ok_iff.1 h
  obtain ⟨inner, last, takes, ends, same, -, apartInside, command⟩ :=
    Given.ofCommand_eq_ok_iff.1 read
  have readEmpty : Given.ofCommand {} name rest = .ok (invocation.command, given) :=
    Given.ofCommand_eq_ok_iff.2 ⟨inner, last, takes, ends, same,
      OptionVariables.check_empty given, apartInside, command⟩
  refine ⟨⟨invocation.command, .merge {} settled.given given⟩, ofWords_eq_ok_iff.2
    ⟨scan, settled, name, rest, given, taken, readEmpty, settles,
      OptionVariables.check_empty settled.given, apart, rfl⟩, rfl, ?_, ?_⟩
  · rw [options]
    rfl
  · rw [options]
    simp only [Options.merge]
    cases given.config <;> cases settled.given.config <;> rfl

/-! ## The argument -/

/-- The file of an accepted command was read as its argument. -/
theorem Scan.argumentRead_of_file {scan settled : Scan} {scope : Scope}
    (taken : words.foldlM (takeWord scope) {} = .ok scan) (settles : scan.settle = .ok settled)
    {file : String} (given : settled.given.file = some file) : scan.argumentRead = true := by
  have start : ({} : Scan).FileIsArgument := fun _ => ⟨rfl, nofun⟩
  have kept : settled.FileIsArgument := (start.takeWords taken).settle settles
  cases read : scan.argumentRead with
  | true => rfl
  | false =>
    have missing := (kept ((read_of_settle settles).2.trans read)).1
    rw [given] at missing
    cases missing

end EntitySchema
