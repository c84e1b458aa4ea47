import EntitySchema.Proofs.CommandLine.Acceptance

/-! # Switches among the words of a command line

The switches are the flags that only concern messages: quiet, verbose and without color. A command
line is compared with one that has switches added to it. Where both are accepted, they ask for the
same command, with the same settings and in the same format.

The two readings do not go in step, because a switch settles a value that stays pending without it.
So the longer reading *follows* the shorter one when both have read the same, perhaps only after the
shorter one is settled too. -/

namespace EntitySchema

open Outcome

/-! ## Readings that are alike -/

/-- The flags that are switches. -/
def Flag.IsSwitch (flag : Flag) : Prop := flag = .verbose ∨ flag = .quiet ∨ flag = .noColor

/-- Values for the switches. -/
structure Switches where
  /-- How often more messages were asked for. -/
  verbose : Nat
  /-- Whether only errors are reported. -/
  quiet : Bool
  /-- Whether colors are turned off. -/
  noColor : Bool

/-- What was given, with other switches. -/
def Given.switching (given : Given) (switches : Switches) : Given :=
  { given with
    verbose := switches.verbose, quiet := switches.quiet, noColor := switches.noColor }

/-- What was read, with other switches. -/
def Scan.switching (scan : Scan) (switches : Switches) : Scan :=
  { scan with given := scan.given.switching switches }

/-- Whether the same was given, apart from switches. -/
def Given.Alike (given other : Given) : Prop := ∃ switches, other = given.switching switches

/-- Whether the same was read, apart from switches. -/
def Scan.Alike (scan other : Scan) : Prop := ∃ switches, other = scan.switching switches

namespace Given

variable {given other : Given}

theorem Alike.symm (h : given.Alike other) : other.Alike given := by
  obtain ⟨switches, rfl⟩ := h
  exact ⟨⟨given.verbose, given.quiet, given.noColor⟩, rfl⟩

theorem Alike.trans {third : Given} (h : given.Alike other) (next : other.Alike third) :
    given.Alike third := by
  obtain ⟨_, rfl⟩ := h
  obtain ⟨switches, rfl⟩ := next
  exact ⟨switches, rfl⟩

/-- Recording a value does not look at switches. -/
theorem store_switching (given : Given) (switches : Switches) (slot : Slot) (value : String) :
    (given.switching switches).store slot value =
      (given.store slot value).map (switching · switches) := by
  cases slot with
  | config =>
    cases set : given.config.isSome <;> cases blank : value.isEmpty <;>
      simp [store, switching, set, blank, Except.map]
  | format =>
    cases set : given.format.isSome <;> cases named : Format.ofName? value <;>
      simp [store, switching, set, named, Except.map]
  | file => cases blank : value.isEmpty <;> simp [store, switching, blank, Except.map]
  | shell => cases named : Shell.ofName? value <;> simp [store, switching, named, Except.map]

/-- Raising a switch changes nothing else. -/
theorem alike_of_raise {scope : Scope} {flag : Flag} {raised : Given}
    (switch : flag.IsSwitch) (raises : given.raise scope flag = .ok raised) :
    given.Alike raised := by
  rcases switch with rfl | rfl | rfl <;> simp only [Given.raise] at raises
  · cases raises
    exact ⟨⟨_, given.quiet, given.noColor⟩, rfl⟩
  · split at raises
    · cases raises
    · cases raises
      exact ⟨⟨given.verbose, _, given.noColor⟩, rfl⟩
  · split at raises
    · cases raises
    · cases raises
      exact ⟨⟨given.verbose, given.quiet, _⟩, rfl⟩

/-- Raising a flag has the same effect beside the switches, where it is not refused. -/
theorem Alike.raise (h : given.Alike other) {scope : Scope} {flag : Flag}
    {raised otherRaised : Given} (raises : given.raise scope flag = .ok raised)
    (alsoRaises : other.raise scope flag = .ok otherRaised) : raised.Alike otherRaised := by
  have ofSwitch (switch : flag.IsSwitch) : raised.Alike otherRaised :=
    -- each reading only changes the switch, which the two need not share
    ((alike_of_raise switch raises).symm.trans h).trans (alike_of_raise switch alsoRaises)
  cases flag with
  | verbose => exact ofSwitch (.inl rfl)
  | quiet => exact ofSwitch (.inr (.inl rfl))
  | noColor => exact ofSwitch (.inr (.inr rfl))
  | print =>
    obtain ⟨switches, rfl⟩ := h
    cases set : given.print with
    | true => simp [Given.raise, set] at raises
    | false =>
      simp only [Given.raise, switching, set] at raises alsoRaises
      cases raises
      cases alsoRaises
      exact ⟨switches, rfl⟩
  | help => cases raises
  | version => cases raises

end Given

namespace Scan

variable {scan other next otherNext settled otherSettled : Scan} {scope : Scope} {word : String}

@[simp] theorem switching_pending (switches : Switches) :
    (scan.switching switches).pending = scan.pending := rfl

@[simp] theorem switching_trailing (switches : Switches) :
    (scan.switching switches).trailing = scan.trailing := rfl

@[simp] theorem switching_argumentRead (switches : Switches) :
    (scan.switching switches).argumentRead = scan.argumentRead := rfl

theorem Alike.symm (h : scan.Alike other) : other.Alike scan := by
  obtain ⟨switches, rfl⟩ := h
  exact ⟨⟨scan.given.verbose, scan.given.quiet, scan.given.noColor⟩, rfl⟩

theorem Alike.trans {third : Scan} (h : scan.Alike other) (more : other.Alike third) :
    scan.Alike third := by
  obtain ⟨_, rfl⟩ := h
  obtain ⟨switches, rfl⟩ := more
  exact ⟨switches, rfl⟩

/-- Settling does not look at the mark before arguments. -/
theorem settle_of_mark (h : scan.settle = .ok settled) :
    settle { scan with trailing := true } = .ok { settled with trailing := true } := by
  obtain ⟨none, rfl⟩ | ⟨slot, value, given, pending, stored, rfl⟩ := settle_eq_ok_iff.1 h
  · exact settle_of_pending_eq_none none
  · exact settle_eq_ok_iff.2 (.inr ⟨slot, value, given, pending, stored, rfl⟩)

/-- Readings that are alike settle alike. -/
theorem Alike.settle (h : scan.Alike other) (settles : scan.settle = .ok settled) :
    ∃ otherSettled, other.settle = .ok otherSettled ∧ settled.Alike otherSettled := by
  obtain ⟨switches, rfl⟩ := h
  obtain ⟨none, rfl⟩ | ⟨slot, value, given, pending, stored, rfl⟩ := settle_eq_ok_iff.1 settles
  · exact ⟨_, settle_of_pending_eq_none none, switches, rfl⟩
  · have alsoStored : (scan.given.switching switches).store slot value =
        .ok (given.switching switches) := by
      rw [Given.store_switching, stored]
      rfl
    exact ⟨_, settle_eq_ok_iff.2 (.inr ⟨slot, value, _, pending, alsoStored, rfl⟩), switches, rfl⟩

/-! ## Readings that follow each other -/

/-- Whether another reading is the settled one, apart from switches. -/
def Settled (scan other : Scan) : Prop := ∃ settled, scan.settle = .ok settled ∧ settled.Alike other

/-- In a settled reading there is nothing more to settle. -/
theorem Settled.settle_eq (h : scan.Settled other) : other.settle = .ok other := by
  obtain ⟨settled, settles, switches, rfl⟩ := h
  exact settle_of_pending_eq_none ((switching_pending switches).trans (pending_of_settle settles))

/-- Settling twice is settling once. -/
theorem Settled.trans {third : Scan} (h : scan.Settled other) (more : other.Settled third) :
    scan.Settled third := by
  obtain ⟨again, settlesAgain, alikeAgain⟩ := more
  rw [h.settle_eq] at settlesAgain
  cases settlesAgain
  obtain ⟨settled, settles, alike⟩ := h
  exact ⟨settled, settles, alike.trans alikeAgain⟩

/-- Whether another reading, of words with switches added, follows a reading. -/
inductive Follows (scan other : Scan) : Prop where
  /-- Both have read the same. -/
  | alike (h : scan.Alike other)
  /-- Both have read the same, once the first is settled too. -/
  | settled (h : scan.Settled other)

namespace Follows

/-- Readings that follow each other settle alike. -/
theorem settle (h : scan.Follows other) (settles : scan.settle = .ok settled)
    (alsoSettles : other.settle = .ok otherSettled) : settled.Alike otherSettled := by
  cases h with
  | alike h =>
    obtain ⟨third, also, alike⟩ := h.settle settles
    rw [alsoSettles] at also
    cases also
    exact alike
  | settled h =>
    rw [h.settle_eq] at alsoSettles
    cases alsoSettles
    obtain ⟨first, also, alike⟩ := h
    rw [settles] at also
    cases also
    exact alike

/-- A reading that follows another one still does so once it is settled. -/
theorem settled_right (h : scan.Follows other) (more : other.Settled next) : scan.Follows next := by
  cases h with
  | alike h =>
    -- what settles in the other reading settles in this one too
    obtain ⟨otherSettled, alsoSettles, alike⟩ := more
    obtain ⟨settled, settles, back⟩ := h.symm.settle alsoSettles
    exact .settled ⟨settled, settles, back.symm.trans alike⟩
  | settled h => exact .settled (h.trans more)

/-- Readings that follow each other have read the same marks and arguments. -/
theorem read (h : scan.Follows other) :
    other.trailing = scan.trailing ∧ other.argumentRead = scan.argumentRead := by
  cases h with
  | alike h =>
    obtain ⟨switches, rfl⟩ := h
    exact ⟨rfl, rfl⟩
  | settled h =>
    obtain ⟨settled, settles, switches, rfl⟩ := h
    simpa using read_of_settle settles

/-- Readings that follow each other are alike where an option waits for its value. -/
theorem alike_of_waiting (h : scan.Follows other) {slot : Slot}
    (waiting : scan.pending = some (slot, none)) : scan.Alike other := by
  cases h with
  | alike h => exact h
  | settled h =>
    obtain ⟨settled, settles, -⟩ := h
    rw [Scan.settle, waiting] at settles
    cases settles

/-- An option waits for its value in both readings or in none. -/
theorem waiting_iff (h : scan.Follows other) (slot : Slot) :
    other.pending = some (slot, none) ↔ scan.pending = some (slot, none) := by
  constructor
  · intro waiting
    cases h with
    | alike h =>
      obtain ⟨switches, rfl⟩ := h
      exact waiting
    | settled h =>
      have settles := h.settle_eq
      rw [Scan.settle, waiting] at settles
      cases settles
  · intro waiting
    obtain ⟨switches, rfl⟩ := h.alike_of_waiting waiting
    exact waiting

/-- Both readings wait for a value or none does. -/
theorem awaitsValue_eq (h : scan.Follows other) : other.awaitsValue = scan.awaitsValue := by
  rw [Bool.eq_iff_iff, awaitsValue_iff, awaitsValue_iff]
  exact exists_congr h.waiting_iff

/-! ### Steps that both take -/

/-- A flag that both raise leaves them alike. -/
theorem raise (h : scan.Follows other) {flag : Flag} (raises : scan.raise scope flag = .ok next)
    (alsoRaises : other.raise scope flag = .ok otherNext) : next.Alike otherNext := by
  obtain ⟨settled, given, settles, raised, rfl⟩ := raise_eq_ok_iff.1 raises
  obtain ⟨otherSettled, otherGiven, alsoSettles, alsoRaised, rfl⟩ := raise_eq_ok_iff.1 alsoRaises
  obtain ⟨switches, rfl⟩ := h.settle settles alsoSettles
  obtain ⟨switches, rfl⟩ := Given.Alike.raise ⟨switches, rfl⟩ raised alsoRaised
  exact ⟨switches, rfl⟩

/-- An option that both open leaves them alike. -/
theorem openSlot (h : scan.Follows other) {slot : Slot} {attached : Option String}
    (opens : scan.openSlot slot attached = .ok next)
    (alsoOpens : other.openSlot slot attached = .ok otherNext) : next.Alike otherNext := by
  obtain ⟨settled, settles, opened⟩ := openSlot_eq_ok_iff.1 opens
  obtain ⟨otherSettled, alsoSettles, alsoOpened⟩ := openSlot_eq_ok_iff.1 alsoOpens
  obtain ⟨switches, rfl⟩ := h.settle settles alsoSettles
  rcases opened with ⟨rfl, rfl⟩ | ⟨value, given, rfl, stored, rfl⟩
  · obtain ⟨-, rfl⟩ | ⟨_, _, absurd, -⟩ := alsoOpened
    · exact ⟨switches, rfl⟩
    · cases absurd
  · obtain ⟨absurd, -⟩ | ⟨_, otherGiven, ⟨⟩, alsoStored, rfl⟩ := alsoOpened
    · cases absurd
    · have same := Given.store_switching settled.given switches slot value
      rw [stored] at same
      cases alsoStored.symm.trans same
      exact ⟨switches, rfl⟩

/-- Behind the mark before arguments one still follows the other. -/
theorem mark (h : scan.Follows other) :
    Follows { scan with trailing := true } { other with trailing := true } := by
  cases h with
  | alike h =>
    obtain ⟨switches, rfl⟩ := h
    exact .alike ⟨switches, rfl⟩
  | settled h =>
    obtain ⟨settled, settles, switches, rfl⟩ := h
    exact .settled ⟨_, settle_of_mark settles, switches, rfl⟩

/-- An argument that both take leaves them alike. -/
theorem takeArgument (h : scan.Follows other) (takes : scan.takeArgument scope word = .ok next)
    (alsoTakes : other.takeArgument scope word = .ok otherNext) : next.Alike otherNext := by
  obtain ⟨slot, settled, known, -, settles, rfl⟩ := takeArgument_eq_ok_iff.1 takes
  obtain ⟨otherSlot, otherSettled, alsoKnown, -, alsoSettles, rfl⟩ :=
    takeArgument_eq_ok_iff.1 alsoTakes
  obtain ⟨switches, rfl⟩ := h.settle settles alsoSettles
  cases known.symm.trans alsoKnown
  exact ⟨switches, rfl⟩

/-- Short options that both take leave them one following the other; only where there are none are
they not alike. -/
theorem takeShort {letters : Text} (h : scan.Follows other)
    (takes : scan.takeShort scope letters = .ok next)
    (alsoTakes : other.takeShort scope letters = .ok otherNext) : next.Follows otherNext := by
  induction letters generalizing scan other with
  | nil =>
    cases takes
    cases alsoTakes
    exact h
  | cons c letters ih =>
    obtain ⟨flag, middle, option, raises, later⟩ | ⟨slot, option, opens⟩ :=
      takeShort_cons_eq_ok_iff.1 takes
    · obtain ⟨otherFlag, otherMiddle, alsoOption, alsoRaises, alsoLater⟩ | ⟨_, alsoOption, -⟩ :=
        takeShort_cons_eq_ok_iff.1 alsoTakes
      · cases option.symm.trans alsoOption
        exact ih (.alike (h.raise raises alsoRaises)) later alsoLater
      · cases option.symm.trans alsoOption
    · obtain ⟨_, _, alsoOption, -⟩ | ⟨otherSlot, alsoOption, alsoOpens⟩ :=
        takeShort_cons_eq_ok_iff.1 alsoTakes
      · cases option.symm.trans alsoOption
      · cases option.symm.trans alsoOption
        exact .alike (h.openSlot opens alsoOpens)

/-- A long option that both take leaves them alike. -/
theorem takeLong {name : Text} (h : scan.Follows other)
    (takes : scan.takeLong scope name = .ok next)
    (alsoTakes : other.takeLong scope name = .ok otherNext) : next.Alike otherNext := by
  obtain ⟨flag, option, -, raises⟩ | ⟨slot, option, opens⟩ := takeLong_eq_ok_iff.1 takes
  · obtain ⟨otherFlag, alsoOption, -, alsoRaises⟩ | ⟨_, alsoOption, -⟩ :=
      takeLong_eq_ok_iff.1 alsoTakes
    · cases option.symm.trans alsoOption
      exact h.raise raises alsoRaises
    · cases option.symm.trans alsoOption
  · obtain ⟨_, alsoOption, -⟩ | ⟨otherSlot, alsoOption, alsoOpens⟩ :=
      takeLong_eq_ok_iff.1 alsoTakes
    · cases option.symm.trans alsoOption
    · cases option.symm.trans alsoOption
      exact h.openSlot opens alsoOpens

/-- A word that both readings take leaves them one following the other. -/
theorem takeWord (h : scan.Follows other) (takes : scan.takeWord scope word = .ok next)
    (alsoTakes : other.takeWord scope word = .ok otherNext) : next.Follows otherNext := by
  have trailingSame := h.read.1
  cases trailing : scan.trailing with
  | true =>
    rw [takeWord_of_trailing trailing] at takes
    rw [takeWord_of_trailing (trailingSame.trans trailing)] at alsoTakes
    exact .alike (h.takeArgument takes alsoTakes)
  | false =>
    have alsoTrailing := trailingSame.trans trailing
    obtain shape | ⟨c, name, shape⟩ | ⟨c, letters, dash, shape⟩ | plain := shape_of_word word
    · rw [takeWord_mark trailing shape] at takes
      rw [takeWord_mark alsoTrailing shape] at alsoTakes
      cases takes
      cases alsoTakes
      exact h.mark
    · rw [takeWord_long trailing shape] at takes
      rw [takeWord_long alsoTrailing shape] at alsoTakes
      exact .alike (h.takeLong takes alsoTakes)
    · rw [takeWord_short trailing dash shape] at takes
      rw [takeWord_short alsoTrailing dash shape] at alsoTakes
      exact h.takeShort takes alsoTakes
    · cases waiting : scan.awaitsValue with
      | false =>
        rw [takeWord_argument trailing plain waiting] at takes
        rw [takeWord_argument alsoTrailing plain (h.awaitsValue_eq.trans waiting)] at alsoTakes
        exact .alike (h.takeArgument takes alsoTakes)
      | true =>
        obtain ⟨slot, pending⟩ := awaitsValue_iff.1 waiting
        rw [takeWord_value trailing plain pending] at takes
        rw [takeWord_value alsoTrailing plain ((h.waiting_iff slot).2 pending)] at alsoTakes
        obtain ⟨switches, rfl⟩ := h.alike_of_waiting pending
        cases takes
        cases alsoTakes
        exact .alike ⟨switches, rfl⟩

end Follows

end Scan

/-! ## Switches -/

/-- Whether a word is nothing but switches: one long switch, or short ones written together. -/
def IsSwitches (word : String) : Prop :=
  word ∈ ["--quiet", "--verbose", "--no-color"] ∨
    ∃ c letters, word.toList = '-' :: c :: letters ∧
      ∀ letter ∈ c :: letters, letter = 'q' ∨ letter = 'v'

/-- Whether words are the given ones with switches added, anywhere and any number of them. -/
inductive SwitchesAdded : List String → List String → Prop where
  /-- No words. -/
  | nil : SwitchesAdded [] []
  /-- A word that is there already. -/
  | keep (word : String) {words longer : List String} (h : SwitchesAdded words longer) :
      SwitchesAdded (word :: words) (word :: longer)
  /-- A word that is added. -/
  | add {word : String} {words longer : List String} (switches : IsSwitches word)
      (h : SwitchesAdded words longer) : SwitchesAdded words (word :: longer)

/-- The letters of the short switches. -/
theorem exists_switch_of_letter {letter : Char} (h : letter = 'q' ∨ letter = 'v') :
    ∃ flag : Flag, flag.IsSwitch ∧ shortOption? letter = some (.inl flag) := by
  rcases h with rfl | rfl
  · exact ⟨.quiet, .inr (.inl rfl), rfl⟩
  · exact ⟨.verbose, .inl rfl, rfl⟩

/-- The words of the long switches. -/
theorem exists_switch_of_word (scope : Scope) {word : String}
    (h : word ∈ ["--quiet", "--verbose", "--no-color"]) :
    ∃ (flag : Flag) (c : Char) (name : Text), flag.IsSwitch ∧
      word.toList = '-' :: '-' :: c :: name ∧ Text.cutAt '=' (c :: name) = (c :: name, none) ∧
      longOption? scope (String.ofList (c :: name)) = some (.inl flag) := by
  simp only [List.mem_cons, List.not_mem_nil, or_false] at h
  rcases h with rfl | rfl | rfl
  · exact ⟨.quiet, 'q', "uiet".toList, .inr (.inl rfl), by decide, by decide, rfl⟩
  · exact ⟨.verbose, 'v', "erbose".toList, .inl rfl, by decide, by decide, rfl⟩
  · exact ⟨.noColor, 'n', "o-color".toList, .inr (.inr rfl), by decide, by decide, rfl⟩

namespace Scan

variable {scan other next : Scan} {scope : Scope} {word : String}

/-- Raising a switch settles what is pending and changes nothing else. -/
theorem settled_of_raise {flag : Flag} (switch : flag.IsSwitch)
    (raises : scan.raise scope flag = .ok next) : scan.Settled next := by
  obtain ⟨settled, given, settles, raised, rfl⟩ := raise_eq_ok_iff.1 raises
  obtain ⟨switches, rfl⟩ := Given.alike_of_raise switch raised
  exact ⟨settled, settles, switches, rfl⟩

/-- The letter of a switch settles what is pending, before the letters behind it are read. -/
theorem settled_of_letter {c : Char} {letters : Text} (switch : c = 'q' ∨ c = 'v')
    (takes : scan.takeShort scope (c :: letters) = .ok next) :
    ∃ middle : Scan, scan.Settled middle ∧ middle.takeShort scope letters = .ok next := by
  obtain ⟨flag, switch, option⟩ := exists_switch_of_letter switch
  obtain ⟨_, middle, alsoOption, raises, later⟩ | ⟨_, alsoOption, -⟩ :=
    takeShort_cons_eq_ok_iff.1 takes
  · cases option.symm.trans alsoOption
    exact ⟨middle, settled_of_raise switch raises, later⟩
  · cases option.symm.trans alsoOption

/-- Short switches written together settle what is pending and change nothing else. -/
theorem settled_of_takeShort {c : Char} {letters : Text}
    (switches : ∀ letter ∈ c :: letters, letter = 'q' ∨ letter = 'v')
    (takes : scan.takeShort scope (c :: letters) = .ok next) : scan.Settled next := by
  obtain ⟨middle, settled, later⟩ := settled_of_letter (switches c List.mem_cons_self) takes
  induction letters generalizing c scan middle with
  | nil =>
    cases later
    exact settled
  | cons d letters ih =>
    have behind (letter : Char) (inside : letter ∈ d :: letters) : letter = 'q' ∨ letter = 'v' :=
      switches letter (List.mem_cons_of_mem c inside)
    obtain ⟨third, more, last⟩ := settled_of_letter (behind d List.mem_cons_self) later
    exact settled.trans (ih behind later third more last)

/-- A switch in front of the mark before arguments settles what is pending and changes nothing
else. -/
theorem settled_of_takeWord (switches : IsSwitches word) (trailing : scan.trailing = false)
    (takes : scan.takeWord scope word = .ok next) : scan.Settled next := by
  obtain long | ⟨c, letters, shape, letterwise⟩ := switches
  · obtain ⟨flag, c, name, switch, shape, whole, option⟩ := exists_switch_of_word scope long
    rw [takeWord_long trailing shape] at takes
    obtain ⟨_, alsoOption, -, raises⟩ | ⟨_, alsoOption, -⟩ := takeLong_eq_ok_iff.1 takes
    · rw [whole] at alsoOption
      cases option.symm.trans alsoOption
      exact settled_of_raise switch raises
    · rw [whole] at alsoOption
      cases option.symm.trans alsoOption
  · have dash : c ≠ '-' := by
      rintro rfl
      exact absurd (letterwise '-' List.mem_cons_self) (by decide)
    rw [takeWord_short trailing dash shape] at takes
    exact settled_of_takeShort letterwise takes

/-! ## Runs of words with switches added -/

/-- Once the argument was read behind the mark before arguments, no word is taken any more. -/
theorem eq_nil_of_takeWords {words : List String}
    (takes : words.foldlM (takeWord scope) scan = .ok next) (trailing : scan.trailing = true)
    (read : scan.argumentRead = true) : words = [] := by
  cases words with
  | nil => rfl
  | cons word words =>
    rw [List.foldlM_cons, bind_eq_ok_iff] at takes
    obtain ⟨middle, first, -⟩ := takes
    rw [takeWord_of_trailing trailing] at first
    obtain ⟨_, _, -, unread, -⟩ := takeArgument_eq_ok_iff.1 first
    rw [read] at unread
    cases unread

/-- The reading of the words of a command with switches added follows the reading of these words. A
switch cannot stand for the argument, which is then missing from the shorter words. -/
theorem Follows.takeWords {words longer : List String} (added : SwitchesAdded words longer)
    (h : scan.Follows other) (takes : words.foldlM (Scan.takeWord scope) scan = .ok next)
    {otherNext : Scan} (alsoTakes : longer.foldlM (Scan.takeWord scope) other = .ok otherNext)
    (read : next.argumentRead = true) : next.Follows otherNext := by
  -- along the words that were kept, one reading follows the other
  induction added generalizing scan other with
  | nil =>
    cases takes
    cases alsoTakes
    exact h
  | keep word added ih =>
    rw [List.foldlM_cons, bind_eq_ok_iff] at takes alsoTakes
    obtain ⟨middle, first, later⟩ := takes
    obtain ⟨otherMiddle, alsoFirst, alsoLater⟩ := alsoTakes
    exact ih (h.takeWord first alsoFirst) later alsoLater
  | @add word words longer switches added ih =>
    rw [List.foldlM_cons, bind_eq_ok_iff] at alsoTakes
    obtain ⟨otherMiddle, alsoFirst, alsoLater⟩ := alsoTakes
    cases trailing : other.trailing with
    | false =>
      have settled := settled_of_takeWord switches trailing alsoFirst
      exact ih (h.settled_right settled) takes alsoLater
    | true =>
      -- the switch is read as the argument, so it is the last word, and there is none in `words`
      exfalso
      rw [takeWord_of_trailing trailing] at alsoFirst
      obtain ⟨slot, otherSettled, -, unread, alsoSettles, rfl⟩ :=
        takeArgument_eq_ok_iff.1 alsoFirst
      have mark : otherSettled.trailing = true := (read_of_settle alsoSettles).1.trans trailing
      have last : longer = [] := eq_nil_of_takeWords alsoLater mark rfl
      subst last
      cases added
      cases takes
      rw [← h.read.2, unread] at read
      cases read

/-- No switch names a command, nor asks for help. -/
theorem not_command_of_isSwitches (switches : IsSwitches word) :
    word ≠ "help" ∧ CommandName.ofName? word = none := by
  have dash : ∃ rest, word.toList = '-' :: rest := by
    obtain long | ⟨c, letters, shape, -⟩ := switches
    · obtain ⟨_, c, name, -, shape, -⟩ := exists_switch_of_word none long
      exact ⟨_, shape⟩
    · exact ⟨_, shape⟩
  obtain ⟨rest, shape⟩ := dash
  have other (name : String) (first : name.toList.head? ≠ some '-') : word ≠ name := by
    rintro rfl
    exact first (by rw [shape]; rfl)
  refine ⟨other "help" (by decide), ?_⟩
  unfold CommandName.ofName?
  split
  · exact absurd rfl (other "parse" (by decide))
  · exact absurd rfl (other "version" (by decide))
  · exact absurd rfl (other "completions" (by decide))
  · rfl

/-- The words of the program with switches added name the same command, and the words behind its
name are the same with switches added. -/
theorem Follows.takeProgram {words longer : List String} (added : SwitchesAdded words longer)
    (h : scan.Follows other) {name : CommandName} {rest : List String}
    {found : Option (CommandName × List String)} {otherNext : Scan}
    (takes : scan.takeProgram words = .ok (next, some (name, rest)))
    (alsoTakes : other.takeProgram longer = .ok (otherNext, found)) :
    ∃ otherRest, found = some (name, otherRest) ∧ SwitchesAdded rest otherRest ∧
      next.Follows otherNext := by
  induction added generalizing scan other with
  | nil => cases takes
  | @keep word words longer added ih =>
    unfold Scan.takeProgram at takes alsoTakes
    rw [h.read.1, h.awaitsValue_eq] at alsoTakes
    have further (takes : (do Scan.takeProgram (← scan.takeWord none word) words) =
          .ok (next, some (name, rest)))
        (alsoTakes : (do Scan.takeProgram (← other.takeWord none word) longer) =
          .ok (otherNext, found)) : ∃ otherRest, found = some (name, otherRest) ∧
            SwitchesAdded rest otherRest ∧ next.Follows otherNext := by
      obtain ⟨middle, first, later⟩ := bind_eq_ok_iff.1 takes
      obtain ⟨otherMiddle, alsoFirst, alsoLater⟩ := bind_eq_ok_iff.1 alsoTakes
      exact ih (h.takeWord first alsoFirst) later alsoLater
    -- both readings make the same choice, since they wait for a value together
    split at takes
    · rename_i waiting
      rw [if_pos waiting] at alsoTakes
      exact further takes alsoTakes
    · rename_i waiting
      rw [if_neg waiting] at alsoTakes
      split at takes
      · cases takes
      · rename_i other
        rw [if_neg other] at alsoTakes
        cases named : CommandName.ofName? word with
        | none =>
          rw [named] at takes alsoTakes
          exact further takes alsoTakes
        | some command =>
          rw [named] at takes alsoTakes
          cases takes
          cases alsoTakes
          exact ⟨longer, rfl, added, h⟩
  | @add word words longer switches added ih =>
    -- a switch names no command, so the longer reading goes on behind it in the same scope
    obtain ⟨noHelp, noCommand⟩ := not_command_of_isSwitches switches
    unfold Scan.takeProgram at alsoTakes
    simp only [noHelp, noCommand, if_false, ite_self] at alsoTakes
    obtain ⟨otherMiddle, alsoFirst, alsoLater⟩ := bind_eq_ok_iff.1 alsoTakes
    have trailing : other.trailing = false := by
      cases trailing : other.trailing with
      | false => rfl
      | true =>
        -- the program itself takes no argument
        rw [takeWord_of_trailing trailing] at alsoFirst
        obtain ⟨_, _, ⟨⟩, -⟩ := takeArgument_eq_ok_iff.1 alsoFirst
    exact ih (h.settled_right (settled_of_takeWord switches trailing alsoFirst)) takes alsoLater

end Scan

/-! ## Accepted command lines with switches added -/

/-- Options that are given alike name the same file with the settings and the same format. -/
theorem Options.merge_of_alike {environment : OptionVariables} {program command : Given}
    {otherProgram otherCommand : Given} (h : program.Alike otherProgram)
    (inside : command.Alike otherCommand) :
    (merge environment otherProgram otherCommand).config =
        (merge environment program command).config ∧
      (merge environment otherProgram otherCommand).format =
        (merge environment program command).format := by
  obtain ⟨_, rfl⟩ := h
  obtain ⟨_, rfl⟩ := inside
  exact ⟨rfl, rfl⟩

/-- A command line that asks to read a file asks for the same when switches are added to it, if it
is still accepted. -/
theorem Invocation.ofWords_of_switchesAdded {environment : OptionVariables}
    {words longer : List String} {invocation other : Invocation} {file : String} {print : Bool}
    (added : SwitchesAdded words longer) (h : ofWords environment words = .ok invocation)
    (command : invocation.command = .parse file print)
    (also : ofWords environment longer = .ok other) :
    other.command = invocation.command ∧ other.options.config = invocation.options.config ∧
      other.options.format = invocation.options.format := by
  obtain ⟨scan, settled, name, rest, given, takes, read, settles, -, -, options⟩ :=
    ofWords_eq_ok_iff.1 h
  obtain ⟨otherScan, otherSettled, otherName, otherRest, otherGiven, alsoTakes, alsoRead,
    alsoSettles, -, -, otherOptions⟩ := ofWords_eq_ok_iff.1 also
  have start : Scan.Follows {} {} := .alike ⟨⟨0, false, false⟩, rfl⟩
  obtain ⟨_, ⟨⟩, behind, follows⟩ := start.takeProgram added takes alsoTakes
  obtain ⟨inner, last, takesInner, settlesInner, rfl, -, -, asked⟩ :=
    Given.ofCommand_eq_ok_iff.1 read
  obtain ⟨otherInner, otherLast, alsoTakesInner, alsoSettlesInner, rfl, -, -, alsoAsked⟩ :=
    Given.ofCommand_eq_ok_iff.1 alsoRead
  rw [command] at asked
  obtain ⟨rfl, fileGiven, printGiven⟩ := Given.command_eq_parse_iff.1 asked
  have argument := Scan.argumentRead_of_file takesInner settlesInner fileGiven
  have followsInner := start.takeWords behind takesInner alsoTakesInner argument
  have alikeInside := followsInner.settle settlesInner alsoSettlesInner
  have alikeBefore := follows.settle settles alsoSettles
  obtain ⟨switches, rfl⟩ := alikeInside
  obtain ⟨otherSwitches, rfl⟩ := alikeBefore
  have alsoParse : (last.given.switching switches).command .parse = .ok (.parse file print) :=
    Given.command_eq_parse_iff.2 ⟨rfl, fileGiven, printGiven⟩
  refine ⟨?_, ?_⟩
  · rw [command]
    exact Except.ok.inj (alsoAsked.symm.trans alsoParse)
  · rw [options, otherOptions]
    exact Options.merge_of_alike ⟨otherSwitches, rfl⟩ ⟨switches, rfl⟩

end EntitySchema
