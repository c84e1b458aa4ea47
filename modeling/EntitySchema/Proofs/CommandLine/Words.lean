import EntitySchema.CommandLine.Arguments
import EntitySchema.Proofs.Outcome

/-! # What the words of a command line do

One lemma for each step of the reader tells everything that the step can do when it is not refused:
settling a pending value, raising a flag, opening an option with a value, reading an argument, and
reading a word of each shape. Only the argument of a command can be the file to read. -/

namespace EntitySchema

open Outcome

namespace Scan

variable {scan next settled : Scan} {scope : Scope} {word : String}

/-! ## Steps -/

/-- Settling checks and records the pending value, when there is one. -/
theorem settle_eq_ok_iff :
    scan.settle = .ok settled ↔
      (scan.pending = none ∧ settled = scan) ∨
        ∃ slot value given, scan.pending = some (slot, some value) ∧
          scan.given.store slot value = .ok given ∧
          settled = { scan with given, pending := none } := by
  rw [settle]
  rcases scan.pending with _ | ⟨slot, _ | value⟩
  · simp [eq_comm]
  · simp
  · rw [bind_eq_ok_iff]
    constructor
    · rintro ⟨given, stored, same⟩
      exact .inr ⟨slot, value, given, rfl, stored, (Except.ok.inj same).symm⟩
    · rintro (⟨absurd, -⟩ | ⟨_, _, given, same, stored, rfl⟩)
      · cases absurd
      · cases same
        exact ⟨given, stored, rfl⟩

/-- Nothing is pending once a value is settled. -/
theorem pending_of_settle (h : scan.settle = .ok settled) : settled.pending = none := by
  obtain ⟨none, rfl⟩ | ⟨_, _, _, -, -, rfl⟩ := settle_eq_ok_iff.1 h
  · exact none
  · rfl

/-- Where nothing is pending, there is nothing to settle. -/
theorem settle_of_pending_eq_none (h : scan.pending = none) : scan.settle = .ok scan :=
  settle_eq_ok_iff.2 (.inl ⟨h, rfl⟩)

/-- Settling reads no word. -/
theorem read_of_settle (h : scan.settle = .ok settled) :
    settled.trailing = scan.trailing ∧ settled.argumentRead = scan.argumentRead := by
  obtain ⟨-, rfl⟩ | ⟨_, _, _, -, -, rfl⟩ := settle_eq_ok_iff.1 h
  · exact ⟨rfl, rfl⟩
  · exact ⟨rfl, rfl⟩

/-- A flag is raised on what was given, once the pending value is settled. -/
theorem raise_eq_ok_iff {flag : Flag} :
    scan.raise scope flag = .ok next ↔
      ∃ settled given, scan.settle = .ok settled ∧ settled.given.raise scope flag = .ok given ∧
        next = { settled with given } := by
  rw [raise, bind_eq_ok_iff]
  constructor
  · rintro ⟨settled, first, second⟩
    obtain ⟨given, raised, same⟩ := bind_eq_ok_iff.1 second
    exact ⟨settled, given, first, raised, (Except.ok.inj same).symm⟩
  · rintro ⟨settled, given, first, raised, rfl⟩
    exact ⟨settled, first, bind_eq_ok_iff.2 ⟨given, raised, rfl⟩⟩

/-- An option with a value is opened once the pending value is settled: an attached value is
recorded at once, another is pending. -/
theorem openSlot_eq_ok_iff {slot : Slot} {attached : Option String} :
    scan.openSlot slot attached = .ok next ↔
      ∃ settled, scan.settle = .ok settled ∧
        ((attached = none ∧ next = { settled with pending := some (slot, none) }) ∨
          ∃ value given, attached = some value ∧ settled.given.store slot value = .ok given ∧
            next = { settled with given }) := by
  rw [openSlot, bind_eq_ok_iff]
  refine exists_congr fun settled => and_congr_right fun _ => ?_
  cases attached with
  | none => simp [pure, Except.pure, eq_comm]
  | some value =>
    rw [bind_eq_ok_iff]
    constructor
    · rintro ⟨given, stored, same⟩
      exact .inr ⟨value, given, rfl, stored, (Except.ok.inj same).symm⟩
    · rintro (⟨absurd, -⟩ | ⟨_, given, same, stored, rfl⟩)
      · cases absurd
      · cases same
        exact ⟨given, stored, rfl⟩

/-- The argument that a scope takes. -/
def argumentSlot? : Scope → Option Slot
  | some .parse => some .file
  | some .completions => some .shell
  | _ => none

/-- The argument of a scope is taken when it was not read before. -/
theorem takeArgument_of_slot {slot : Slot} (known : argumentSlot? scope = some slot)
    (unread : scan.argumentRead = false) :
    scan.takeArgument scope word = (do
      let scan ← scan.settle
      return { scan with pending := some (slot, some word), argumentRead := true }) := by
  unfold takeArgument
  rw [unread]
  rcases scope with _ | _ | _ | _ <;> cases known <;> rfl

/-- No other argument is taken. -/
theorem takeArgument_ne_ok (h : argumentSlot? scope = none ∨ scan.argumentRead = true) :
    scan.takeArgument scope word ≠ .ok next := by
  have refused : (if scope.isNone && !(scan.trailing &&
        (word = "help" || (CommandName.ofName? word).isSome))
      then Except.error (Halt.misuse .unknownCommand)
      else Except.error (Halt.misuse .unknownArgument)) ≠ .ok next := by
    split <;> exact nofun
  unfold takeArgument
  rcases h with unknown | read
  · rcases scope with _ | _ | _ | _
    · exact refused
    · cases unknown
    · exact refused
    · cases unknown
  · rw [read]
    rcases scope with _ | _ | _ | _ <;> exact refused

/-- A scope takes one argument, which is pending once the value before it is settled. -/
theorem takeArgument_eq_ok_iff :
    scan.takeArgument scope word = .ok next ↔
      ∃ slot settled, argumentSlot? scope = some slot ∧ scan.argumentRead = false ∧
        scan.settle = .ok settled ∧
        next = { settled with pending := some (slot, some word), argumentRead := true } := by
  constructor
  · intro takes
    cases known : argumentSlot? scope with
    | none => exact absurd takes (takeArgument_ne_ok (.inl known))
    | some slot =>
      cases read : scan.argumentRead with
      | true => exact absurd takes (takeArgument_ne_ok (.inr read))
      | false =>
        rw [takeArgument_of_slot known read, bind_eq_ok_iff] at takes
        obtain ⟨settled, settles, same⟩ := takes
        exact ⟨slot, settled, rfl, rfl, settles, (Except.ok.inj same).symm⟩
  · rintro ⟨slot, settled, known, unread, settles, rfl⟩
    rw [takeArgument_of_slot known unread, settles]
    rfl

/-! ## Options -/

/-- A long option is a flag without a value, or an option with a value that may be attached. -/
theorem takeLong_eq_ok_iff {name : Text} :
    scan.takeLong scope name = .ok next ↔
      (∃ flag, longOption? scope (String.ofList (name.cutAt '=').1) = some (.inl flag) ∧
        (name.cutAt '=').2 = none ∧ scan.raise scope flag = .ok next) ∨
      ∃ slot, longOption? scope (String.ofList (name.cutAt '=').1) = some (.inr slot) ∧
        scan.openSlot slot ((name.cutAt '=').2.map String.ofList) = .ok next := by
  rw [takeLong]
  rcases option : longOption? scope (String.ofList (name.cutAt '=').1) with _ | flag | slot
  · simp [option]
  · cases attached : (name.cutAt '=').2 <;> simp [option, attached]
  · simp [option]

/-- The value that is attached to a short option, when anything stands behind it. -/
def attachedValue? : Text → Option String
  | [] => none
  | '=' :: value => some (String.ofList value)
  | value => some (String.ofList value)

/-- Short options are read letter by letter; behind the first one with a value stands its value. -/
theorem takeShort_cons_eq_ok_iff {c : Char} {letters : Text} :
    scan.takeShort scope (c :: letters) = .ok next ↔
      (∃ flag middle, shortOption? c = some (.inl flag) ∧ scan.raise scope flag = .ok middle ∧
        middle.takeShort scope letters = .ok next) ∨
      ∃ slot, shortOption? c = some (.inr slot) ∧
        scan.openSlot slot (attachedValue? letters) = .ok next := by
  rw [takeShort]
  rcases shortOption? c with _ | flag | slot
  · simp
  · simp [bind_eq_ok_iff]
  · rcases letters with _ | ⟨mark, value⟩
    · simp [attachedValue?]
    · by_cases equals : mark = '=' <;> simp [attachedValue?, equals]

/-! ## Shapes of words -/

/-- A word that is no option: an argument or a value. -/
def IsPlain (word : String) : Prop := ∀ c rest, word.toList ≠ '-' :: c :: rest

/-- A value is awaited when an option is pending without one. -/
theorem awaitsValue_iff : scan.awaitsValue = true ↔ ∃ slot, scan.pending = some (slot, none) := by
  rw [awaitsValue]
  rcases scan.pending with _ | ⟨slot, _ | value⟩ <;> simp

/-- A word is the mark before arguments, a long option, short options, or plain. -/
theorem shape_of_word (word : String) :
    word.toList = ['-', '-'] ∨ (∃ c name, word.toList = '-' :: '-' :: c :: name) ∨
      (∃ c letters, c ≠ '-' ∧ word.toList = '-' :: c :: letters) ∨ IsPlain word := by
  rw [IsPlain]
  rcases word.toList with _ | ⟨first, _ | ⟨second, rest⟩⟩
  · simp
  · simp
  · by_cases dash : first = '-'
    · subst dash
      by_cases two : second = '-'
      · subst two
        cases rest <;> simp
      · exact .inr (.inr (.inl ⟨second, rest, two, rfl⟩))
    · exact .inr (.inr (.inr (by simp [dash])))

/-- Behind the mark before arguments every word is an argument. -/
theorem takeWord_of_trailing (trailing : scan.trailing = true) :
    scan.takeWord scope word = scan.takeArgument scope word := by
  rw [takeWord, if_pos trailing]

/-- The mark before arguments is remembered. -/
theorem takeWord_mark (trailing : scan.trailing = false) (shape : word.toList = ['-', '-']) :
    scan.takeWord scope word = .ok { scan with trailing := true } := by
  simp [takeWord, trailing, shape]

/-- A word with two dashes is a long option. -/
theorem takeWord_long (trailing : scan.trailing = false) {c : Char} {name : Text}
    (shape : word.toList = '-' :: '-' :: c :: name) :
    scan.takeWord scope word = scan.takeLong scope (c :: name) := by
  simp [takeWord, trailing, shape]

/-- A word with one dash is short options. -/
theorem takeWord_short (trailing : scan.trailing = false) {c : Char} {letters : Text}
    (dash : c ≠ '-') (shape : word.toList = '-' :: c :: letters) :
    scan.takeWord scope word = scan.takeShort scope (c :: letters) := by
  rw [takeWord, if_neg (by simp [trailing]), shape]
  split <;> simp_all

/-- A plain word is empty, or a dash alone, or begins with another character. -/
theorem toList_of_isPlain (plain : IsPlain word) :
    word.toList = [] ∨ word.toList = ['-'] ∨ ∃ c rest, c ≠ '-' ∧ word.toList = c :: rest := by
  rcases form : word.toList with _ | ⟨first, rest⟩
  · exact .inl rfl
  · by_cases dash : first = '-'
    · subst dash
      cases rest with
      | nil => exact .inr (.inl rfl)
      | cons second rest => exact absurd form (plain second rest)
    · exact .inr (.inr ⟨first, rest, dash, rfl⟩)

/-- A plain word is the value of an option that waits for one. -/
theorem takeWord_value (trailing : scan.trailing = false) (plain : IsPlain word) {slot : Slot}
    (waiting : scan.pending = some (slot, none)) :
    scan.takeWord scope word = .ok { scan with pending := some (slot, some word) } := by
  obtain form | form | ⟨c, rest, dash, form⟩ := toList_of_isPlain plain
  · simp [takeWord, trailing, form, waiting]
  · simp [takeWord, trailing, form, waiting]
  · simp [takeWord, trailing, form, waiting, dash]

/-- Another plain word is an argument. -/
theorem takeWord_argument (trailing : scan.trailing = false) (plain : IsPlain word)
    (waiting : scan.awaitsValue = false) :
    scan.takeWord scope word = scan.takeArgument scope word := by
  rw [awaitsValue] at waiting
  rcases pending : scan.pending with _ | ⟨slot, _ | value⟩
  case some.none => simp [pending] at waiting
  all_goals
    obtain form | form | ⟨c, rest, dash, form⟩ := toList_of_isPlain plain
    · simp [takeWord, trailing, form, pending]
    · simp [takeWord, trailing, form, pending]
    · simp [takeWord, trailing, form, pending, dash]

/-! ## The file to read

A file is only ever given as the argument of the command. -/

/-- Whether there is no file yet, checked or not, unless the argument was read. -/
def FileIsArgument (scan : Scan) : Prop :=
  scan.argumentRead = false → scan.given.file = none ∧ ∀ value, scan.pending ≠ some (.file, value)

/-- Only the argument is recorded as the file. -/
theorem file_of_store {given stored : Given} {slot : Slot} {value : String}
    (h : given.store slot value = .ok stored) (other : slot ≠ .file) :
    stored.file = given.file := by
  cases slot <;> simp only [Given.store] at h <;> grind

/-- Raising a flag gives no file. -/
theorem file_of_raise {given raised : Given} {flag : Flag}
    (h : given.raise scope flag = .ok raised) : raised.file = given.file := by
  cases flag <;> simp only [Given.raise] at h <;> grind

/-- No option has the file as its value. -/
theorem ne_file_of_longOption? {name : String} {slot : Slot}
    (h : longOption? scope name = some (.inr slot)) : slot ≠ .file := by
  unfold longOption? at h
  grind

/-- No short option has the file as its value. -/
theorem ne_file_of_shortOption? {c : Char} {slot : Slot} (h : shortOption? c = some (.inr slot)) :
    slot ≠ .file := by
  unfold shortOption? at h
  grind

namespace FileIsArgument

/-- Settling keeps the file the argument. -/
theorem settle (h : scan.FileIsArgument) (settles : scan.settle = .ok settled) :
    settled.FileIsArgument := by
  obtain ⟨-, rfl⟩ | ⟨slot, value, given, pending, stored, rfl⟩ := settle_eq_ok_iff.1 settles
  · exact h
  · intro unread
    obtain ⟨missing, other⟩ := h unread
    have slotOther : slot ≠ .file := by
      rintro rfl
      exact other (some value) pending
    exact ⟨(file_of_store stored slotOther).trans missing, nofun⟩

/-- A flag keeps the file the argument. -/
theorem raise (h : scan.FileIsArgument) {flag : Flag} (raises : scan.raise scope flag = .ok next) :
    next.FileIsArgument := by
  obtain ⟨settled, given, settles, raised, rfl⟩ := raise_eq_ok_iff.1 raises
  intro unread
  obtain ⟨missing, other⟩ := h.settle settles unread
  exact ⟨(file_of_raise raised).trans missing, other⟩

/-- An option with a value keeps the file the argument. -/
theorem openSlot (h : scan.FileIsArgument) {slot : Slot} (slotOther : slot ≠ .file)
    {attached : Option String} (opens : scan.openSlot slot attached = .ok next) :
    next.FileIsArgument := by
  obtain ⟨settled, settles, ⟨-, rfl⟩ | ⟨value, given, -, stored, rfl⟩⟩ :=
    openSlot_eq_ok_iff.1 opens
  · intro unread
    refine ⟨(h.settle settles unread).1, fun value same => slotOther ?_⟩
    cases same
    rfl
  · intro unread
    obtain ⟨missing, other⟩ := h.settle settles unread
    exact ⟨(file_of_store stored slotOther).trans missing, other⟩

/-- Short options keep the file the argument. -/
theorem takeShort {letters : Text} (h : scan.FileIsArgument)
    (takes : scan.takeShort scope letters = .ok next) : next.FileIsArgument := by
  induction letters generalizing scan with
  | nil =>
    cases takes
    exact h
  | cons c letters ih =>
    obtain ⟨flag, middle, -, raises, later⟩ | ⟨slot, option, opens⟩ :=
      takeShort_cons_eq_ok_iff.1 takes
    · exact ih (h.raise raises) later
    · exact h.openSlot (ne_file_of_shortOption? option) opens

/-- Every word keeps the file the argument. -/
theorem takeWord (h : scan.FileIsArgument) (takes : scan.takeWord scope word = .ok next) :
    next.FileIsArgument := by
  have argument (takes : scan.takeArgument scope word = .ok next) : next.FileIsArgument := by
    obtain ⟨_, _, -, -, -, rfl⟩ := takeArgument_eq_ok_iff.1 takes
    exact nofun
  cases trailing : scan.trailing with
  | true => exact argument (takeWord_of_trailing trailing ▸ takes)
  | false =>
    obtain shape | ⟨c, name, shape⟩ | ⟨c, letters, dash, shape⟩ | plain := shape_of_word word
    · rw [takeWord_mark trailing shape] at takes
      cases takes
      exact h
    · rw [takeWord_long trailing shape] at takes
      obtain ⟨flag, -, -, raises⟩ | ⟨slot, option, opens⟩ := takeLong_eq_ok_iff.1 takes
      · exact h.raise raises
      · exact h.openSlot (ne_file_of_longOption? option) opens
    · rw [takeWord_short trailing dash shape] at takes
      exact h.takeShort takes
    · cases waiting : scan.awaitsValue with
      | false => exact argument (takeWord_argument trailing plain waiting ▸ takes)
      | true =>
        obtain ⟨slot, pending⟩ := awaitsValue_iff.1 waiting
        rw [takeWord_value trailing plain pending] at takes
        cases takes
        intro unread
        obtain ⟨missing, other⟩ := h unread
        refine ⟨missing, fun value same => ?_⟩
        cases same
        exact other none pending

/-- A run of words keeps the file the argument. -/
theorem takeWords {words : List String} (h : scan.FileIsArgument)
    (takes : words.foldlM (Scan.takeWord scope) scan = .ok next) : next.FileIsArgument := by
  induction words generalizing scan with
  | nil =>
    cases takes
    exact h
  | cons word words ih =>
    rw [List.foldlM_cons, bind_eq_ok_iff] at takes
    obtain ⟨middle, first, later⟩ := takes
    exact ih (h.takeWord first) later

end FileIsArgument

end Scan

end EntitySchema
