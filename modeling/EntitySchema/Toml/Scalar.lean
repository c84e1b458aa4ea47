import EntitySchema.Toml.Value

/-! # TOML scalars

Keys, texts, numbers, truth values and dates are taken from the front of a text: a function gives
what it recognized with the rest of the text, or fails. -/

namespace EntitySchema.Toml

/-! ## Characters -/

/-- Whether a character separates parts on one line. -/
def isSpace (c : Char) : Bool := c == ' ' || c == '\t'

/-- Whether a character may stand in a comment or a text: anything but a control other than tab. -/
def isPrintable (c : Char) : Bool := c == '\t' || (0x20 ≤ c.toNat && c.toNat != 0x7F)

/-- A text without the spaces and tabs at its front. -/
def skipSpaces (text : Text) : Text := text.dropWhile isSpace

/-- A text without the spaces, newlines and comments at its front. -/
def skipTrivia (inComment : Bool) : Text → Text
  | [] => []
  | c :: rest =>
    if inComment && isPrintable c then skipTrivia true rest
    else if isSpace c || c == '\n' then skipTrivia false rest
    else if c == '\r' && rest.head? == some '\n' then skipTrivia false rest
    else if c == '#' then skipTrivia true rest
    else c :: rest

/-- The rest after a newline at the front. -/
def takeNewline? : Text → Option Text
  | '\n' :: rest => some rest
  | '\r' :: '\n' :: rest => some rest
  | _ => none

/-- The rest after the end of a line: spaces, perhaps a comment, and a newline unless the text ends. -/
def takeLineEnd (text : Text) : Option Text :=
  let text := match skipSpaces text with
    | '#' :: rest => rest.dropWhile isPrintable
    | text => text
  match text with
  | [] => some []
  | text => takeNewline? text

/-! ## Texts -/

/-- The value of a hexadecimal digit. -/
def hexValue? (c : Char) : Option Nat :=
  if '0' ≤ c && c ≤ '9' then some (c.toNat - 0x30)
  else if 'a' ≤ c && c ≤ 'f' then some (c.toNat - 0x61 + 10)
  else if 'A' ≤ c && c ≤ 'F' then some (c.toNat - 0x41 + 10)
  else none

/-- The character with the code that some hexadecimal digits give. -/
def codePoint? (digits : List Char) : Option Char := do
  let values ← digits.mapM hexValue?
  let code := values.foldl (fun code digit => 16 * code + digit) 0
  if code < 0xD800 || (0xDFFF < code && code < 0x110000) then some (Char.ofNat code) else none

/-- The character for which a letter stands after a backslash. -/
def escape? : Char → Option Char
  | 'b' => some '\x08'
  | 't' => some '\t'
  | 'n' => some '\n'
  | 'f' => some '\x0c'
  | 'r' => some '\r'
  | '"' => some '"'
  | '\\' => some '\\'
  | _ => none

/-- The character of an escape, whose backslash has been taken. -/
def takeEscape : Text → Option (Char × Text)
  | 'u' :: rest => do
    if (rest.take 4).length = 4 then
      return (← codePoint? (rest.take 4), rest.drop 4)
    else none
  | 'U' :: rest => do
    if (rest.take 8).length = 8 then
      return (← codePoint? (rest.take 8), rest.drop 8)
    else none
  | letter :: rest => (escape? letter).map (·, rest)
  | [] => none

/-- An escape is at least one character long. -/
theorem length_takeEscape {text rest : Text} {c : Char} (h : takeEscape text = some (c, rest)) :
    rest.length < text.length := by
  unfold takeEscape at h
  split at h
  · split at h
    · obtain ⟨value, -, hv⟩ := Option.bind_eq_some_iff.1 h
      cases hv
      simp only [List.length_drop, List.length_cons]
      omega
    · cases h
  · split at h
    · obtain ⟨value, -, hv⟩ := Option.bind_eq_some_iff.1 h
      cases hv
      simp only [List.length_drop, List.length_cons]
      omega
    · cases h
  · obtain ⟨value, -, hv⟩ := Option.map_eq_some_iff.1 h
    cases hv
    simp
  · cases h

/-- The rest of a text in quotes on one line, whose opening quote has been taken. -/
def takeBasic (text : Text) : Option (Text × Text) :=
  match text with
  | [] => none
  | '"' :: rest => some ([], rest)
  | '\\' :: rest =>
    match _h : takeEscape rest with
    | none => none
    | some (c, rest) => (takeBasic rest).map fun (chars, rest) => (c :: chars, rest)
  | c :: rest =>
    if isPrintable c then (takeBasic rest).map fun (chars, rest) => (c :: chars, rest) else none
termination_by text.length
decreasing_by
  · have := length_takeEscape _h
    simp only [List.length_cons]
    omega
  · simp

/-- A text without the spaces and newlines at its front. -/
def skipBlankLines : Text → Text
  | [] => []
  | '\r' :: '\n' :: rest => skipBlankLines rest
  | c :: rest => if isSpace c || c == '\n' then skipBlankLines rest else c :: rest

/-- Skipping does not make a text longer. -/
theorem length_skipBlankLines (text : Text) : (skipBlankLines text).length ≤ text.length := by
  fun_induction skipBlankLines text <;> grind

/-- The rest after a backslash at the end of a line: the newline and all blanks after it. -/
def takeContinuation (text : Text) : Option Text :=
  (takeNewline? (skipSpaces text)).map skipBlankLines

/-- A continuation does not make a text longer. -/
theorem length_takeContinuation {text rest : Text} (h : takeContinuation text = some rest) :
    rest.length ≤ text.length := by
  obtain ⟨line, hl, rfl⟩ := Option.map_eq_some_iff.1 h
  have hspaces : (skipSpaces text).length ≤ text.length := (List.dropWhile_sublist _).length_le
  have hline : line.length ≤ (skipSpaces text).length := by
    unfold takeNewline? at hl
    split at hl
    · next heq => cases hl; simp [heq]
    · next heq => cases hl; simp [heq]; omega
    · cases hl
  exact Nat.le_trans (length_skipBlankLines line) (Nat.le_trans hline hspaces)

/-- The rest of a text in three quotes, whose opening has been taken. The closing quotes may follow
up to two quotes that belong to the text. -/
def takeMultilineBasic (text : Text) : Option (Text × Text) :=
  match text with
  | [] => none
  | '"' :: '"' :: '"' :: '"' :: '"' :: rest => some (['"', '"'], rest)
  | '"' :: '"' :: '"' :: '"' :: rest => some (['"'], rest)
  | '"' :: '"' :: '"' :: rest => some ([], rest)
  | '\r' :: '\n' :: rest =>
    (takeMultilineBasic rest).map fun (chars, rest) => ('\n' :: chars, rest)
  | '\\' :: rest =>
    match _h : takeContinuation rest with
    | some rest => takeMultilineBasic rest
    | none =>
      match _h' : takeEscape rest with
      | none => none
      | some (c, rest) => (takeMultilineBasic rest).map fun (chars, rest) => (c :: chars, rest)
  | c :: rest =>
    if isPrintable c || c == '\n' then
      (takeMultilineBasic rest).map fun (chars, rest) => (c :: chars, rest)
    else none
termination_by text.length
decreasing_by
  · simp only [List.length_cons]; omega
  · have := length_takeContinuation _h
    simp only [List.length_cons]
    omega
  · have := length_takeEscape _h'
    simp only [List.length_cons]
    omega
  · simp

/-- The rest of a text in apostrophes on one line, whose opening has been taken. -/
def takeLiteral : Text → Option (Text × Text)
  | [] => none
  | '\'' :: rest => some ([], rest)
  | c :: rest =>
    if isPrintable c then (takeLiteral rest).map fun (chars, rest) => (c :: chars, rest) else none

/-- The rest of a text in three apostrophes, whose opening has been taken. -/
def takeMultilineLiteral : Text → Option (Text × Text)
  | [] => none
  | '\'' :: '\'' :: '\'' :: '\'' :: '\'' :: rest => some (['\'', '\''], rest)
  | '\'' :: '\'' :: '\'' :: '\'' :: rest => some (['\''], rest)
  | '\'' :: '\'' :: '\'' :: rest => some ([], rest)
  | '\r' :: '\n' :: rest =>
    (takeMultilineLiteral rest).map fun (chars, rest) => ('\n' :: chars, rest)
  | c :: rest =>
    if isPrintable c || c == '\n' then
      (takeMultilineLiteral rest).map fun (chars, rest) => (c :: chars, rest)
    else none

/-- A text without a newline at its front. -/
def dropNewline (text : Text) : Text := (takeNewline? text).getD text

/-- A text in any of the four kinds of quotes. -/
def takeString : Text → Option (String × Text)
  | '"' :: '"' :: '"' :: rest =>
    (takeMultilineBasic (dropNewline rest)).map fun (chars, rest) => (String.ofList chars, rest)
  | '"' :: rest => (takeBasic rest).map fun (chars, rest) => (String.ofList chars, rest)
  | '\'' :: '\'' :: '\'' :: rest =>
    (takeMultilineLiteral (dropNewline rest)).map fun (chars, rest) => (String.ofList chars, rest)
  | '\'' :: rest => (takeLiteral rest).map fun (chars, rest) => (String.ofList chars, rest)
  | _ => none

/-! ## Keys -/

/-- Whether a character may stand in a key without quotes. -/
def isBareKeyChar (c : Char) : Bool := c.isAlphanum || c == '_' || c == '-'

/-- One part of a key. -/
def takeKeyPart (text : Text) : Option (String × Text) :=
  match text with
  | '"' :: rest => (takeBasic rest).map fun (chars, rest) => (String.ofList chars, rest)
  | '\'' :: rest => (takeLiteral rest).map fun (chars, rest) => (String.ofList chars, rest)
  | text =>
    let bare := text.takeWhile isBareKeyChar
    if bare.isEmpty then none else some (String.ofList bare, text.dropWhile isBareKeyChar)

/-- The greatest number of parts of a key and of lists inside each other. -/
def maxNesting : Nat := 79

/-- The parts of a key, at most as many as allowed, with dots and spaces between them. -/
def takeKeyParts : Nat → Text → Option (List String × Text)
  | 0, _ => none
  | allowed + 1, text => do
    let (part, rest) ← takeKeyPart (skipSpaces text)
    match skipSpaces rest with
    | '.' :: rest =>
      let (parts, rest) ← takeKeyParts allowed rest
      return (part :: parts, rest)
    | rest => return ([part], rest)

/-- A key with the spaces around it. -/
def takeKey (text : Text) : Option (KeyPath × Text) := do
  let (parts, rest) ← takeKeyParts maxNesting text
  let last ← parts.getLast?
  return (⟨parts.dropLast, last⟩, rest)

/-! ## Numbers -/

/-- The further digits of a number, where an underscore may stand between two digits. -/
def takeMoreDigits (isDigit : Char → Bool) : Text → Option (Text × Text)
  | [] => some ([], [])
  | ['_'] => none
  | '_' :: c :: rest =>
    if isDigit c then
      (takeMoreDigits isDigit rest).map fun (digits, rest) => (c :: digits, rest)
    else none
  | c :: rest =>
    if isDigit c then
      (takeMoreDigits isDigit rest).map fun (digits, rest) => (c :: digits, rest)
    else some ([], c :: rest)

/-- The digits of a number, at least one. -/
def takeDigits (isDigit : Char → Bool) : Text → Option (Text × Text)
  | c :: rest =>
    if isDigit c then
      (takeMoreDigits isDigit rest).map fun (digits, rest) => (c :: digits, rest)
    else none
  | [] => none

/-- The value of some digits in a base. -/
def digitsValue (base : Nat) (digits : Text) : Nat :=
  digits.foldl (fun value digit => base * value + (hexValue? digit).getD 0) 0

/-- The digits of a whole number: a zero alone, or digits that begin with another. -/
def takeWhole : Text → Option (Text × Text)
  | '0' :: rest => some (['0'], rest)
  | text => takeDigits Char.isDigit text

/-- The sign at the front of a number, if there is one, and whether it is a minus. -/
def takeSign : Text → Bool × Text
  | '-' :: rest => (true, rest)
  | '+' :: rest => (false, rest)
  | text => (false, text)

/-- The greatest whole number of a document; the least is one further from zero. -/
def maxInteger : Int := 0x7FFFFFFFFFFFFFFF

/-- A whole number that fits into 64 bits. -/
def fitting (value : Int) : Option Toml :=
  if -maxInteger - 1 ≤ value ∧ value ≤ maxInteger then some (.integer value) else none

/-- A whole number in another base, whose prefix has been taken. -/
def takeBased (base : Nat) (isDigit : Char → Bool) (text : Text) : Option (Toml × Text) := do
  let (digits, rest) ← takeDigits isDigit text
  return (← fitting (digitsValue base digits), rest)

/-- The exponent of a number, whose letter has been taken. -/
def takeExponent (text : Text) : Option (Int × Text) := do
  let (negative, rest) := takeSign text
  let (digits, rest) ← takeDigits Char.isDigit rest
  let value := digitsValue 10 digits
  return (if negative then -value else value, rest)

/-- Whether digits times a power of ten are too large for a double-precision number. -/
def overflows (digits : Text) (exponent : Int) : Bool :=
  let value := digitsValue 10 digits
  let limit := Nat.pow 2 1024 - Nat.pow 2 970
  let places := (digits.dropWhile (· == '0')).length + exponent
  if value = 0 ∨ places < 300 then false
  else if 320 < places then true
  else if 0 ≤ exponent then limit ≤ value * Nat.pow 10 exponent.toNat
  else limit * Nat.pow 10 (-exponent).toNat ≤ value

/-- The digits of a fraction and the exponent after the whole part of a number, if it has either. -/
def takeDecimals : Text → Option (Option (Text × Int) × Text)
  | '.' :: rest => do
    let (fraction, rest) ← takeDigits Char.isDigit rest
    match rest with
    | c :: further =>
      if c = 'e' ∨ c = 'E' then do
        let (exponent, rest) ← takeExponent further
        return (some (fraction, exponent), rest)
      else return (some (fraction, 0), rest)
    | [] => return (some (fraction, 0), rest)
  | c :: rest =>
    if c = 'e' ∨ c = 'E' then do
      let (exponent, rest) ← takeExponent rest
      return (some ([], exponent), rest)
    else some (none, c :: rest)
  | [] => some (none, [])

/-- The front of a text up to its given rest. -/
def written (text rest : Text) : String := String.ofList (text.take (text.length - rest.length))

/-- A number in base ten, perhaps with a sign. -/
def takeDecimal (text : Text) : Option (Toml × Text) := do
  let (negative, unsigned) := takeSign text
  match unsigned with
  | 'i' :: 'n' :: 'f' :: rest => return (.float (written text rest), rest)
  | 'n' :: 'a' :: 'n' :: rest => return (.float (written text rest), rest)
  | unsigned =>
    let (whole, rest) ← takeWhole unsigned
    match ← takeDecimals rest with
    | (none, rest) =>
      let value : Int := digitsValue 10 whole
      return (← fitting (if negative then -value else value), rest)
    | (some (fraction, exponent), rest) =>
      if !negative && overflows (whole ++ fraction) (exponent - fraction.length) then none
      else return (.float (written text rest), rest)

/-- A number. -/
def takeNumber : Text → Option (Toml × Text)
  | '0' :: 'x' :: rest => takeBased 16 (fun c => (hexValue? c).isSome) rest
  | '0' :: 'o' :: rest => takeBased 8 (fun c => '0' ≤ c && c ≤ '7') rest
  | '0' :: 'b' :: rest => takeBased 2 (fun c => c == '0' || c == '1') rest
  | text => takeDecimal text

/-! ## Dates and times -/

/-- A number of exactly `count` digits between two bounds. -/
def takeFixed (count low high : Nat) (text : Text) : Option (Nat × Text) :=
  let digits := text.take count
  let value := digitsValue 10 digits
  if digits.length = count && digits.all Char.isDigit && low ≤ value && value ≤ high then
    some (value, text.drop count)
  else none

/-- The rest after exactly one given character. -/
def takeChar (expected : Char) : Text → Option Text
  | c :: rest => if c = expected then some rest else none
  | [] => none

/-- The number of days of a month. -/
def daysInMonth (year month : Nat) : Nat :=
  if month = 2 then
    if year % 4 = 0 ∧ (year % 100 ≠ 0 ∨ year % 400 = 0) then 29 else 28
  else if month = 4 ∨ month = 6 ∨ month = 9 ∨ month = 11 then 30
  else 31

/-- The rest after a date, of which the year and the dash after it have been taken. -/
def skipMonthDay (year : Nat) (text : Text) : Option Text := do
  let (month, rest) ← takeFixed 2 1 12 text
  let rest ← takeChar '-' rest
  let (_, rest) ← takeFixed 2 1 (daysInMonth year month) rest
  return rest

/-- The rest after the fraction of a second, if there is one. -/
def skipSecondFraction : Text → Text
  | '.' :: c :: rest => if c.isDigit then rest.dropWhile Char.isDigit else '.' :: c :: rest
  | text => text

/-- The rest after minutes and seconds, of which the hour and the colon after it were taken. -/
def skipMinuteSecond (text : Text) : Option Text := do
  let (_, rest) ← takeFixed 2 0 59 text
  let rest ← takeChar ':' rest
  let (_, rest) ← takeFixed 2 0 60 rest
  return skipSecondFraction rest

/-- The rest after an hour and a colon. -/
def skipHour? (text : Text) : Option Text := do
  let (_, rest) ← takeFixed 2 0 23 text
  takeChar ':' rest

/-- The rest after the offset from universal time, if there is one. -/
def skipZone : Text → Option Text
  | 'Z' :: rest => some rest
  | 'z' :: rest => some rest
  | c :: rest =>
    if c = '+' ∨ c = '-' then do
      let rest ← skipHour? rest
      let (_, rest) ← takeFixed 2 0 59 rest
      return rest
    else some (c :: rest)
  | [] => some []

/-- The rest after the time of day that may follow a date. -/
def skipTimeOfDate (text : Text) : Option Text :=
  match text with
  | [] => some []
  | delimiter :: rest =>
    if delimiter = 'T' ∨ delimiter = 't' ∨ delimiter = ' ' then
      match skipHour? rest with
      | none => some text
      | some rest => do skipZone (← skipMinuteSecond rest)
    else some text

/-- Whether a text begins like a date: four digits and a dash. -/
def beginsDate (text : Text) : Bool :=
  (text.take 4).length = 4 && (text.take 4).all Char.isDigit && (text.drop 4).head? == some '-'

/-- A date, a time, or a date with a time. -/
def takeDatetime (text : Text) : Option (Toml × Text) := do
  let rest ←
    if beginsDate text then do
      skipTimeOfDate (← skipMonthDay (digitsValue 10 (text.take 4)) (text.drop 5))
    else do skipMinuteSecond (← skipHour? text)
  return (.datetime (written text rest), rest)

/-- Whether a text begins like a date or a time. -/
def beginsDatetime (text : Text) : Bool := beginsDate text || (skipHour? text).isSome

/-! ## Scalars -/

/-- Any value but a list or a table. -/
def takeScalar (text : Text) : Option (Toml × Text) :=
  match text with
  | 't' :: 'r' :: 'u' :: 'e' :: rest => some (.boolean true, rest)
  | 'f' :: 'a' :: 'l' :: 's' :: 'e' :: rest => some (.boolean false, rest)
  | text =>
    match takeString text with
    | some (value, rest) => some (.string value, rest)
    | none => if beginsDatetime text then takeDatetime text else takeNumber text

end EntitySchema.Toml
