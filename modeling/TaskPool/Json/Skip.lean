import TaskPool.Json.Numeral

/-!
Passing over a value that nobody wants: its form is checked, but it may nest
to any depth and mean anything.
-/

namespace TaskPool.Json

/-- Passes over an escape behind its backslash, where a code may stand for one half of a pair. -/
def skipEscape : List Char → Except Fault (List Char)
  | [] => .error (.behind .textCut [])
  | 'u' :: rest => (readUnit rest).map (·.2)
  | c :: rest => if (simpleEscape? c).isSome then .ok rest
      else .error (.here .badEscape (c :: rest))

/-- An escape that was passed is gone from the text. -/
theorem skipEscape_length {text rest : List Char} (read : skipEscape text = .ok rest) :
    rest.length < text.length := by
  -- An escape is one letter, or a letter with a code behind it.
  unfold skipEscape at read
  split at read
  · simp at read
  · rename_i after
    cases found : readUnit after with
    | error fault => simp [found, Except.map] at read
    | ok pair =>
      have := readUnit_length (show readUnit after = .ok (pair.1, pair.2) from found)
      simp [found, Except.map] at read
      simp [← read]
      omega
  · split at read <;> simp at read
    simp [← read]

/-- Passes over a string behind its opening quote. -/
def skipString (text : List Char) : Except Fault (List Char) :=
  match text with
  | [] => .error (.behind .textCut [])
  | '"' :: rest => .ok rest
  | '\\' :: rest =>
    match _ : skipEscape rest with
    | .error fault => .error fault
    | .ok rest => skipString rest
  | c :: rest => if c.toNat < 0x20 then .error (.behind .controlInText (c :: rest))
      else skipString rest
termination_by text.length
decreasing_by
  · have := skipEscape_length ‹_›
    simp
    omega
  · simp

/-- A string that was passed is gone from the text. -/
theorem skipString_length {text rest : List Char} (read : skipString text = .ok rest) :
    rest.length < text.length := by
  -- One step takes a character or an escape, and the rest is shorter still.
  fun_induction skipString text with
  | case1 => simp at read
  | case2 => simp_all
  | case3 => simp at read
  | case4 _ _ found ih =>
    have := skipEscape_length found
    have := ih read
    simp
    omega
  | case5 => simp at read
  | case6 _ _ _ _ _ ih =>
    have := ih read
    simp
    omega

/-- Passes over an exponent, if the text goes on with one. -/
def skipExponent (text : List Char) : Except Fault (List Char) :=
  if startsExponent text then
    match (powerSign (text.drop 1)).2 with
    | [] => .error (.here .badNumber [])
    | c :: rest => if isDigit c then .ok (rest.dropWhile isDigit)
        else .error (.here .badNumber (c :: rest))
  else .ok text

/-- Passes over a point and its digits, if the text goes on with them, and then over an exponent. -/
def skipFraction (text : List Char) : Except Fault (List Char) :=
  match text with
  | '.' :: rest =>
    if rest.takeWhile isDigit = [] then .error (.here .badNumber rest)
    else skipExponent (rest.dropWhile isDigit)
  | text => skipExponent text

/-- Passes over a number of any size behind its minus sign, if it has one. -/
def skipNumber : List Char → Except Fault (List Char)
  | [] => .error (.here .badNumber [])
  | c :: rest =>
    if c = '0' then
      if (rest.head?.map isDigit).getD false then .error (.here .badNumber rest)
        else skipFraction rest
    else if isDigit c then skipFraction (rest.dropWhile isDigit)
    else .error (.here .badNumber (c :: rest))

/-- Passing an exponent never makes a text longer. -/
theorem skipExponent_length {text rest : List Char} (read : skipExponent text = .ok rest) :
    rest.length ≤ text.length := by
  -- Where there is an exponent, its mark and its sign go first.
  have sign := powerSign_length (text.drop 1)
  unfold skipExponent at read
  split at read
  · split at read
    · simp at read
    · rename_i after passed
      rw [passed] at sign
      split at read <;> simp at read
      have := dropWhile_length isDigit after
      simp at sign
      simp [← read]
      omega
  · simp at read
    simp [read]

/-- Passing a fraction never makes a text longer. -/
theorem skipFraction_length {text rest : List Char} (read : skipFraction text = .ok rest) :
    rest.length ≤ text.length := by
  -- Where there is a point, it goes first, and then its digits.
  unfold skipFraction at read
  split at read
  · rename_i after
    split at read
    · simp at read
    · have := skipExponent_length read
      have := dropWhile_length isDigit after
      simp
      omega
  · exact skipExponent_length read

/-- A number that was passed is gone from the text. -/
theorem skipNumber_length {text rest : List Char} (read : skipNumber text = .ok rest) :
    rest.length < text.length := by
  -- The first digit is gone in any case.
  unfold skipNumber at read
  split at read
  · simp at read
  · rename_i c after
    split at read
    · split at read
      · simp at read
      · have := skipFraction_length read
        simp
        omega
    · split at read
      · have := skipFraction_length read
        have := dropWhile_length isDigit after
        simp
        omega
      · simp at read

/-- A word that was read is gone from the text. -/
theorem readWord_length {word text rest : List Char} (read : readWord word text = .ok rest) :
    rest.length ≤ text.length := by
  -- Each letter of the word is taken off the front.
  induction word generalizing text with
  | nil => simp_all [readWord]
  | cons wanted word ih =>
    cases text with
    | nil => simp [readWord] at read
    | cons c text =>
      simp only [readWord] at read
      split at read
      · have := ih read
        simp
        omega
      · simp at read

/-- A bracket that is still open: of a list, or of an object. -/
inductive Bracket where
  | list
  | object
deriving DecidableEq, Repr

namespace Bracket

/-- The character that closes a bracket. -/
def closing : Bracket → Char
  | .list => ']'
  | .object => '\x7d'

/-- The fault when the text ends inside a bracket. -/
def cut : Bracket → Cause
  | .list => .listCut
  | .object => .objectCut

/-- The fault when neither a comma nor the end follows inside a bracket. -/
def noComma : Bracket → Cause
  | .list => .noListComma
  | .object => .noObjectComma

end Bracket

/-- Passes over a key and its colon, in front of any blanks. -/
def skipKey (text : List Char) : Except Fault (List Char) :=
  match skipBlanks text with
  | [] => .error (.here .objectCut [])
  | c :: rest =>
    if c = '"' then
      match skipString rest with
      | .error fault => .error fault
      | .ok rest =>
        match skipBlanks rest with
        | [] => .error (.here .objectCut [])
        | c :: rest => if c = ':' then .ok rest else .error (.here .noColon (c :: rest))
    else .error (.here .badKey (c :: rest))

/-- A key that was passed is gone from the text. -/
theorem skipKey_length {text rest : List Char} (read : skipKey text = .ok rest) :
    rest.length < text.length := by
  -- The quote and the colon are gone, with all that stands between them.
  have blanks := skipBlanks_length text
  unfold skipKey at read
  split at read
  · simp at read
  · rename_i c after skipped
    rw [skipped] at blanks
    simp at blanks
    split at read
    · split at read
      · simp at read
      · rename_i found
        have first := skipString_length found
        rename_i behind
        have second := skipBlanks_length behind
        split at read
        · simp at read
        · rename_i last
          rw [last] at second
          split at read <;> simp at read
          simp at second
          simp [← read]
          omega
    · simp at read

/--
Passes over what must come in front of a value inside a bracket: a key in an
object, nothing in a list.
-/
def skipEntry : Bracket → List Char → Except Fault (List Char)
  | .list, text => .ok text
  | .object, text => skipKey text

/-- Passing what comes in front of a value never makes a text longer. -/
theorem skipEntry_length {bracket : Bracket} {text rest : List Char}
    (read : skipEntry bracket text = .ok rest) : rest.length ≤ text.length := by
  -- An item has nothing in front of it, and a member has its key.
  cases bracket with
  | list =>
    simp only [skipEntry, Except.ok.injEq] at read
    simp [read]
  | object => exact Nat.le_of_lt (skipKey_length read)

/-- Passes over a value without parts, behind its first character. -/
def skipScalar (first : Char) (rest : List Char) : Except Fault (List Char) :=
  match first with
  | 'n' => readWord ['u', 'l', 'l'] rest
  | 't' => readWord ['r', 'u', 'e'] rest
  | 'f' => readWord ['a', 'l', 's', 'e'] rest
  | '-' => skipNumber rest
  | '"' => skipString rest
  | c => if isDigit c then skipNumber (c :: rest) else .error (.here .noValue (c :: rest))

/-- A value without parts that was passed is gone from the text. -/
theorem skipScalar_length {first : Char} {text rest : List Char}
    (read : skipScalar first text = .ok rest) :
    rest.length ≤ text.length := by
  -- The first character tells which kind of value it is.
  unfold skipScalar at read
  split at read
  · exact readWord_length read
  · exact readWord_length read
  · exact readWord_length read
  · exact Nat.le_of_lt (skipNumber_length read)
  · exact Nat.le_of_lt (skipString_length read)
  · split at read
    · have := skipNumber_length read
      simp at this
      omega
    · simp at read

/-- What a half-passed value expects next. -/
inductive Expecting where
  /-- A value. -/
  | value
  /--
  The end of the innermost bracket; or its first value if it is fresh,
  or else a comma and the next one.
  -/
  | close (fresh : Bool)
deriving DecidableEq, Repr

/--
Passes over the rest of a half-passed value, where the brackets that are still open
are listed from the inside.

No call waits for another one, so a value may nest to any depth.
-/
def skipOpen (expecting : Expecting) (brackets : List Bracket) (text : List Char) :
    Except Fault (List Char) :=
  match expecting, brackets with
  | .value, brackets =>
    match _ : skipBlanks text with
    | [] => .error (.here .valueCut [])
    | '[' :: rest => skipOpen (.close true) (.list :: brackets) rest
    | '\x7b' :: rest => skipOpen (.close true) (.object :: brackets) rest
    | c :: rest =>
      match _ : skipScalar c rest with
      | .error fault => .error fault
      | .ok rest => skipOpen (.close false) brackets rest
  | .close _, [] => .ok text
  | .close fresh, bracket :: brackets =>
    match _ : skipBlanks text with
    | [] => .error (.here bracket.cut [])
    | c :: rest =>
      if c = bracket.closing then skipOpen (.close false) brackets rest
      else if fresh then
        match _ : skipEntry bracket (c :: rest) with
        | .error fault => .error fault
        | .ok rest => skipOpen .value (bracket :: brackets) rest
      else if c = ',' then
        match _ : skipEntry bracket rest with
        | .error fault => .error fault
        | .ok rest => skipOpen .value (bracket :: brackets) rest
      else .error (.here bracket.noComma (c :: rest))
termination_by (text.length, if expecting = .value then 0 else 1)
decreasing_by
  all_goals
    have blanks := skipBlanks_length text
    rw [‹skipBlanks text = _›] at blanks
    simp at blanks
    try have := skipScalar_length ‹skipScalar _ _ = _›
    try have := skipEntry_length ‹skipEntry _ _ = _›
    simp [Prod.lex_def] at *
    omega

/-- Passes over one value in front of any blanks. -/
def skipValue (text : List Char) : Except Fault (List Char) := skipOpen .value [] text

/--
A half-passed value that was passed leaves no more than it had, and less if a whole value was due.
-/
theorem skipOpen_length {expecting : Expecting} {brackets : List Bracket} {text rest : List Char}
    (read : skipOpen expecting brackets text = .ok rest) :
    rest.length + (if expecting = .value then 1 else 0) ≤ text.length := by
  -- Where a value is expected, its first character is gone as well.
  fun_induction skipOpen expecting brackets text with
  | case1 => simp at read
  | case2 text _ after found ih =>
    have := skipBlanks_length text
    have := ih read
    simp_all
    omega
  | case3 text _ after found ih =>
    have := skipBlanks_length text
    have := ih read
    simp_all
    omega
  | case4 => simp at read
  | case5 text _ c after found _ _ rest passed ih =>
    have := skipBlanks_length text
    have := skipScalar_length passed
    have := ih read
    simp_all
    omega
  | case6 => simp_all
  | case7 => simp at read
  | case8 text _ _ _ after found ih =>
    have := skipBlanks_length text
    have := ih read
    simp_all
    omega
  | case9 => simp at read
  | case10 text _ _ c after found _ rest passed ih =>
    have := skipBlanks_length text
    have := skipEntry_length passed
    have := ih read
    simp_all
    omega
  | case11 => simp at read
  | case12 text _ _ _ _ _ _ passed _ _ ih =>
    have := skipBlanks_length text
    have := skipEntry_length passed
    have := ih read
    simp_all
    omega
  | case13 => simp at read

/-- A value that was passed is gone from the text. -/
theorem skipValue_length {text rest : List Char} (read : skipValue text = .ok rest) :
    rest.length < text.length := by
  -- At the outset a value is expected, and no bracket is open.
  have := skipOpen_length read
  simp at this
  omega

end TaskPool.Json
