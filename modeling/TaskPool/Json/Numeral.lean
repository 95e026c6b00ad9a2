import TaskPool.Json.Lexeme

/-!
Numbers in a JSON text: whole ones that fit a machine word are kept exactly,
all others become floating.
-/

namespace TaskPool.Json

/-- A number that was read: a whole one, or a floating one. -/
inductive Numeral where
  | whole (value : Int)
  | float (value : Float)

/-- Whether a character is a decimal digit. -/
def isDigit (c : Char) : Bool := '0' ≤ c && c ≤ '9'

/-- The value of a decimal digit. -/
def digitValue (c : Char) : Nat := c.toNat - 48

/--
Takes digits into a significand as long as it stays below the word limit,
and returns those left over.
-/
def absorb (significand : Nat) : List Char → Nat × List Char
  | [] => (significand, [])
  | c :: digits =>
    if significand * 10 + digitValue c <
      UInt64.size then absorb (significand * 10 + digitValue c) digits
    else (significand, c :: digits)

/-- Ten to a power that is at most 308. -/
def tenTo (power : Nat) : Float := Float.ofScientific 1 false power

/--
A floating number times a power of ten, or nothing when it passes the largest finite one.

Only powers up to 308 are at hand, so a lower one is reached in several divisions.
-/
def scale (value : Float) (power : Int) : Option Float :=
  if power.natAbs ≤ 308 then
    if 0 ≤ power then
      let raised := value * tenTo power.natAbs
      if raised.isInf then none else some raised
    else some (value / tenTo power.natAbs)
  else if value == 0 then some value
  else if 0 ≤ power then none
  else scale (value / tenTo 308) (power + 308)
termination_by power.natAbs
decreasing_by omega

/-- A floating number with a sign. -/
def signed (negative : Bool) (value : Float) : Numeral :=
  .float (if negative then -value else value)

/--
The floating number for a significand and a power of ten, where the given text is left to read.
-/
def finishFloat (negative : Bool) (significand : Nat) (power : Int) (rest : List Char) :
    Except Fault (Numeral × List Char) :=
  match scale (UInt64.ofNat significand).toFloat power with
  | some value => .ok (signed negative value, rest)
  | none => .error (.behind .numberTooLarge rest)

/--
The whole number for a significand, which is floating for a negative zero
or one below the signed word.
-/
def finishWhole (negative : Bool) (significand : Nat) : Numeral :=
  if !negative then .whole significand
  else if 0 < significand && significand ≤ UInt64.size / 2 then .whole (-significand)
  else signed true (UInt64.ofNat significand).toFloat

/--
Reads the digits in front of a point or an exponent: a zero alone, or digits
that do not begin with one.
-/
def readWhole : List Char → Except Fault (List Char × List Char)
  | [] => .error (.behind .valueCut [])
  | c :: rest =>
    if c = '0' then
      if (rest.head?.map isDigit).getD false then .error (.here .badNumber rest)
        else .ok ([c], rest)
    else if isDigit c then .ok (c :: rest.takeWhile isDigit, rest.dropWhile isDigit)
    else .error (.here .badNumber (c :: rest))

/-- Reads the digits behind a point, of which there must be one. -/
def readFraction (text : List Char) : Except Fault (List Char × List Char) :=
  if text.takeWhile isDigit = [] then
    .error (.here (if text = [] then .valueCut else .badNumber) text)
  else .ok (text.takeWhile isDigit, text.dropWhile isDigit)

/--
Reads the digits of an exponent, and says where it passed the signed word
of thirty-two bits, if it did.
-/
def readPower (power : Nat) : List Char → Except (List Char) (Nat × List Char)
  | [] => .ok (power, [])
  | c :: rest =>
    if isDigit c then
      if power * 10 + digitValue c < UInt32.size / 2 then readPower (power * 10 + digitValue c) rest
        else .error rest
    else .ok (power, c :: rest)

/-- The text behind the sign of an exponent, and whether the sign is a minus. -/
def powerSign : List Char → Bool × List Char
  | '+' :: rest => (false, rest)
  | '-' :: rest => (true, rest)
  | text => (false, text)

/-- Reads an exponent behind its letter. -/
def readExponent (negative : Bool) (significand : Nat) (power : Int) (text : List Char) :
    Except Fault (Numeral × List Char) :=
  match powerSign text with
  | (_, []) => .error (.behind .valueCut [])
  | (down, c :: rest) =>
    if isDigit c then
      match readPower (digitValue c) rest with
      | .ok (shift, rest) =>
        finishFloat negative significand (if down then power - shift else power + shift) rest
      | .error rest =>
        -- An exponent that no word holds makes zero, unless it raises something.
        if significand ≠ 0 && !down then .error (.behind .numberTooLarge rest)
        else .ok (signed negative 0, rest.dropWhile isDigit)
    else .error (.here .badNumber (c :: rest))

/-- Whether a text goes on with an exponent. -/
def startsExponent (text : List Char) : Bool :=
  match text with
  | c :: _ => c = 'e' || c = 'E'
  | [] => false

/-- Reads what follows the digits around the point. -/
def readScaled (negative : Bool) (significand : Nat) (power : Int) (text : List Char) :
    Except Fault (Numeral × List Char) :=
  if startsExponent text then readExponent negative significand power (text.drop 1)
  else finishFloat negative significand power text

/-- Reads a number behind its minus sign, if it has one. -/
def readNumeral (negative : Bool) (text : List Char) : Except Fault (Numeral × List Char) :=
  match readWhole text with
  | .error fault => .error fault
  | .ok (digits, rest) =>
    let (significand, left) := absorb 0 digits
    match rest with
    | '.' :: after =>
      match readFraction after with
      | .error fault => .error fault
      | .ok (fraction, rest) =>
        let (significand, unused) := absorb significand fraction
        readScaled negative significand (left.length - (fraction.length - unused.length : Nat)) rest
    | rest =>
      if left = [] && !startsExponent rest then .ok (finishWhole negative significand, rest)
      else readScaled negative significand left.length rest

/-- Leaving out what holds at the front never makes a text longer. -/
theorem dropWhile_length (holds : Char → Bool) (text : List Char) :
    (text.dropWhile holds).length ≤ text.length :=
  (List.dropWhile_suffix _).length_le

/-- Digits that were read are gone from the text. -/
theorem readWhole_length {text digits rest : List Char}
    (read : readWhole text = .ok (digits, rest)) :
    rest.length < text.length := by
  -- The first digit is gone in any case.
  unfold readWhole at read
  split at read
  · simp at read
  · rename_i c after
    split at read
    · split at read <;> simp at read
      simp [← read.2]
    · split at read <;> simp at read
      have := dropWhile_length isDigit after
      simp [← read.2]
      omega

/-- Digits behind a point that were read are gone from the text. -/
theorem readFraction_length {text digits rest : List Char}
    (read : readFraction text = .ok (digits, rest)) : rest.length ≤ text.length := by
  -- Only digits are passed, which may be none.
  unfold readFraction at read
  split at read <;> simp at read
  exact read.2 ▸ dropWhile_length ..

/-- The digits of an exponent are gone from the text, whether or not they pass their limit. -/
theorem readPower_length (power : Nat) (text : List Char) :
    (∀ shift rest, readPower power text = .ok (shift, rest) → rest.length ≤ text.length) ∧
      (∀ rest, readPower power text = .error rest → rest.length ≤ text.length) := by
  -- Each digit is taken off the front, within the limit and beyond it.
  induction text generalizing power with
  | nil => simp [readPower]
  | cons c text ih =>
    unfold readPower
    split
    · split
      · refine ⟨fun shift rest read => ?_, fun rest read => ?_⟩
        · have := (ih _).1 shift rest read
          simp
          omega
        · have := (ih _).2 rest read
          simp
          omega
      · simp
    · simp

/-- Passing the sign of an exponent never makes a text longer. -/
theorem powerSign_length (text : List Char) : (powerSign text).2.length ≤ text.length := by
  -- A sign is one character, and no sign is none.
  unfold powerSign
  split <;> simp

/-- A finished floating number leaves the text it was given. -/
theorem finishFloat_rest {negative : Bool} {significand : Nat} {power : Int} {text rest : List Char}
    {value : Numeral} (read : finishFloat negative significand power text = .ok (value, rest)) :
    rest = text := by
  -- Rounding does not look at the text.
  unfold finishFloat at read
  split at read <;> simp at read
  exact read.2.symm

/-- An exponent that was read is gone from the text. -/
theorem readExponent_length {negative : Bool} {significand : Nat} {power : Int}
    {text rest : List Char} {value : Numeral}
    (read : readExponent negative significand power text = .ok (value, rest)) :
    rest.length ≤ text.length := by
  -- The sign goes first, then one digit at least, and then the other digits.
  have sign := powerSign_length text
  unfold readExponent at read
  split at read
  · simp at read
  · rename_i after passed
    rw [passed] at sign
    simp at sign
    split at read
    · split at read
      · rename_i found
        have := (readPower_length _ _).1 _ _ found
        rw [finishFloat_rest read]
        omega
      · rename_i found
        have := (readPower_length _ _).2 _ found
        split at read <;> simp at read
        rw [← read.2]
        exact Nat.le_trans (dropWhile_length ..) (by omega)
    · simp at read

/-- What follows the digits around the point is gone from the text once it was read. -/
theorem readScaled_length {negative : Bool} {significand : Nat} {power : Int}
    {text rest : List Char} {value : Numeral}
    (read : readScaled negative significand power text = .ok (value, rest)) :
    rest.length ≤ text.length := by
  -- Without an exponent the text stays as it is.
  unfold readScaled at read
  split at read
  · have := readExponent_length read
    simp at this
    omega
  · exact Nat.le_of_eq (by rw [finishFloat_rest read])

/-- A number that was read is gone from the text. -/
theorem readNumeral_length {negative : Bool} {text rest : List Char} {value : Numeral}
    (read : readNumeral negative text = .ok (value, rest)) : rest.length < text.length := by
  -- The digits in front go first, so whatever follows them leaves less than there was.
  unfold readNumeral at read
  split at read
  · simp at read
  · rename_i digits after whole
    have first := readWhole_length whole
    simp only at read
    split at read
    · split at read
      · simp at read
      · rename_i fraction
        have second := readFraction_length fraction
        have third := readScaled_length read
        simp at first
        omega
    · split at read
      · simp at read
        simp [← read.2, first]
      · have := readScaled_length read
        omega

end TaskPool.Json
