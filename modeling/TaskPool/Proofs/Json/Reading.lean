import Mathlib.Tactic.IntervalCases
import Mathlib.Tactic.SplitIfs
import Mathlib.Tactic.Positivity
import TaskPool.Json.Typed
import TaskPool.Proofs.Json.Layout

/-!
Each piece of a laid out text is read back as what it was written for, wherever there may be blanks.
-/

namespace TaskPool.Json

variable {gap : List Char}

/-- Blanks in front of a text are passed over. -/
theorem skipBlanks_gap (blank : ∀ c ∈ gap, isBlank c = true) (text : List Char) :
    skipBlanks (gap ++ text) = skipBlanks text :=
  List.dropWhile_append_of_pos blank

/-- A text that begins with no blank is left as it is. -/
theorem skipBlanks_cons {c : Char} (visible : isBlank c = false) (rest : List Char) :
    skipBlanks (c :: rest) = c :: rest :=
  List.dropWhile_cons_of_neg (by simp [visible])

/-- Blanks are passed over up to the first character that is none. -/
theorem skipBlanks_upTo (blank : ∀ c ∈ gap, isBlank c = true) {c : Char}
    (visible : isBlank c = false) (rest : List Char) :
    skipBlanks (gap ++ c :: rest) = c :: rest := by
  -- First the blanks are passed, and then nothing is.
  rw [skipBlanks_gap blank, skipBlanks_cons visible]

section Brackets

variable {α : Type} {wanted : Wanted} {items members : List Char → Except Fault (α × List Char)}

/-- Behind blanks and the bracket of a list, items are read. -/
theorem readBracketed_list (blank : ∀ c ∈ gap, isBlank c = true) (rest : List Char) :
    readBracketed wanted items members (gap ++ '[' :: rest) = items rest := by
  rw [readBracketed, skipBlanks_upTo blank rfl]
  exact if_pos rfl

/-- Behind blanks and the bracket of an object, members are read. -/
theorem readBracketed_object (blank : ∀ c ∈ gap, isBlank c = true) (rest : List Char) :
    readBracketed wanted items members (gap ++ '\x7b' :: rest) = members rest := by
  rw [readBracketed, skipBlanks_upTo blank rfl]
  exact (if_neg (by decide)).trans (if_pos rfl)

end Brackets

/-! Strings: each character is read back from the way in which it was written. -/

/-- A hexadecimal digit is read as what it stands for. -/
theorem hexValue?_hexDigit :
    ∀ {value : Nat}, value < 16 → hexValue? (Text.hexDigit value) = some value := by
  -- Sixteen digits, each read for itself.
  decide

/-- A string ends at a quote. -/
theorem readString_quote (rest : List Char) : readString ('"' :: rest) = .ok ([], rest) := by
  -- The first character decides.
  rw [readString]

/-- A backslash and what follows it stand for one character. -/
theorem readString_escape {text after : List Char} {c : Char}
    (read : readEscape text = .ok (c, after)) :
    readString ('\\' :: text) = mapRead (c :: ·) (readString after) := by
  -- The reader of the escape says how it goes on.
  rw [readString]
  split
  · rename_i failed
    rw [read] at failed
    cases failed
  · rename_i passed
    rw [read] at passed
    cases passed
    rfl

/-- Any other character stands for itself, unless it is a control. -/
theorem readString_plain {c : Char} (quote : c ≠ '"') (backslash : c ≠ '\\')
    (plain : ¬c.toNat < 0x20) (text : List Char) :
    readString (c :: text) = mapRead (c :: ·) (readString text) := by
  -- The first character is none of those that mean something.
  rw [readString]
  · rw [if_neg plain]
  · exact fun same => quote same
  · exact fun same => backslash same

/-- A control is read back from its code. -/
theorem readCodeEscape_control {c : Char} (control : c.toNat < 0x20) (rest : List Char) :
    readCodeEscape ('0' :: '0' :: Text.hexDigit (c.toNat / 16) ::
      Text.hexDigit (c.toNat % 16) :: rest) =
      .ok (c, rest) := by
  -- The two halves of the code are its two last digits, and no control is half of a pair.
  have high : hexValue? (Text.hexDigit (c.toNat / 16)) = some (c.toNat / 16) :=
    hexValue?_hexDigit (by omega)
  have low : hexValue? (Text.hexDigit (c.toNat % 16)) = some (c.toNat % 16) :=
    hexValue?_hexDigit (by omega)
  have zero : hexValue? '0' = some 0 := rfl
  have number : hexNumber? '0' '0' (Text.hexDigit (c.toNat / 16)) (Text.hexDigit (c.toNat % 16)) =
      some c.toNat := by
    simp only [hexNumber?, high, low, zero, Option.bind_eq_bind, Option.bind_some, Option.pure_def,
      Option.some.injEq]
    omega
  have leading : isLeading c.toNat = false := by simp [isLeading]; omega
  have trailing : isTrailing c.toNat = false := by simp [isTrailing]; omega
  simp [readCodeEscape, readUnit, number, leading, trailing]

/-- A character is read back from the way in which it is written in a string. -/
theorem readString_escapedChar (c : Char) (text : List Char) :
    readString (escapedChar c ++ text) = mapRead (c :: ·) (readString text) := by
  unfold escapedChar
  -- The first seven ways are a backslash and a letter, the eighth is a code,
  -- and the last is the character itself.
  split_ifs with quote backslash backspace feed line carriage tab control
  · subst quote
    exact readString_escape rfl
  · subst backslash
    exact readString_escape rfl
  · subst backspace
    exact readString_escape rfl
  · subst feed
    exact readString_escape rfl
  · subst line
    exact readString_escape rfl
  · subst carriage
    exact readString_escape rfl
  · subst tab
    exact readString_escape rfl
  · exact readString_escape (readCodeEscape_control control text)
  · exact readString_plain quote backslash control text

/-- A string is read back from behind its opening quote, up to its closing one. -/
theorem readString_written (content rest : List Char) :
    readString (content.flatMap escapedChar ++ '"' :: rest) = .ok (content, rest) := by
  -- The induction takes one character with its way of writing off the front.
  induction content with
  | nil => exact readString_quote rest
  | cons c content ih =>
    rw [List.flatMap_cons, List.append_assoc, readString_escapedChar, ih]
    rfl

/-! Numbers: the digits of a number that fits a machine word are read back as that number. -/

/-- Whether any number ends in front of a text. -/
def EndsNumber (text : List Char) : Prop :=
  ∀ c ∈ text.head?, isDigit c = false ∧ c ≠ '.' ∧ c ≠ 'e' ∧ c ≠ 'E'

/-- A digit is no blank. -/
theorem visible_of_isDigit {c : Char} (digit : isDigit c = true) : isBlank c = false := by
  -- The four blanks are no digits.
  cases blank : isBlank c with
  | false => rfl
  | true =>
    obtain rfl | rfl | rfl | rfl : c = ' ' ∨ c = '\n' ∨ c = '\t' ∨ c = '\r' := by
      simpa [isBlank, or_assoc] using blank
    all_goals cases digit

/-- A number ends in front of a comma. -/
theorem EndsNumber.comma (rest : List Char) : EndsNumber (',' :: rest) := by
  -- A comma is none of the characters that go on with a number.
  intro c first
  obtain rfl : ',' = c := Option.some.inj first
  decide

/--
A number ends in front of the bracket that ends an object, also where there are blanks between them.
-/
theorem EndsNumber.bracket (blank : ∀ c ∈ gap, isBlank c = true) (rest : List Char) :
    EndsNumber (gap ++ '\x7d' :: rest) := by
  -- The first character is a blank or the bracket, and no number goes on with either.
  intro c first
  cases gap with
  | nil =>
    obtain rfl : '\x7d' = c := Option.some.inj first
    decide
  | cons d gap =>
    obtain rfl : d = c := Option.some.inj first
    obtain rfl | rfl | rfl | rfl : d = ' ' ∨ d = '\n' ∨ d = '\t' ∨ d = '\r' := by
      simpa [isBlank, or_assoc] using blank d List.mem_cons_self
    all_goals decide

/-- The digits of a number are digits. -/
theorem isDigit_toDigits {n : Nat} : ∀ c ∈ Nat.toDigits 10 n, isDigit c = true := by
  -- Both tests of a digit compare with the same two characters.
  intro c member
  have digit : c.isDigit = true := Nat.isDigit_of_mem_toDigits (by decide) (by decide) member
  simpa [isDigit, Char.isDigit, Char.le_def] using digit

/-- Only the number zero begins with the digit zero. -/
theorem toDigits_head {n : Nat} (positive : 0 < n) :
    ∃ c rest, Nat.toDigits 10 n = c :: rest ∧ c ≠ '0' := by
  -- The first digit of a longer number is that of its tenth.
  induction n using Nat.strongRecOn with
  | ind n ih =>
    rw [Nat.toDigits_eq_if (by decide)]
    split
    · rename_i small
      refine ⟨n.digitChar, [], rfl, ?_⟩
      interval_cases n <;> decide
    · obtain ⟨c, rest, front, other⟩ := ih (n / 10) (by omega) (by omega)
      exact ⟨c, rest ++ [(n % 10).digitChar], by rw [front]; rfl, other⟩

/-- Reading more digits never makes a number smaller. -/
theorem le_ofDigitChars (digits : List Char) (start : Nat) :
    start ≤ Nat.ofDigitChars 10 digits start := by
  -- The start counts once at least, and more with each digit that follows.
  rw [Nat.ofDigitChars_eq_ofDigitChars_zero]
  have grown : start ≤ 10 ^ digits.length * start := Nat.le_mul_of_pos_left start (by positivity)
  omega

/-- Digits are all taken if the number that they make fits the word. -/
theorem absorb_all {digits : List Char} {start : Nat}
    (fits : Nat.ofDigitChars 10 digits start < UInt64.size) :
    absorb start digits = (Nat.ofDigitChars 10 digits start, []) := by
  -- What is read so far is never above what is read in the end, so it fits too.
  induction digits generalizing start with
  | nil => rfl
  | cons c digits ih =>
    have same : start * 10 + digitValue c = 10 * start + (c.toNat - '0'.toNat) := by
      rw [Nat.mul_comm]
      rfl
    rw [Nat.ofDigitChars_cons] at fits ⊢
    have below := Nat.lt_of_le_of_lt (le_ofDigitChars digits _) fits
    rw [absorb, same, if_pos below, ih fits]

/-- The digits of a number are taken up to where the number ends. -/
theorem readWhole_toDigits (n : Nat) {rest : List Char} (ends : EndsNumber rest) :
    readWhole (Nat.toDigits 10 n ++ rest) = .ok (Nat.toDigits 10 n, rest) := by
  -- A zero stands alone, and any other number begins with another digit.
  have stop : ∀ c ∈ rest.head?, isDigit c = false := fun c first => (ends c first).1
  rcases Nat.eq_zero_or_pos n with rfl | positive
  · rw [Nat.toDigits_zero]
    cases rest with
    | nil => rfl
    | cons c rest => simp [readWhole, stop c rfl]
  · obtain ⟨c, digits, written, other⟩ := toDigits_head positive
    have all : ∀ d ∈ c :: digits, isDigit d = true := written ▸ isDigit_toDigits
    have inside : ∀ d ∈ digits, isDigit d = true :=
      fun d member => all d (List.mem_cons_of_mem c member)
    rw [written, List.cons_append, readWhole, if_neg other, if_pos (all c List.mem_cons_self),
      List.takeWhile_append_of_pos inside, List.dropWhile_append_of_pos inside]
    cases rest with
    | nil => simp
    | cons d rest => simp [stop d rfl]

/-- A number that fits the word is read back from its digits. -/
theorem readNumeral_toDigits {n : Nat} (fits : n < UInt64.size) {rest : List Char}
    (ends : EndsNumber rest) :
    readNumeral false (Nat.toDigits 10 n ++ rest) = .ok (.whole n, rest) := by
  -- All digits are taken, and what follows is neither a point nor an exponent.
  have taken : absorb 0 (Nat.toDigits 10 n) = (n, []) := by
    have same : Nat.ofDigitChars 10 (Nat.toDigits 10 n) 0 = n := Nat.ofDigitChars_ten_toDigits
    rw [absorb_all (same.symm ▸ fits), same]
  simp only [readNumeral, readWhole_toDigits n ends, taken]
  cases rest with
  | nil => rfl
  | cons c rest =>
    obtain ⟨-, point, lower, upper⟩ := ends c rfl
    split
    · rename_i same
      exact absurd (List.cons.inj same).1 point
    · simp [startsExponent, lower, upper, finishWhole]

/-! Values and the marks around them, behind any blanks. -/

/-- The text of a natural number is its digits. -/
theorem toList_scalarText_natural (n : Nat) :
    (Value.natural n).scalarText.toList = Nat.toDigits 10 n :=
  Nat.toList_repr

/-- A number below a limit within the word is read back from its digits. -/
theorem readBelow_toDigits {n limit : Nat} {wanted : Wanted} (below : n < limit)
    (word : limit ≤ UInt64.size) (blank : ∀ c ∈ gap, isBlank c = true) {rest : List Char}
    (ends : EndsNumber rest) :
    readBelow limit wanted (gap ++ (Nat.toDigits 10 n ++ rest)) = .ok (n, rest) := by
  -- The first character is a digit, which is no blank and no sign.
  have read := readNumeral_toDigits (Nat.lt_of_lt_of_le below word) ends
  obtain ⟨c, digits, written⟩ := List.exists_cons_of_ne_nil (Nat.toDigits_ne_nil (n := n) (b := 10))
  rw [written, List.cons_append] at read ⊢
  have digit : isDigit c = true := isDigit_toDigits c (by rw [written]; exact List.mem_cons_self)
  have unsigned : c ≠ '-' := by
    rintro rfl
    cases digit
  rw [readBelow, skipBlanks_upTo blank (visible_of_isDigit digit)]
  simp [unsigned, digit, read, Numeral.below, below]

/-- A string is read back from its literal. -/
theorem readText_literal (value : String) (blank : ∀ c ∈ gap, isBlank c = true) (rest : List Char) :
    readText (gap ++ ((literal value).toList ++ rest)) = .ok (value, rest) := by
  -- A literal is its content between two quotes.
  have written : (literal value).toList ++ rest =
      '"' :: (value.toList.flatMap escapedChar ++ '"' :: rest) := by
    simp [literal]
  rw [written, readText, skipBlanks_upTo blank rfl]
  simp [readString_written, mapRead]

/-- A colon is found behind blanks. -/
theorem readColon_gap (blank : ∀ c ∈ gap, isBlank c = true) (rest : List Char) :
    readColon (gap ++ ':' :: rest) = .ok rest := by
  -- A colon is no blank.
  rw [readColon, skipBlanks_upTo blank rfl]
  rfl

/-- A key is read back from its literal. -/
theorem readKey_literal (key : String) (rest : List Char) :
    readKey ((literal key).toList ++ rest) = .ok (some key, rest) := by
  -- A literal is its content between two quotes.
  simp [literal, readKey, readString_written, mapRead]

/-- The key of a member is read back from where the member begins. -/
theorem nextKey_separator (layout : Layout) (depth : Nat) (first : Bool) (key : String)
    (rest : List Char) :
    nextKey first (layout.separator depth first ++ ((literal key).toList ++ rest)) =
    .ok (some key, rest) := by
  -- In front of the first member there are only blanks, and in front of any other one comma more.
  have read := readKey_literal key rest
  have written : (literal key).toList ++ rest =
      '"' :: (key.toList.flatMap escapedChar ++ '"' :: rest) := by
    simp [literal]
  rw [written] at read ⊢
  have passed (text : List Char) : skipBlanks (layout.line depth ++ '"' :: text) = '"' :: text :=
    skipBlanks_upTo (layout.line_blank depth) rfl text
  cases first with
  | true =>
    rw [Layout.separator, if_pos rfl, List.nil_append, nextKey, passed]
    exact read
  | false =>
    -- Behind the comma, the next character is the quote, so no bracket follows it.
    have comma : layout.separator depth false = ',' :: layout.line depth := rfl
    rw [comma, List.cons_append, nextKey, skipBlanks_cons rfl]
    simp only [passed]
    exact read

/-- The end of an object is found behind blanks, after any member or none. -/
theorem nextKey_end (first : Bool) (blank : ∀ c ∈ gap, isBlank c = true) (rest : List Char) :
    nextKey first (gap ++ '\x7d' :: rest) = .ok (none, rest) := by
  -- The bracket is seen before a comma is asked for.
  rw [nextKey, skipBlanks_upTo blank rfl]
  rfl

end TaskPool.Json
