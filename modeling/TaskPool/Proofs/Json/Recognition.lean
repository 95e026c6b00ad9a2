import Mathlib.Data.List.TakeWhile
import TaskPool.Proofs.Json.Grammar
import TaskPool.Proofs.Json.Reading

/-! The readers of blanks, strings and numbers accept what the grammar says, and nothing else. -/

namespace TaskPool.Json

/-! Blanks. -/

/-- A text is some blanks and then what is left when they are passed over. -/
theorem skipBlanks_split (text : List Char) : ∃ gap, Gap gap ∧ text = gap ++ skipBlanks text :=
  ⟨text.takeWhile isBlank, fun _ => List.mem_takeWhile_imp, (List.takeWhile_append_dropWhile).symm⟩

/-- What blanks are passed over up to is no blank. -/
theorem visible_of_skipBlanks {text rest : List Char} {c : Char}
    (passed : skipBlanks text = c :: rest) :
    isBlank c = false := by
  have first := List.head?_dropWhile_not isBlank text
  rw [skipBlanks] at passed
  rw [passed] at first
  simpa using first

/-- A character is reached over blanks just where it stands behind some. -/
theorem skipBlanks_eq_cons {text rest : List Char} {c : Char} :
    skipBlanks text = c :: rest ↔ isBlank c = false ∧ ∃ gap, Gap gap ∧ text = gap ++ c :: rest := by
  constructor
  · intro passed
    obtain ⟨gap, blank, split⟩ := skipBlanks_split text
    exact ⟨visible_of_skipBlanks passed, gap, blank, passed ▸ split⟩
  · rintro ⟨visible, gap, blank, rfl⟩
    exact skipBlanks_upTo blank visible rest

/--
A list or an object is read just where its bracket stands behind blanks,
and what is to follow behind that.
-/
theorem readBracketed_eq_ok {α : Type} {wanted : Wanted}
    {items members : List Char → Except Fault (α × List Char)} {text rest : List Char} {value : α} :
    readBracketed wanted items members text = .ok (value, rest) ↔
      ∃ gap inner, Gap gap ∧ (text = gap ++ '[' :: inner ∧ items inner = .ok (value, rest) ∨
        text = gap ++ '\x7b' :: inner ∧ members inner = .ok (value, rest)) := by
  constructor
  · intro passed
    unfold readBracketed at passed
    split at passed
    · cases passed
    · rename_i c inner front
      obtain ⟨-, gap, blank, rfl⟩ := skipBlanks_eq_cons.mp front
      -- Anything but one of the two brackets is refused.
      split at passed
      · rename_i bracket
        exact ⟨gap, inner, blank, .inl ⟨by rw [bracket], passed⟩⟩
      · split at passed
        · rename_i bracket
          exact ⟨gap, inner, blank, .inr ⟨by rw [bracket], passed⟩⟩
        · cases passed
  · rintro ⟨gap, inner, blank, ⟨rfl, passed⟩ | ⟨rfl, passed⟩⟩
    · rw [readBracketed_list blank, passed]
    · rw [readBracketed_object blank, passed]

/-! Strings. -/

/-- A character is read as a hexadecimal digit just where it is one. -/
theorem hexValue?_eq_some {c : Char} {value : Nat} : hexValue? c = some value ↔ IsHex c value := by
  constructor
  · intro read
    -- In each of the three ranges the character is one of a few, and each of them is looked up.
    have same : c = Char.ofNat c.toNat := (Char.ofNat_toNat c).symm
    unfold hexValue? at read
    split_ifs at read with digit lower upper
    · have range : 48 ≤ c.toNat ∧
        c.toNat ≤ 57 := by simpa [Char.le_def, UInt32.le_iff_toNat_le] using digit
      obtain ⟨least, most⟩ := range
      obtain rfl := Option.some.inj read
      rw [same]
      interval_cases c.toNat <;> exact .inl rfl
    · have range : 97 ≤ c.toNat ∧
        c.toNat ≤ 102 := by simpa [Char.le_def, UInt32.le_iff_toNat_le] using lower
      obtain ⟨least, most⟩ := range
      obtain rfl := Option.some.inj read
      rw [same]
      interval_cases c.toNat <;> exact .inl rfl
    · have range : 65 ≤ c.toNat ∧
        c.toNat ≤ 70 := by simpa [Char.le_def, UInt32.le_iff_toNat_le] using upper
      obtain ⟨least, most⟩ := range
      obtain rfl := Option.some.inj read
      rw [same]
      interval_cases c.toNat <;> exact .inr rfl
  · -- Sixteen digits, each looked up in either case.
    rintro (lower | upper)
    · have small : value < 16 := (List.getElem?_eq_some_iff.mp lower).1
      interval_cases value <;> cases lower <;> rfl
    · have small : value < 16 := (List.getElem?_eq_some_iff.mp upper).1
      interval_cases value <;> cases upper <;> rfl

/-- Four characters are a hexadecimal number just where each of them is a digit. -/
theorem hexNumber?_eq_some {a b c d : Char} {unit : Nat} :
    hexNumber? a b c d = some unit ↔ IsUnit [a, b, c, d] unit := by
  simp only [hexNumber?, Option.bind_eq_bind, Option.bind_eq_some_iff, Option.pure_def,
    Option.some.injEq, hexValue?_eq_some]
  -- Both sides name the same four digits and the same sum of them.
  constructor
  · rintro ⟨w, first, x, second, y, third, z, fourth, rfl⟩
    exact ⟨a, b, c, d, w, x, y, z, rfl, first, second, third, fourth, rfl⟩
  · rintro ⟨a, b, c, d, w, x, y, z, same, first, second, third, fourth, rfl⟩
    cases same
    exact ⟨w, first, x, second, y, third, z, fourth, rfl⟩

/-- A unit is read just where the text begins with four digits that stand for it. -/
theorem readUnit_eq_ok {text rest : List Char} {unit : Nat} :
    readUnit text = .ok (unit, rest) ↔ ∃ digits, IsUnit digits unit ∧ text = digits ++ rest := by
  constructor
  · intro read
    unfold readUnit at read
    split at read
    · split at read
      · rename_i a b c d _ _ _ number
        cases read
        exact ⟨[a, b, c, d], hexNumber?_eq_some.mp number, rfl⟩
      · cases read
    · cases read
  · rintro ⟨digits, known, rfl⟩
    -- A unit is four characters long, so the reader finds just these.
    obtain ⟨a, b, c, d, -, -, -, -, rfl, -⟩ := id known
    simp [readUnit, hexNumber?_eq_some.mpr known]

/-- A letter stands for something behind a backslash just where the table says so. -/
theorem simpleEscape?_eq_some {letter c : Char} :
    simpleEscape? letter = some c ↔ (letter, c) ∈ escapes := by
  constructor
  · intro read
    unfold simpleEscape? at read
    -- The table is finite, and is gone through in both directions.
    split at read <;> cases read <;> decide
  · intro member
    simp only [escapes, List.mem_cons, Prod.mk.injEq, List.not_mem_nil, or_false] at member
    rcases member with
      ⟨rfl, rfl⟩ | ⟨rfl, rfl⟩ | ⟨rfl, rfl⟩ | ⟨rfl, rfl⟩ | ⟨rfl, rfl⟩ | ⟨rfl, rfl⟩ | ⟨rfl, rfl⟩ |
      ⟨rfl, rfl⟩ <;> rfl

/-- The units are ordinary ones, first halves and second halves. -/
theorem unit_cases (unit : Nat) :
    (isTrailing unit = true ∧ ∃ low < 0x400, unit = 0xDC00 + low) ∨
      (isTrailing unit = false ∧ isLeading unit = true ∧ ∃ high < 0x400, unit = 0xD800 + high) ∨
      (isTrailing unit = false ∧ isLeading unit = false ∧ (unit < 0xD800 ∨ 0xE000 ≤ unit)) := by
  simp only [isTrailing, isLeading, Bool.and_eq_true, Bool.and_eq_false_iff, decide_eq_true_eq,
    decide_eq_false_iff_not]
  -- A second half lies in the upper range, a first half in the lower one.
  by_cases trailing : 0xDC00 ≤ unit ∧ unit ≤ 0xDFFF
  · exact .inl ⟨trailing, unit - 0xDC00, by omega, by omega⟩
  · by_cases leading : 0xD800 ≤ unit ∧ unit ≤ 0xDBFF
    · exact .inr (.inl ⟨by omega, leading, unit - 0xD800, by omega, by omega⟩)
    · exact .inr (.inr ⟨by omega, by omega, by omega⟩)

/-- A second half is read just where the text goes on with its escape. -/
theorem readTrailing_eq_ok {text rest : List Char} {unit : Nat} :
    readTrailing text = .ok (unit, rest) ↔
      ∃ low < 0x400, unit = 0xDC00 + low ∧ ∃ digits, IsUnit digits unit ∧
        text = '\\' :: 'u' :: (digits ++ rest) := by
  constructor
  · intro read
    unfold readTrailing at read
    split at read
    · split at read
      · cases read
      · rename_i found
        split at read
        · rename_i half
          cases read
          obtain ⟨digits, known, rfl⟩ := readUnit_eq_ok.mp found
          -- The reader has found the unit to be a second half, which leaves one case.
          rcases unit_cases unit with ⟨-, low, below, same⟩ | ⟨other, -⟩ | ⟨other, -⟩
          · exact ⟨low, below, same, digits, known, rfl⟩
          · simp [half] at other
          · simp [half] at other
        · cases read
    all_goals cases read
  · rintro ⟨low, below, rfl, digits, known, rfl⟩
    have half : isTrailing (0xDC00 + low) = true := by simp [isTrailing]; omega
    simp [readTrailing, readUnit_eq_ok.mpr ⟨digits, known, rfl⟩, half]

/-- Two halves stand for the character of their distances from the first of their kind. -/
theorem pairChar_halves (high low : Nat) :
    pairChar (0xD800 + high) (0xDC00 + low) = Char.ofNat (0x10000 + high * 0x400 + low) := by
  simp [pairChar]

/-- An escape is read just where the text begins with one. -/
theorem readEscape_eq_ok {text rest : List Char} {c : Char} :
    readEscape text = .ok (c, rest) ↔ ∃ spelling, IsEscape spelling c ∧
      text = spelling ++ rest := by
  constructor
  · intro read
    unfold readEscape at read
    split at read
    · cases read
    · -- A code is an ordinary one, or the first half of a pair that the second half follows.
      unfold readCodeEscape at read
      split at read
      · cases read
      · rename_i unit _ found
        obtain ⟨digits, known, rfl⟩ := readUnit_eq_ok.mp found
        rcases unit_cases unit with
          ⟨trailing, -⟩ | ⟨other, leading, high, below, rfl⟩ | ⟨other, ordinary, range⟩
        · rw [if_pos trailing] at read
          cases read
        · rw [if_neg (by simp [other]), if_pos leading] at read
          split at read
          · cases read
          · rename_i second
            obtain ⟨low, small, rfl, more, half, rfl⟩ := readTrailing_eq_ok.mp second
            simp only [Except.ok.injEq, Prod.mk.injEq] at read
            obtain ⟨rfl, rfl⟩ := read
            refine ⟨_,
              .inr (.inr ⟨digits, more, high, low, known, below, half, small,
                pairChar_halves .., rfl⟩), ?_⟩
            simp
        · rw [if_neg (by simp [other]), if_neg (by simp [ordinary])] at read
          cases read
          exact ⟨_, .inr (.inl ⟨digits, unit, known, range, rfl, rfl⟩), rfl⟩
    · split at read
      · rename_i letter _ _ _ _ found
        cases read
        exact ⟨_, .inl ⟨letter, simpleEscape?_eq_some.mp found, rfl⟩, rfl⟩
      · cases read
  · rintro ⟨spelling, escape, rfl⟩
    rcases escape with ⟨letter, member, rfl⟩ | ⟨digits, unit, known, range, rfl, rfl⟩ |
      ⟨digits, more, high, low, known, below, half, small, rfl, rfl⟩
    · have other : letter ≠ 'u' := by
        rintro rfl
        simp [escapes] at member
      simp [readEscape, simpleEscape?_eq_some.mpr member]
    · have trailing : isTrailing unit = false := by simp [isTrailing]; omega
      have leading : isLeading unit = false := by simp [isLeading]; omega
      simp [readEscape, readCodeEscape, readUnit_eq_ok.mpr ⟨digits, known, rfl⟩, trailing, leading]
    · have trailing : isTrailing (0xD800 + high) = false := by simp [isTrailing]; omega
      have leading : isLeading (0xD800 + high) = true := by simp [isLeading]; omega
      have second : readTrailing ('\\' :: 'u' :: (more ++ rest)) = .ok (0xDC00 + low, rest) :=
        readTrailing_eq_ok.mpr ⟨low, small, rfl, more, half, rfl⟩
      simp [readEscape, readCodeEscape, readUnit_eq_ok.mpr ⟨digits, known, rfl⟩, trailing,
        leading, second, pairChar_halves]

/-- A string is read just where the text spells its content up to a quote. -/
theorem readString_eq_ok {text content rest : List Char} :
    readString text = .ok (content, rest) ↔ ∃ spelling, Spelled spelling content ∧
      text = spelling ++ '"' :: rest := by
  constructor
  · -- The induction takes a character or an escape off the front.
    intro read
    fun_induction readString text generalizing content with
    | case1 => cases read
    | case2 =>
      cases read
      exact ⟨[], .nil, rfl⟩
    | case3 => cases read
    | case4 _ after c found ih =>
      obtain ⟨inner, behind, rfl⟩ := mapRead_eq_ok.mp read
      obtain ⟨spelling, spelled, rfl⟩ := ih behind
      obtain ⟨escape, known, rfl⟩ := readEscape_eq_ok.mp found
      exact ⟨_, .escape known spelled, by simp⟩
    | case5 => cases read
    | case6 c _ quote backslash control ih =>
      obtain ⟨inner, behind, rfl⟩ := mapRead_eq_ok.mp read
      obtain ⟨spelling, spelled, rfl⟩ := ih behind
      exact ⟨c :: spelling, .plain ⟨quote, backslash, by omega⟩ spelled, rfl⟩
  · rintro ⟨spelling, spelled, rfl⟩
    induction spelled with
    | nil => exact readString_quote rest
    | plain plain _ ih =>
      obtain ⟨quote, backslash, printable⟩ := plain
      rw [List.cons_append, readString_plain quote backslash (by omega), ih]
      rfl
    | escape known _ ih =>
      rw [List.cons_append, List.append_assoc,
        readString_escape (readEscape_eq_ok.mpr ⟨_, known, rfl⟩), ih]
      rfl

/-- An escape is passed over just where the text begins with one, whatever it may stand for. -/
theorem skipEscape_eq_ok {text rest : List Char} :
    skipEscape text = .ok rest ↔ ∃ letters, IsLooseEscape letters ∧ text = letters ++ rest := by
  constructor
  · intro read
    unfold skipEscape at read
    split at read
    · cases read
    · rename_i after
      cases found : readUnit after with
      | error fault => simp [found, Except.map] at read
      | ok pair =>
        obtain ⟨unit, left⟩ := pair
        obtain ⟨digits, known, rfl⟩ := readUnit_eq_ok.mp found
        obtain rfl : left = rest := by simpa [found, Except.map] using read
        exact ⟨_, .inr ⟨digits, unit, known, rfl⟩, rfl⟩
    · rename_i letter after _
      split at read
      · rename_i known
        obtain ⟨c, known⟩ := Option.isSome_iff_exists.mp known
        cases read
        exact ⟨[letter], .inl ⟨letter, c, simpleEscape?_eq_some.mp known, rfl⟩, rfl⟩
      · cases read
  · rintro ⟨letters, ⟨letter, c, member, rfl⟩ | ⟨digits, unit, known, rfl⟩, rfl⟩
    · -- The letters of the table have the case of a code behind them.
      have other : letter ≠ 'u' := by
        rintro rfl
        simp [escapes] at member
      simp [skipEscape, simpleEscape?_eq_some.mpr member]
    · simp [skipEscape, readUnit_eq_ok.mpr ⟨digits, known, rfl⟩, Except.map]

/-- A string is passed over just where the text may stand between quotes up to the next one. -/
theorem skipString_eq_ok {text rest : List Char} :
    skipString text = .ok rest ↔ ∃ inner, IsQuoted inner ∧ text = inner ++ '"' :: rest := by
  constructor
  · -- The induction takes a character or an escape off the front.
    intro read
    fun_induction skipString text with
    | case1 => cases read
    | case2 =>
      cases read
      exact ⟨[], .nil, rfl⟩
    | case3 => cases read
    | case4 _ after found ih =>
      obtain ⟨inner, quoted, rfl⟩ := ih read
      obtain ⟨letters, known, rfl⟩ := skipEscape_eq_ok.mp found
      exact ⟨_, .escape known quoted, by simp⟩
    | case5 => cases read
    | case6 c _ quote backslash control ih =>
      obtain ⟨inner, quoted, rfl⟩ := ih read
      exact ⟨c :: inner, .plain ⟨quote, backslash, by omega⟩ quoted, rfl⟩
  · rintro ⟨inner, quoted, rfl⟩
    induction quoted with
    | nil =>
      rw [List.nil_append, skipString]
    | plain plain _ ih =>
      obtain ⟨quote, backslash, printable⟩ := plain
      rw [List.cons_append, skipString]
      · rw [if_neg (by omega), ih]
      · exact fun same => quote same
      · exact fun same => backslash same
    | @escape letters inner known _ ih =>
      have passed : skipEscape (letters ++ (inner ++ '"' :: rest)) = .ok (inner ++ '"' :: rest) :=
        skipEscape_eq_ok.mpr ⟨letters, known, rfl⟩
      rw [List.cons_append, List.append_assoc, skipString]
      split <;> rename_i found <;> rw [passed] at found <;> cases found
      exact ih

/-! Numbers. -/

/-- Characters of some kind are taken off the front up to where they end. -/
theorem span_append {holds : Char → Bool} {front rest : List Char}
    (all : ∀ c ∈ front, holds c = true) (stop : ∀ c ∈ rest.head?, holds c = false) :
    (front ++ rest).takeWhile holds = front ∧ (front ++ rest).dropWhile holds = rest := by
  rw [List.takeWhile_append_of_pos all, List.dropWhile_append_of_pos all]
  cases rest with
  | nil => simp
  | cons c rest => simp [stop c rfl]

/-- The digits at the front of a text are digits. -/
theorem isDigit_takeWhile (text : List Char) : ∀ c ∈ text.takeWhile isDigit, isDigit c = true :=
  fun _ => List.mem_takeWhile_imp

/-- What is left behind the digits at the front of a text does not begin with a digit. -/
theorem dropWhile_isDigit (text : List Char) :
    ∀ c ∈ (text.dropWhile isDigit).head?, isDigit c = false := by
  intro c first
  have stopped := List.head?_dropWhile_not isDigit text
  rw [show (text.dropWhile isDigit).head? = some c from first] at stopped
  exact stopped

/-- The sign of an exponent is a plus, a minus or nothing, and what follows it is left. -/
theorem powerSign_split (text : List Char) :
    ∃ sign, (sign = [] ∨ sign = ['+'] ∨ sign = ['-']) ∧ text = sign ++ (powerSign text).2 := by
  unfold powerSign
  split
  · exact ⟨['+'], .inr (.inl rfl), rfl⟩
  · exact ⟨['-'], .inr (.inr rfl), rfl⟩
  · exact ⟨[], .inl rfl, rfl⟩

/-- A sign in front of a digit is passed. -/
theorem powerSign_digit {sign : List Char} (signed : sign = [] ∨ sign = ['+'] ∨ sign = ['-'])
    {c : Char} (digit : isDigit c = true) (rest : List Char) :
    (powerSign (sign ++ c :: rest)).2 = c :: rest := by
  rcases signed with rfl | rfl | rfl
  · -- Without a sign the digit comes first, and a digit is no sign.
    rw [List.nil_append, powerSign]
    · rintro after same
      cases same
      cases digit
    · rintro after same
      cases same
      cases digit
  · rfl
  · rfl

/--
Whether an exponent ends in front of a text: its digits do, and where there
is none the text begins none.
-/
def EndsExponent (exponent rest : List Char) : Prop :=
  ∀ c ∈ rest.head?, if exponent = [] then c ≠ 'e' ∧ c ≠ 'E' else isDigit c = false

/-- An exponent is passed over just where the text has one, up to its end, or none. -/
theorem skipExponent_eq_ok {text rest : List Char} :
    skipExponent text = .ok rest ↔
      ∃ exponent, IsExponent exponent ∧ EndsExponent exponent rest ∧ text = exponent ++ rest := by
  constructor
  · intro read
    unfold skipExponent at read
    split at read
    · -- The text has an exponent, and all its digits are taken.
      rename_i starts
      cases text with
      | nil => cases starts
      | cons letter after =>
        have mark : letter = 'e' ∨ letter = 'E' := by simpa [startsExponent] using starts
        obtain ⟨sign, signed, split⟩ := powerSign_split after
        rw [List.drop_one, List.tail_cons] at read
        split at read
        · cases read
        · rename_i c behind passed
          rw [passed] at split
          split at read
          · rename_i digit
            cases read
            refine ⟨letter :: (sign ++ c :: behind.takeWhile isDigit),
              .inr ⟨letter, sign, c :: behind.takeWhile isDigit, mark, signed, ⟨by simp, ?_⟩, rfl⟩,
              ?_, ?_⟩
            · exact List.forall_mem_cons.mpr ⟨digit, isDigit_takeWhile behind⟩
            · intro d first
              rw [if_neg (List.cons_ne_nil _ _)]
              exact dropWhile_isDigit behind d first
            · rw [split]
              simp
          · cases read
    · -- The text has none, and is left as it is.
      rename_i none
      cases read
      refine ⟨[], .inl rfl, ?_, rfl⟩
      intro c first
      obtain ⟨more, rfl⟩ := List.head?_eq_some_iff.mp first
      simpa [startsExponent] using none
  · rintro ⟨exponent, known, ends, rfl⟩
    rcases known with rfl | ⟨letter, sign, digits, mark, signed, ⟨some, all⟩, rfl⟩
    · -- What follows begins no exponent, so nothing is taken.
      have none : startsExponent rest = false := by
        cases rest with
        | nil => rfl
        | cons c rest => simpa [startsExponent] using ends c rfl
      simp [skipExponent, none]
    · -- The letter and the sign are taken, then a digit that must be there, and then all others.
      obtain ⟨c, digits, rfl⟩ := List.exists_cons_of_ne_nil some
      obtain ⟨digit, others⟩ := List.forall_mem_cons.mp all
      have starts : startsExponent (letter :: (sign ++ (c :: digits ++ rest))) = true := by
        simpa [startsExponent] using mark
      have passed := powerSign_digit signed digit (digits ++ rest)
      have left := (span_append others fun d first => by simpa using ends d first).2
      simp only [List.cons_append, List.append_assoc] at starts ⊢
      simp only [skipExponent, starts, if_true, List.drop_one, List.tail_cons, passed, digit, left]

/--
Whether a fraction ends in front of a text: its digits do, and where there
is none the text has no point.
-/
def EndsFraction (fraction rest : List Char) : Prop :=
  ∀ c ∈ rest.head?, if fraction = [] then c ≠ '.' else isDigit c = false

/--
A fraction is passed over just where the text has one, up to its end,
or none, and then an exponent is.
-/
theorem skipFraction_eq_ok {text rest : List Char} :
    skipFraction text = .ok rest ↔ ∃ fraction behind, IsFraction fraction ∧
      EndsFraction fraction behind ∧
      skipExponent behind = .ok rest ∧ text = fraction ++ behind := by
  constructor
  · intro read
    unfold skipFraction at read
    split at read
    · -- The point is there, and then one digit must be there at least.
      rename_i after
      split at read
      · cases read
      · rename_i some
        refine ⟨'.' :: after.takeWhile isDigit, _, .inr ⟨_, ⟨some, isDigit_takeWhile after⟩,
          rfl⟩, ?_, read, ?_⟩
        · intro c first
          rw [if_neg (List.cons_ne_nil _ _)]
          exact dropWhile_isDigit after c first
        · rw [List.cons_append, List.takeWhile_append_dropWhile]
    · rename_i none
      refine ⟨[], text, .inl rfl, ?_, read, rfl⟩
      intro c first
      obtain ⟨more, rfl⟩ := List.head?_eq_some_iff.mp first
      rw [if_pos rfl]
      exact fun point => none more (by rw [point])
  · rintro ⟨fraction, behind, known, ends, read, rfl⟩
    rcases known with rfl | ⟨digits, ⟨some, all⟩, rfl⟩
    · rw [List.nil_append, skipFraction]
      · exact read
      · rintro after rfl
        exact ends '.' rfl rfl
    · obtain ⟨taken, left⟩ := span_append all fun c first => by simpa using ends c first
      rw [List.cons_append, skipFraction, taken, if_neg some, left]
      exact read

/--
The digits of a number are passed over just where the text has them, up to their
end, and then a fraction is.
-/
theorem skipNumber_eq_skipFraction {text rest : List Char} :
    skipNumber text = .ok rest ↔ ∃ whole behind, IsWhole whole ∧
      (∀ c ∈ behind.head?, isDigit c = false) ∧
      skipFraction behind = .ok rest ∧ text = whole ++ behind := by
  constructor
  · intro read
    unfold skipNumber at read
    split at read
    · cases read
    · rename_i c after
      split at read
      · -- A zero stands alone.
        rename_i zero
        split at read
        · cases read
        · rename_i alone
          have digits : IsDigits ['0'] := ⟨by simp, List.forall_mem_singleton.mpr rfl⟩
          refine ⟨['0'], after, ⟨digits, fun _ => rfl⟩, ?_, read, by rw [zero]; rfl⟩
          intro d first
          simpa [show after.head? = some d from first] using alone
      · -- Any other digit takes all digits that follow.
        split at read
        · rename_i other digit
          refine ⟨c :: after.takeWhile isDigit, _, ⟨⟨by simp, ?_⟩, ?_⟩,
            dropWhile_isDigit after, read, ?_⟩
          · exact List.forall_mem_cons.mpr ⟨digit, isDigit_takeWhile after⟩
          · exact fun zero => absurd (Option.some.inj zero) other
          · simp
        · cases read
  · rintro ⟨whole, behind, ⟨⟨some, all⟩, zeros⟩, stop, read, rfl⟩
    obtain ⟨c, digits, rfl⟩ := List.exists_cons_of_ne_nil some
    obtain ⟨digit, others⟩ := List.forall_mem_cons.mp all
    rw [List.cons_append, skipNumber]
    by_cases zero : c = '0'
    · obtain rfl : digits = [] := by simpa [zero] using zeros
      rw [if_pos zero, List.nil_append]
      cases front : behind.head? with
      | none => simpa using read
      | some d => simpa [stop d front] using read
    · rw [if_neg zero, if_pos digit, (span_append others stop).2]
      exact read

/-- Whether a number ends in front of a text, by which parts it has and how the text begins. -/
def EndsParts (fraction exponent rest : List Char) : Prop :=
  ∀ c ∈ rest.head?, isDigit c = false ∧ (exponent = [] → c ≠ 'e' ∧ c ≠ 'E' ∧
    (fraction = [] → c ≠ '.'))

/--
Where a number ends, its exponent and what follows begin with no digit,
and with a point only behind a fraction.
-/
theorem EndsParts.head {fraction exponent rest : List Char}
    (ends : EndsParts fraction exponent rest) (known : IsExponent exponent) :
    ∀ c ∈ (exponent ++ rest).head?, isDigit c = false ∧ (fraction = [] → c ≠ '.') := by
  intro c first
  -- Behind a number without exponent its end says what comes. An exponent begins with its letter.
  rcases known with rfl | ⟨letter, sign, digits, mark, -, -, rfl⟩
  · obtain ⟨digit, parts⟩ := ends c first
    exact ⟨digit, (parts rfl).2.2⟩
  · obtain rfl : letter = c := Option.some.inj first
    rcases mark with rfl | rfl
    · exact ⟨by decide, fun _ => by decide⟩
    · exact ⟨by decide, fun _ => by decide⟩

/-- A number is passed over just where the text has its parts, up to their end. -/
theorem skipNumber_parts {text rest : List Char} :
    skipNumber text = .ok rest ↔ ∃ whole fraction exponent, IsWhole whole ∧ IsFraction fraction ∧
      IsExponent exponent ∧ EndsParts fraction exponent rest ∧
      text = whole ++ (fraction ++ (exponent ++ rest)) := by
  rw [skipNumber_eq_skipFraction]
  constructor
  · rintro ⟨whole, behind, digits, stop, passed, rfl⟩
    obtain ⟨fraction, last, known, pointed, read, rfl⟩ := skipFraction_eq_ok.mp passed
    obtain ⟨exponent, raised, ends, rfl⟩ := skipExponent_eq_ok.mp read
    refine ⟨whole, fraction, exponent, digits, known, raised, ?_, rfl⟩
    intro c first
    -- The last part that is there says that no digit follows, and each part behind
    -- it that it does not begin.
    by_cases flat : exponent = []
    · subst flat
      obtain ⟨lower, upper⟩ := ends c first
      by_cases short : fraction = []
      · subst short
        exact ⟨stop c first, fun _ => ⟨lower, upper, fun _ => pointed c first⟩⟩
      · exact ⟨by simpa [short] using pointed c first, fun _ =>
          ⟨lower, upper, fun none => absurd none short⟩⟩
    · exact ⟨by simpa [flat] using ends c first, fun none => absurd none flat⟩
  · rintro ⟨whole, fraction, exponent, digits, known, raised, ends, rfl⟩
    refine ⟨whole, _, digits, ?_, skipFraction_eq_ok.mpr ⟨fraction, _, known, ?_,
      skipExponent_eq_ok.mpr ⟨exponent, raised, ?_, rfl⟩, rfl⟩, rfl⟩
    · -- Behind the first digits there is a point, or an exponent, or the end.
      intro c first
      rcases known with rfl | ⟨more, -, rfl⟩
      · exact (ends.head raised c first).1
      · obtain rfl : '.' = c := Option.some.inj first
        decide
    · -- A point would have to follow the digits at once.
      intro c first
      obtain ⟨digit, point⟩ := ends.head raised c first
      split
      · rename_i short
        exact point short
      · exact digit
    · intro c first
      obtain ⟨digit, parts⟩ := ends c first
      split
      · rename_i flat
        exact ⟨(parts flat).1, (parts flat).2.1⟩
      · exact digit

/--
Whether a number ends in front of a text.

The text begins with no digit, and with no character behind which the number
could go on to be another one.
-/
def Stops (Written : List Char → Prop) (number rest : List Char) : Prop :=
  ∀ c ∈ rest.head?, isDigit c = false ∧ ∀ more, ¬ Written (number ++ c :: more)

/-- Where the parts of a number end, the number ends. -/
theorem EndsParts.stops {whole fraction exponent rest : List Char} (digits : IsWhole whole)
    (known : IsFraction fraction) (raised : IsExponent exponent)
    (ends : EndsParts fraction exponent rest) :
    Stops IsUnsigned (whole ++ (fraction ++ exponent)) rest := by
  intro c first
  refine ⟨(ends c first).1, ?_⟩
  rintro more ⟨whole', fraction', exponent', digits', known', raised', same⟩
  -- The reader would leave what follows the shorter number, and as well nothing,
  -- which follows the longer one.
  have short : skipNumber (whole ++ (fraction ++ (exponent ++ c :: more))) = .ok (c :: more) :=
    skipNumber_parts.mpr ⟨whole, fraction, exponent, digits, known, raised,
      fun d head => ends d (first.trans head), rfl⟩
  have long : skipNumber (whole' ++ (fraction' ++ (exponent' ++ []))) = .ok [] :=
    skipNumber_parts.mpr ⟨whole', fraction', exponent', digits', known', raised',
      fun _ none => (by cases none), rfl⟩
  simp only [List.append_assoc, List.append_nil] at same long
  rw [← same, short] at long
  cases long

/-- Where a number ends, its parts do. -/
theorem Stops.parts {whole fraction exponent rest : List Char} (digits : IsWhole whole)
    (known : IsFraction fraction)
    (stops : Stops IsUnsigned (whole ++ (fraction ++ exponent)) rest) :
    EndsParts fraction exponent rest := by
  intro c first
  obtain ⟨digit, last⟩ := stops c first
  refine ⟨digit, ?_⟩
  rintro rfl
  have zero : IsDigits ['0'] := ⟨by simp, List.forall_mem_singleton.mpr rfl⟩
  -- A zero behind the letter of an exponent, or behind a point, would make the number longer.
  have raised {letter : Char} (mark : letter = 'e' ∨ letter = 'E') : c ≠ letter := by
    rintro rfl
    exact last ['0'] ⟨whole, fraction, [c, '0'], digits, known,
      .inr ⟨c, [], ['0'], mark, .inl rfl, zero, rfl⟩, by simp⟩
  refine ⟨raised (.inl rfl), raised (.inr rfl), ?_⟩
  rintro rfl rfl
  exact last ['0'] ⟨whole, ['.', '0'], [], digits, .inr ⟨['0'], zero, rfl⟩, .inl rfl, by simp⟩

/-- In front of what ends any number, the parts of a number end. -/
theorem EndsNumber.parts {rest : List Char} (ends : EndsNumber rest)
    (fraction exponent : List Char) :
    EndsParts fraction exponent rest := by
  intro c first
  obtain ⟨digit, point, lower, upper⟩ := ends c first
  exact ⟨digit, fun _ => ⟨lower, upper, fun _ => point⟩⟩

/-- A number is passed over just where the text has one, up to its end. -/
theorem skipNumber_eq_ok {text rest : List Char} :
    skipNumber text = .ok rest ↔
      ∃ number, IsUnsigned number ∧ Stops IsUnsigned number rest ∧ text = number ++ rest := by
  rw [skipNumber_parts]
  -- Where a number ends is said for its parts there and for the whole number here.
  constructor
  · rintro ⟨whole, fraction, exponent, digits, known, raised, ends, rfl⟩
    exact ⟨_, ⟨whole, fraction, exponent, digits, known, raised, rfl⟩,
      ends.stops digits known raised, by simp⟩
  · rintro ⟨number, ⟨whole, fraction, exponent, digits, known, raised, rfl⟩, stops, rfl⟩
    exact ⟨whole, fraction, exponent, digits, known, raised, stops.parts digits known, by simp⟩

end TaskPool.Json
