import TaskPool.Proofs.Json.Decided

/-! What the readers of words, strings and numbers come to is decided where they stop. -/

namespace TaskPool.Json

/-- What a word comes to is decided. -/
theorem decisive_readWord {word : List Char} (ascii : ∀ c ∈ word, c.toNat < 128) :
    Decisive (readWord word) := by
  intro text
  -- The reader goes along the word, and stops at the first character that is not the one wanted.
  induction word generalizing text with
  | nil => exact .stop (.ok []) fun _ _ => by rw [readWord]; rfl
  | cons wanted word ih =>
    cases text with
    | nil => exact .nil rfl
    | cons c rest =>
      by_cases same : c = wanted
      · exact .behind (fun tail => by rw [readWord, if_pos same])
          (ih (fun d member => ascii d (by simp [member])) rest)
      · refine .peek (.error (.here .badWord [])) fun d tail alike => ?_
        rw [readWord, if_neg (alike.ne same (ascii wanted List.mem_cons_self))]
        rfl

/-- A hexadecimal digit is written with one byte. -/
theorem ascii_of_hexValue? {c : Char} {value : Nat} (digit : hexValue? c = some value) :
    c.toNat < 128 := by
  -- Each of the three ranges of digits ends at a character of one byte.
  have upTo {e : Char} (low : c ≤ e) (ascii : e.toNat < 128) : c.toNat < 128 :=
    Nat.lt_of_le_of_lt low ascii
  unfold hexValue? at digit
  split at digit
  · rename_i range
    exact upTo (of_decide_eq_true (Bool.and_eq_true_iff.mp range).2) (by decide)
  · split at digit
    · rename_i range
      exact upTo (of_decide_eq_true (Bool.and_eq_true_iff.mp range).2) (by decide)
    · split at digit
      · rename_i range
        exact upTo (of_decide_eq_true (Bool.and_eq_true_iff.mp range).2) (by decide)
      · cases digit

/-- Each of four digits that stand for a number is written with one byte. -/
theorem ascii_of_hexNumber? {a b c d : Char} {value : Nat}
    (number : hexNumber? a b c d = some value) :
    a.toNat < 128 ∧ b.toNat < 128 ∧ c.toNat < 128 ∧ d.toNat < 128 := by
  simp only [hexNumber?, Option.bind_eq_bind, Option.bind_eq_some_iff] at number
  obtain ⟨_, first, _, second, _, third, _, fourth, -⟩ := number
  exact ⟨ascii_of_hexValue? first, ascii_of_hexValue? second, ascii_of_hexValue? third,
    ascii_of_hexValue? fourth⟩

/-- The number of bytes of a text is that of all its characters. -/
theorem byteLength_eq (text : List Char) : byteLength text = (bytes text).length := by
  induction text with
  | nil => rfl
  | cons c rest ih =>
    -- What is counted for a character is what it is encoded with.
    rw [bytes_cons, List.length_append, String.length_utf8EncodeChar, ← ih]
    rfl

/--
A text has less than four bytes if its first four characters, as far as there are any, have less.
-/
theorem byteLength_take_lt_iff (text : List Char) :
    byteLength (text.take 4) < 4 ↔ (bytes text).length < 4 := by
  have long (some : List Char) : some.length ≤ byteLength some := by
    induction some with
    | nil => exact Nat.le_refl 0
    | cons c rest ih =>
      have one := c.utf8Size_pos
      show rest.length + 1 ≤ c.utf8Size + byteLength rest
      omega
  rw [← byteLength_eq]
  rcases Nat.lt_or_ge text.length 4 with short | enough
  · rw [List.take_of_length_le (Nat.le_of_lt short)]
  · -- Four characters have four bytes or more.
    have some := long (text.take 4)
    rw [List.length_take, Nat.min_eq_left enough] at some
    have all := Nat.le_trans enough (long text)
    omega

/-- Only one fault can be found in what should be four digits. -/
theorem readUnit_fault {text : List Char} {fault : Fault} (failed : readUnit text = .error fault) :
    fault = unitFault text := by
  -- With fewer than four characters, and with four that are no digits, the fault is the same.
  unfold readUnit at failed
  split at failed
  · split at failed
    · cases failed
    · exact (Except.error.inj failed).symm
  · exact (Except.error.inj failed).symm

/-- Whether four digits are there can be seen from five bytes. -/
theorem readUnit_of_sees {text other rest : List Char} {unit : Nat}
    (read : readUnit text = .ok (unit, rest)) (sees : Sees 5 text other) :
    ∃ tail, readUnit other = .ok (unit, tail) := by
  unfold readUnit at read
  split at read
  · rename_i a b c d behind
    split at read
    · rename_i value number
      -- The four digits take a byte each, so the five bytes that are seen hold them all.
      obtain ⟨first, second, third, fourth⟩ := ascii_of_hexNumber? number
      obtain ⟨_, rfl, behindOne⟩ := sees.ascii first
      obtain ⟨_, rfl, behindTwo⟩ := behindOne.ascii second
      obtain ⟨_, rfl, behindThree⟩ := behindTwo.ascii third
      obtain ⟨tail, rfl, -⟩ := behindThree.ascii fourth
      cases read
      exact ⟨tail, by simp [readUnit, number]⟩
    · cases read
  · cases read

/-- What four digits come to is decided. -/
theorem decisive_readUnit : Decisive readUnit := by
  intro text
  cases read : readUnit text with
  | ok outcome =>
    unfold readUnit at read
    split at read
    · rename_i a b c d rest
      split at read
      · rename_i value number
        refine .cons (.cons (.cons (.cons (.stop (.ok (value, [])) fun other _ => ?_))))
        simp only [readUnit, number]
        rfl
      · cases read
    · cases read
  | error fault =>
    -- The reader stays where it was, and every text that is seen to begin like
    -- this one has the same fault.
    obtain rfl := readUnit_fault read
    refine ⟨[], by rw [read]; rfl, fun other sees => ?_⟩
    rw [read] at sees ⊢
    have sees : Sees 5 text other := sees
    cases again : readUnit other with
    | ok outcome =>
      obtain ⟨tail, known⟩ := readUnit_of_sees again sees.symm
      rw [read] at known
      cases known
    | error fault =>
      have missing : byteLength (text.take 4) < 4 ↔ byteLength (other.take 4) < 4 := by
        rw [byteLength_take_lt_iff, byteLength_take_lt_iff]
        exact sees.length_lt_iff (by decide)
      rw [List.nil_append, again, readUnit_fault again, unitFault, unitFault]
      simp only [missing]
      rfl

/-- What the second half of a pair comes to is decided. -/
theorem decisive_readTrailing : Decisive readTrailing := by
  intro text
  cases text with
  | nil => exact .nil rfl
  | cons c rest =>
    -- The mark in front of the digits is looked at character by character.
    by_cases backslash : c = '\\'
    · subst backslash
      refine .cons ?_
      cases rest with
      | nil => exact .nil rfl
      | cons c rest =>
        by_cases letter : c = 'u'
        · subst letter
          exact .cons (.afterValue (decisive_readUnit rest)
            (k := fun unit rest =>
              if isTrailing unit = true then .ok (unit, rest)
                else .error (.behind .loneSurrogate rest))
            (fun tail => by rw [readTrailing]; cases readUnit tail <;> rfl)
            fun unit _ _ => .ite (fun _ => .brings unit) fun _ => .finds .loneSurrogate 0)
        · refine .peek (.error (.here .unfinishedPair [])) fun d tail alike => ?_
          have other := alike.ne letter (by decide)
          rw [readTrailing]
          · rfl
          · simpa using other
          · simp
    · refine .peek (.error (.here .unfinishedPair [])) fun d tail alike => ?_
      have other := alike.ne backslash (by decide)
      rw [readTrailing]
      · rfl
      all_goals simp [other]

/-- What an escape by code comes to is decided. -/
theorem decisive_readCodeEscape : Decisive readCodeEscape := by
  intro text
  -- Behind the four digits it is their number that says whether a second half has to follow.
  refine .afterValue (decisive_readUnit text)
    (k := fun unit rest =>
      if isTrailing unit = true then .error (.behind .loneSurrogate rest)
      else if isLeading unit = true then mapRead (pairChar unit) (readTrailing rest)
      else .ok (Char.ofNat unit, rest))
    (fun tail => ?_) fun unit _ _ => .ite (fun _ => .finds .loneSurrogate 0) fun _ =>
      .ite (fun _ => .mapRead (pairChar unit) (decisive_readTrailing _)) fun _ =>
        .brings (Char.ofNat unit)
  rw [readCodeEscape]
  cases readUnit tail with
  | error fault => rfl
  | ok outcome =>
    obtain ⟨unit, rest⟩ := outcome
    simp only [Except.bind, Function.uncurry]
    cases readTrailing rest <;> rfl

/-- A letter behind a backslash that stands for something is written with one byte. -/
theorem ascii_of_simpleEscape? {letter c : Char} (known : simpleEscape? letter = some c) :
    letter.toNat < 128 := by
  unfold simpleEscape? at known
  split at known
  all_goals first | decide | cases known

/-- What is alike to a letter that stands for nothing stands for nothing either. -/
theorem Alike.simpleEscape?_eq_none {c d : Char} (alike : Alike c d)
    (unknown : simpleEscape? c = none) :
    simpleEscape? d = none := by
  have same := alike.congr (fun letter => (simpleEscape? letter).isSome) fun letter known =>
    (Option.isSome_iff_exists.mp known).elim fun _ => ascii_of_simpleEscape?
  rw [unknown] at same
  exact Option.not_isSome_iff_eq_none.mp (Bool.not_eq_true _ ▸ same)

/-- What an escape comes to is decided. -/
theorem decisive_readEscape : Decisive readEscape := by
  intro text
  cases text with
  | nil => exact .nil rfl
  | cons c rest =>
    by_cases code : c = 'u'
    · subst code
      exact .behind (fun tail => by rw [readEscape]) (decisive_readCodeEscape rest)
    · -- A letter that stands for something takes one byte. One that stands for nothing
      -- is where the text goes wrong.
      cases known : simpleEscape? c with
      | some escaped =>
        refine .behind (fun tail => ?_) (.brings escaped)
        rw [readEscape, known]
        simpa using code
      | none =>
        refine .peek (.error (.here .badEscape [])) fun d tail alike => ?_
        have other := alike.ne code (by decide)
        rw [readEscape, alike.simpleEscape?_eq_none known]
        · rfl
        · simpa using other

/-- What a string comes to is decided. -/
theorem decisive_readString : Decisive readString := by
  -- A character or an escape leaves less than there was.
  refine DecidedAt.of_shorter (r := fun _ : Unit => readString) (fun text ih _ => ?_) ()
  cases text with
  | nil => exact .nil (by rw [readString]; rfl)
  | cons c rest =>
    by_cases quote : c = '"'
    · subst quote
      exact .behind readString_quote (.brings [])
    by_cases backslash : c = '\\'
    · subst backslash
      refine .cons (.afterValue (decisive_readEscape rest) (k := fun c rest =>
        mapRead (c :: ·) (readString rest))
        (fun tail => ?_) fun c rest found => ?_)
      · rw [readString]
        split <;> rename_i read <;> rw [read] <;> rfl
      · have less := readEscape_length found
        exact .mapRead (c :: ·) (ih rest (Nat.lt_succ_of_lt less) ())
    by_cases control : c.toNat < 0x20
    · refine .peek (.error (.here .controlInText [])) fun d tail alike => ?_
      obtain rfl := alike.eq (Nat.lt_trans control (by decide))
      rw [readString]
      · exact if_pos control
      · exact quote
      · exact backslash
    · exact .behind (fun tail => readString_plain quote backslash control tail)
        (.mapRead (c :: ·) (ih rest (Nat.lt_succ_self _) ()))

/-- What passing over an escape comes to is decided. -/
theorem decisive_skipEscape : Decisive skipEscape := by
  intro text
  cases text with
  | nil => exact .nil rfl
  | cons c rest =>
    -- The cases are those of reading the escape, without the character it stands for.
    by_cases code : c = 'u'
    · subst code
      exact .cons (.afterValue (decisive_readUnit rest) (k := fun _ => .ok)
        (fun tail => by rw [skipEscape]; cases readUnit tail <;> rfl) fun _ _ _ => .passes)
    · cases known : simpleEscape? c with
      | some escaped =>
        refine .behind (s := .ok) (fun tail => ?_) .passes
        rw [skipEscape, known]
        · rfl
        · simpa using code
      | none =>
        refine .peek (.error (.here .badEscape [])) fun d tail alike => ?_
        have other := alike.ne code (by decide)
        rw [skipEscape, alike.simpleEscape?_eq_none known]
        · rfl
        · simpa using other

/-- What passing over a string comes to is decided. -/
theorem decisive_skipString : Decisive skipString := by
  -- The same walk as for reading the string, on what is left behind each character or escape.
  refine DecidedAt.of_shorter (r := fun _ : Unit => skipString) (fun text ih _ => ?_) ()
  cases text with
  | nil => exact .nil (by rw [skipString]; rfl)
  | cons c rest =>
    by_cases quote : c = '"'
    · subst quote
      exact .behind (s := .ok) (fun tail => by rw [skipString]) .passes
    by_cases backslash : c = '\\'
    · subst backslash
      refine .cons (.after (decisive_skipEscape rest) (k := skipString) (fun tail => ?_)
        fun outcome found => ?_)
      · rw [skipString]
        split <;> rename_i read <;> rw [read] <;> rfl
      · exact ih outcome (Nat.lt_succ_of_lt (skipEscape_length found)) ()
    by_cases control : c.toNat < 0x20
    · refine .peek (.error (.behind .controlInText [])) fun d tail alike => ?_
      obtain rfl := alike.eq (Nat.lt_trans control (by decide))
      rw [skipString]
      · exact if_pos control
      · exact quote
      · exact backslash
    · refine .behind (fun tail => ?_) (ih rest (Nat.lt_succ_self _) ())
      rw [skipString]
      · exact if_neg control
      · exact quote
      · exact backslash

/-! Numbers. -/

/-- A decimal digit is written with one byte. -/
theorem ascii_of_isDigit (c : Char) (digit : isDigit c = true) : c.toNat < 128 := by
  have range : c ≤ '9' := of_decide_eq_true (Bool.and_eq_true_iff.mp digit).2
  exact Nat.lt_of_le_of_lt range (by decide)

/-- Of characters that are alike both are digits or none is. -/
theorem Alike.isDigit_eq {c d : Char} (alike : Alike c d) : isDigit d = isDigit c :=
  alike.congr isDigit ascii_of_isDigit

/-- Whether a digit comes next can be seen from one byte. -/
theorem Sees.digit_iff {text other : List Char} (sees : Sees 1 text other) :
    (other.head?.map isDigit).getD false = true ↔ (text.head?.map isDigit).getD false = true := by
  cases text with
  | nil => rw [sees.nil Nat.zero_lt_one]
  | cons c rest =>
    -- The one byte belongs to the first character, and alike characters agree on being digits.
    obtain ⟨d, tail, rfl, alike⟩ := sees.cons Nat.zero_lt_one
    exact iff_of_eq (congrArg (· = true) alike.isDigit_eq)

/-- Whether an exponent comes next can be seen from one byte. -/
theorem Sees.startsExponent_eq {text other : List Char} (sees : Sees 1 text other) :
    startsExponent other = startsExponent text := by
  cases text with
  | nil => rw [sees.nil Nat.zero_lt_one]
  | cons c rest =>
    obtain ⟨d, tail, rfl, alike⟩ := sees.cons Nat.zero_lt_one
    -- Both letters that can start an exponent take one byte.
    refine alike.congr (fun c => c = 'e' || c = 'E') fun e mark => ?_
    obtain rfl | rfl : e = 'e' ∨ e = 'E' := by simpa using mark
    all_goals decide

/-- What the digits in front of a point come to is decided. -/
theorem decisive_readWhole : Decisive readWhole := by
  intro text
  cases text with
  | nil => exact .nil rfl
  | cons c rest =>
    -- Behind a zero no digit may come, and other digits go on as long as they can.
    by_cases zero : c = '0'
    · subst zero
      refine .behind (fun tail => by rw [readWhole, if_pos rfl]) ?_
      exact .look (fun _ sees => sees.digit_iff) (fun _ => .finds .badNumber 1)
        fun _ => .brings ['0']
    by_cases digit : isDigit c = true
    · refine .behind (fun tail => by rw [readWhole, if_neg zero, if_pos digit]) ?_
      exact .pass ascii_of_isDigit (k := fun digits rest => .ok (c :: digits, rest))
        (fun _ => rfl) (.brings _)
    · refine .peek (.error (.here .badNumber [])) fun d tail alike => ?_
      rw [readWhole, if_neg (alike.ne zero (by decide)), if_neg (alike.isDigit_eq ▸ digit)]
      rfl

/-- What the digits behind a point come to is decided. -/
theorem decisive_readFraction : Decisive readFraction := by
  intro text
  refine .passSome ascii_of_isDigit (k := fun digits rest => .ok (digits, rest)) (fun _ => rfl)
    ?_ (.brings _)
  -- Without a digit it matters whether the text ends.
  cases text.dropWhile isDigit with
  | nil => exact .nil rfl
  | cons c rest => exact .peek (.error (.here .badNumber [])) fun _ _ _ => rfl

/-- The digits of an exponent, or that they stand for more than their word holds. -/
def tryPower (power : Nat) (text : List Char) : Except Fault (Option Nat × List Char) :=
  match readPower power text with
  | .ok (shift, rest) => .ok (some shift, rest)
  | .error rest => .ok (none, rest)

/-- What the digits of an exponent come to is decided. -/
theorem decisive_tryPower (power : Nat) : Decisive (tryPower power) := by
  -- The digit that passes the limit is the last one that is looked at.
  intro text
  induction text generalizing power with
  | nil => exact .nil rfl
  | cons c rest ih =>
    by_cases digit : isDigit c = true
    · by_cases fits : power * 10 + digitValue c < UInt32.size / 2
      · exact .behind (fun tail => by rw [tryPower, readPower, if_pos digit, if_pos fits, tryPower])
          (ih _)
      · exact .behind (fun tail => by rw [tryPower, readPower, if_pos digit, if_neg fits])
          (.brings none)
    · refine .peek (.ok (some power, [])) fun d tail alike => ?_
      rw [tryPower, readPower, if_neg (alike.isDigit_eq ▸ digit)]
      rfl

/-- What a reader comes to behind a sign is decided, if it is so without the sign. -/
theorem DecidedAt.sign {ρ : Type} [Outcome ρ] {r : List Char → ρ} {k : Bool → List Char → ρ}
    (same : ∀ other, r other = k (powerSign other).1 (powerSign other).2)
    (unsigned : ∀ down, Decisive (k down)) :
    Decisive r := by
  intro text
  by_cases plus : ∃ rest, text = '+' :: rest
  · obtain ⟨rest, rfl⟩ := plus
    exact .behind (fun tail => by rw [same, powerSign]) (unsigned false rest)
  by_cases minus : ∃ rest, text = '-' :: rest
  · obtain ⟨rest, rfl⟩ := minus
    exact .behind (fun tail => by rw [same, powerSign]) (unsigned true rest)
  · refine .near (unsigned false text) fun other sees => ?_
    -- Where a text begins with no sign, one that is seen to begin like it does not either.
    have none : powerSign other = (false, other) := by
      cases text with
      | nil => rw [sees.nil Nat.zero_lt_one, powerSign] <;> simp
      | cons c rest =>
        obtain ⟨d, tail, rfl, alike⟩ := sees.cons Nat.zero_lt_one
        have up : d ≠ '+' := alike.ne (fun same => plus ⟨rest, by rw [same]⟩) (by decide)
        have down : d ≠ '-' := alike.ne (fun same => minus ⟨rest, by rw [same]⟩) (by decide)
        rw [powerSign] <;> simp [up, down]
    rw [same, none]

/-- What a floating number is rounded to, or that it is too large, is decided where it stands. -/
theorem decisive_finishFloat (negative : Bool) (significand : Nat) (power : Int) :
    Decisive (finishFloat negative significand power) := by
  intro text
  -- Nothing of the text is looked at: either the number is too large, or it is there.
  cases scaled : scale (UInt64.ofNat significand).toFloat power with
  | some value =>
    exact .stop (.ok (signed negative value, [])) fun _ _ => by rw [finishFloat, scaled]; rfl
  | none =>
    exact .stop (.error (.behind .numberTooLarge [])) fun _ _ => by rw [finishFloat, scaled]; rfl

/-- Raises a number by what the digits of an exponent stand for, if their word holds it. -/
def raiseBy (negative : Bool) (significand : Nat) (power : Int) (down : Bool) (shift : Option Nat)
    (rest : List Char) :
    Except Fault (Numeral × List Char) :=
  match shift with
  | some shift =>
    finishFloat negative significand (if down then power - shift else power + shift) rest
  | none =>
    if significand ≠ 0 && !down then .error (.behind .numberTooLarge rest)
    else .ok (signed negative 0, rest.dropWhile isDigit)

/-- What a raised number comes to is decided. -/
theorem decisive_raiseBy (negative : Bool) (significand : Nat) (power : Int) (down : Bool)
    (shift : Option Nat) :
    Decisive (raiseBy negative significand power down shift) := by
  intro text
  cases shift with
  | some shift => exact decisive_finishFloat ..
  | none =>
    -- An exponent that is too large for its word makes the number too large or nothing.
    -- In the second case the digits that are left are passed over.
    refine .ite (fun _ => .finds .numberTooLarge 0) fun _ => ?_
    exact .pass ascii_of_isDigit (k := fun _ rest => .ok (signed negative 0, rest))
      (fun _ => rfl) (.brings _)

/-- Reads an exponent behind its letter and its sign. -/
def raise (negative : Bool) (significand : Nat) (power : Int) (down : Bool) :
    List Char → Except Fault (Numeral × List Char)
  | [] => .error (.behind .valueCut [])
  | c :: rest =>
    if isDigit c then
      (tryPower (digitValue c) rest).bind
        (Function.uncurry (raiseBy negative significand power down))
    else .error (.here .badNumber (c :: rest))

/-- What an exponent comes to behind its sign is decided. -/
theorem decisive_raise (negative : Bool) (significand : Nat) (power : Int) (down : Bool) :
    Decisive (raise negative significand power down) := by
  intro text
  cases text with
  | nil => exact .nil rfl
  | cons c rest =>
    -- One digit has to be there before the word for the exponent is filled.
    by_cases digit : isDigit c = true
    · exact .cons (.afterValue (decisive_tryPower (digitValue c) rest)
        (fun tail => by rw [raise, if_pos digit])
        fun shift rest _ => decisive_raiseBy negative significand power down shift rest)
    · refine .peek (.error (.here .badNumber [])) fun d tail alike => ?_
      rw [raise, if_neg (alike.isDigit_eq ▸ digit)]
      rfl

/-- What an exponent comes to is decided. -/
theorem decisive_readExponent (negative : Bool) (significand : Nat) (power : Int) :
    Decisive (readExponent negative significand power) := by
  refine DecidedAt.sign (fun other => ?_) (decisive_raise negative significand power)
  -- Behind the sign the reader is `raise`, written there as one match.
  rw [readExponent]
  split
  · rename_i down signed
    rw [signed, raise]
  · rename_i down c rest signed
    rw [signed, raise, tryPower]
    cases readPower (digitValue c) rest <;> rfl

/-- What follows the digits around a point comes to something decided. -/
theorem decisive_readScaled (negative : Bool) (significand : Nat) (power : Int) :
    Decisive (readScaled negative significand power) := by
  intro text
  -- Only the first byte decides whether there is an exponent at all.
  refine .look (p := fun text => startsExponent text = true)
    (fun _ sees => iff_of_eq (by rw [sees.startsExponent_eq]))
    (fun starts => ?_) fun _ => decisive_finishFloat negative significand power text
  cases text with
  | nil => cases starts
  | cons c rest => exact .cons (decisive_readExponent negative significand power rest)

/-- Reads what follows the digits on both sides of a point. -/
def readPointed (negative : Bool) (digits fraction : List Char) :
    List Char → Except Fault (Numeral × List Char) :=
  let taken := absorb (absorb 0 digits).1 fraction
  readScaled negative taken.1
    ((absorb 0 digits).2.length - (fraction.length - taken.2.length : Nat))

/-- Reads a number behind the digits with which it begins. -/
def extend (negative : Bool) (digits : List Char) : List Char → Except Fault (Numeral × List Char)
  | '.' :: after => (readFraction after).bind (Function.uncurry (readPointed negative digits))
  | rest =>
    if (absorb 0 digits).2 = [] && !startsExponent rest then
      .ok (finishWhole negative (absorb 0 digits).1, rest)
    else readScaled negative (absorb 0 digits).1 (absorb 0 digits).2.length rest

/-- What a number comes to behind its first digits is decided. -/
theorem decisive_extend (negative : Bool) (digits : List Char) :
    Decisive (extend negative digits) := by
  intro text
  -- With a point a fraction is read, and without one the first byte says what follows.
  have pointed (rest : List Char) : DecidedAt (fun tail =>
    extend negative digits ('.' :: tail)) rest :=
    .afterValue (decisive_readFraction rest) (k := readPointed negative digits)
      (fun tail => by rw [extend])
      fun _ _ _ => decisive_readScaled _ _ _ _
  have plain : DecidedAt (fun rest =>
      if ((absorb 0 digits).2 = [] && !startsExponent rest) = true then
        .ok (finishWhole negative (absorb 0 digits).1, rest)
      else readScaled negative (absorb 0 digits).1 (absorb 0 digits).2.length rest) text :=
    .look (fun _ sees => by rw [sees.startsExponent_eq]) (fun _ => .brings _) fun _ =>
      decisive_readScaled _ _ _ _
  refine .mark (by decide) pointed plain fun other none => ?_
  rw [extend]
  exact none

/-- What a number comes to is decided. -/
theorem decisive_readNumeral (negative : Bool) : Decisive (readNumeral negative) := by
  intro text
  refine .afterValue (decisive_readWhole text) (k := extend negative) (fun tail => ?_) fun _ _ _ =>
    decisive_extend _ _ _
  -- Behind its first digits the reader is `extend`, case by case.
  rw [readNumeral]
  cases readWhole tail with
  | error fault => rfl
  | ok outcome =>
    obtain ⟨digits, rest⟩ := outcome
    show _ = extend negative digits rest
    simp only
    split
    · rename_i after
      rw [extend]
      cases readFraction after <;> rfl
    · rename_i plain
      rw [extend]
      exact plain

end TaskPool.Json
