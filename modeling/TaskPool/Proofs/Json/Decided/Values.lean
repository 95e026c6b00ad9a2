import TaskPool.Proofs.Json.Decided.Lexemes
import TaskPool.Proofs.Json.Walking

/-!
What comes of passing over a value, and of reading one of a wanted kind,
is decided where the reader stops.
-/

namespace TaskPool.Json

/-- Passes over the digits of an exponent, of which there must be one. -/
def skipPower : List Char → Except Fault (List Char)
  | [] => .error (.here .badNumber [])
  | c :: rest =>
    if isDigit c then .ok (rest.dropWhile isDigit) else .error (.here .badNumber (c :: rest))

/-- What passing over the digits of an exponent comes to is decided. -/
theorem decisive_skipPower : Decisive skipPower := by
  intro text
  cases text with
  | nil => exact .nil rfl
  | cons c rest =>
    -- One digit is wanted. All that follow it are passed over without being looked at.
    by_cases digit : isDigit c = true
    · refine .behind (s := fun tail => .ok (tail.dropWhile isDigit))
        (fun tail => by rw [skipPower, if_pos digit]) ?_
      exact .pass ascii_of_isDigit (k := fun _ => .ok) (fun _ => rfl) .passes
    · refine .peek (.error (.here .badNumber [])) fun d tail alike => ?_
      rw [skipPower, if_neg (alike.isDigit_eq ▸ digit)]
      rfl

/-- What passing over an exponent comes to is decided. -/
theorem decisive_skipExponent : Decisive skipExponent := by
  intro text
  -- Its letter is seen from the first byte, and the sign behind it from the next.
  refine .look (p := fun text => startsExponent text = true)
    (fun _ sees => iff_of_eq (by rw [sees.startsExponent_eq]))
    (fun starts => ?_) fun _ => .passes
  cases text with
  | nil => cases starts
  | cons c rest =>
    exact .behind (s := fun tail => skipPower (powerSign tail).2) (fun _ => rfl)
      (DecidedAt.sign (k := fun _ => skipPower) (fun _ => rfl) (fun _ => decisive_skipPower) rest)

/-- What passing over a point and an exponent comes to is decided. -/
theorem decisive_skipFraction : Decisive skipFraction := by
  intro text
  -- Behind a point the digits end somewhere, or there are none and the text goes wrong.
  have pointed (rest : List Char) : DecidedAt (fun tail => skipFraction ('.' :: tail)) rest :=
    .passSome ascii_of_isDigit (k := fun _ => skipExponent) (fun _ => rfl) (.finds .badNumber 1)
      (decisive_skipExponent _)
  refine .mark (by decide) pointed (decisive_skipExponent text) fun other none => ?_
  rw [skipFraction]
  exact none

/-- What passing over a number comes to is decided. -/
theorem decisive_skipNumber : Decisive skipNumber := by
  intro text
  cases text with
  | nil => exact .nil rfl
  | cons c rest =>
    -- A number that starts with a zero has no digit behind it, as where it is read.
    by_cases zero : c = '0'
    · subst zero
      refine .behind (fun tail => by rw [skipNumber, if_pos rfl]) ?_
      exact .look (fun _ sees => sees.digit_iff) (fun _ => .finds .badNumber 1)
        fun _ => decisive_skipFraction rest
    by_cases digit : isDigit c = true
    · refine .behind (fun tail => by rw [skipNumber, if_neg zero, if_pos digit]) ?_
      exact .pass ascii_of_isDigit (k := fun _ => skipFraction) (fun _ => rfl)
        (decisive_skipFraction _)
    · refine .peek (.error (.here .badNumber [])) fun d tail alike => ?_
      rw [skipNumber, if_neg (alike.ne zero (by decide)), if_neg (alike.isDigit_eq ▸ digit)]
      rfl

/-- Blanks that were passed over are not passed over again. -/
theorem skipBlanks_idem (text : List Char) : skipBlanks (skipBlanks text) = skipBlanks text := by
  cases passed : skipBlanks text with
  | nil => rfl
  | cons c rest => exact skipBlanks_cons (visible_of_skipBlanks passed) rest

/-- A reader that wants a colon behind any blanks is decided. -/
theorem decisive_readColon : Decisive readColon := by
  intro text
  refine .blanks (fun other => by rw [readColon, skipBlanks_idem, readColon])
    rfl fun c rest visible _ => ?_
  -- The blanks are behind us, so the next character is the colon or the fault.
  by_cases colon : c = ':'
  · subst colon
    refine .behind (s := .ok) (fun tail => ?_) .passes
    rw [readColon, skipBlanks_cons visible]
    exact if_pos rfl
  · refine .peek (.error (.here .noColon [])) fun d tail alike => ?_
    rw [readColon, skipBlanks_cons (alike.visible visible)]
    exact if_neg (alike.ne colon (by decide))

/-- What passing over a key and its colon comes to is decided. -/
theorem decisive_skipKey : Decisive skipKey := by
  intro text
  refine .blanks (fun other => by rw [skipKey, skipBlanks_idem, skipKey])
    rfl fun c rest visible _ => ?_
  -- A quote starts the key, and the colon is looked for where its string ends.
  by_cases quote : c = '"'
  · subst quote
    refine .cons (.after (decisive_skipString rest) (k := readColon) (fun tail => ?_)
      fun outcome _ => decisive_readColon outcome)
    rw [skipKey, skipBlanks_cons visible]
    simp only [if_pos]
    cases skipString tail <;> rfl
  · refine .peek (.error (.here .badKey [])) fun d tail alike => ?_
    rw [skipKey, skipBlanks_cons (alike.visible visible)]
    exact if_neg (alike.ne quote (by decide))

/-- What passing over what comes in front of a value comes to is decided. -/
theorem decisive_skipEntry (bracket : Bracket) : Decisive (skipEntry bracket) := by
  cases bracket with
  | list => exact fun _ => .passes
  | object => exact decisive_skipKey

/-- Passes over a value without parts. -/
def skipPlain : List Char → Except Fault (List Char)
  | [] => .error (.here .valueCut [])
  | c :: rest => skipScalar c rest

/-- What passing over a value without parts comes to is decided. -/
theorem decisive_skipPlain : Decisive skipPlain := by
  intro text
  cases text with
  | nil => exact .nil rfl
  | cons c rest =>
    -- The first character tells which kind of value it is.
    by_cases digit : isDigit c = true
    · refine .like (decisive_skipNumber (c :: rest)) fun d tail alike => ?_
      obtain rfl := alike.eq (ascii_of_isDigit c digit)
      rw [skipPlain, skipScalar_digit digit]
    by_cases known : c = 'n' ∨ c = 't' ∨ c = 'f' ∨ c = '-' ∨ c = '"'
    · have word {letters : List Char} (ascii : ∀ c ∈ letters, c.toNat < 128) :=
        decisive_readWord ascii rest
      obtain rfl | rfl | rfl | rfl | rfl := known
      · exact .cons (word (by simp))
      · exact .cons (word (by simp))
      · exact .cons (word (by simp))
      · exact .cons (decisive_skipNumber rest)
      · exact .cons (decisive_skipString rest)
    · refine .peek (.error (.here .noValue [])) fun d tail alike => ?_
      push Not at known
      obtain ⟨null, yes, no, minus, quote⟩ := known
      rw [skipPlain, skipScalar]
      · rw [if_neg (alike.isDigit_eq ▸ digit)]
        rfl
      · exact alike.ne null (by decide)
      · exact alike.ne yes (by decide)
      · exact alike.ne no (by decide)
      · exact alike.ne minus (by decide)
      · exact alike.ne quote (by decide)

/-- Passes over what is part way read, where a value is expected in front of no blanks. -/
def skipDue (brackets : List Bracket) : List Char → Except Fault (List Char)
  | '[' :: rest => skipOpen (.close true) (.list :: brackets) rest
  | '\x7b' :: rest => skipOpen (.close true) (.object :: brackets) rest
  | text => (skipPlain text).bind (skipOpen (.close false) brackets)

/-- Blanks in front of an expected value are passed over. -/
theorem skipOpen_value (brackets : List Bracket) (text : List Char) :
    skipOpen .value brackets text = skipDue brackets (skipBlanks text) := by
  rw [skipOpen]
  -- The four cases are the end of the text, both brackets, and a value without parts.
  split
  · rename_i found
    rw [found]
    rfl
  · rename_i found
    rw [found, skipDue]
  · rename_i found
    rw [found, skipDue]
  · rename_i c rest list object found
    rw [found, skipDue, skipPlain]
    · cases skipScalar c rest <;> rfl
    · simpa using list
    · simpa using object

/-- Passes over what is part way read, where the end of a bracket may come in front of no blanks. -/
def skipDone (fresh : Bool) (bracket : Bracket) (brackets : List Bracket) :
    List Char → Except Fault (List Char)
  | [] => .error (.here bracket.cut [])
  | c :: rest =>
    if c = bracket.closing then skipOpen (.close false) brackets rest
    else if fresh then (skipEntry bracket (c :: rest)).bind (skipOpen .value (bracket :: brackets))
    else if c = ',' then (skipEntry bracket rest).bind (skipOpen .value (bracket :: brackets))
    else .error (.here bracket.noComma (c :: rest))

/-- Blanks in front of the end of a bracket are passed over. -/
theorem skipOpen_close (fresh : Bool) (bracket : Bracket) (brackets : List Bracket)
    (text : List Char) :
    skipOpen (.close fresh) (bracket :: brackets) text =
    skipDone fresh bracket brackets (skipBlanks text) := by
  rw [skipOpen]
  split
  · rename_i found
    rw [found]
    rfl
  · rename_i c rest found
    rw [found, skipDone]
    -- Whether an entry is passed over with or without its comma, each outcome agrees.
    cases skipEntry bracket (c :: rest) <;> cases skipEntry bracket rest <;> rfl

/--
Where a value is expected, what comes is decided if it is so behind the
value or its opening bracket.
-/
theorem decidedAt_value {brackets : List Bracket} {text : List Char}
    (close : ∀ shorter : List Char, shorter.length < text.length →
      ∀ fresh brackets, DecidedAt (skipOpen (.close fresh) brackets) shorter) :
    DecidedAt (skipOpen .value brackets) text := by
  have front (other : List Char) : skipOpen .value brackets (skipBlanks other) =
      skipOpen .value brackets other := by
    rw [skipOpen_value, skipOpen_value, skipBlanks_idem]
  refine .blanks front (by rw [skipOpen_value]; rfl) fun c rest visible passed => ?_
  have less := skipBlanks_length text
  rw [passed, List.length_cons] at less
  -- Behind an opening bracket less is left, and a value without parts takes a character too.
  by_cases list : c = '['
  · subst list
    exact .behind (fun tail => by rw [skipOpen_value, skipBlanks_cons visible, skipDue])
      (close rest less _ _)
  by_cases object : c = '\x7b'
  · subst object
    exact .behind (fun tail => by rw [skipOpen_value, skipBlanks_cons visible, skipDue])
      (close rest less _ _)
  · have plain : DecidedAt (fun text => (skipPlain text).bind (skipOpen (.close false) brackets))
        (c :: rest) := by
      refine .after (decisive_skipPlain (c :: rest)) (fun _ => rfl) fun outcome found => ?_
      exact close outcome (Nat.lt_of_le_of_lt (skipScalar_length found) less) false brackets
    refine .like plain fun d tail alike => ?_
    rw [skipOpen_value, skipBlanks_cons (alike.visible visible), skipDue]
    · rintro after ⟨⟩
      exact alike.ne list (by decide) rfl
    · rintro after ⟨⟩
      exact alike.ne object (by decide) rfl

/--
Where a bracket may end, what comes is decided if it is so behind that end
and behind what comes else.
-/
theorem decidedAt_close {fresh : Bool} {brackets : List Bracket} {text : List Char}
    (close : ∀ shorter : List Char, shorter.length < text.length →
      ∀ fresh brackets, DecidedAt (skipOpen (.close fresh) brackets) shorter)
    (value : ∀ shorter : List Char, shorter.length ≤ text.length →
      ∀ brackets, DecidedAt (skipOpen .value brackets) shorter) :
    DecidedAt (skipOpen (.close fresh) brackets) text := by
  cases brackets with
  | nil => exact .stop (.ok []) fun other _ => by rw [skipOpen]; rfl
  | cons bracket brackets =>
    have front (other : List Char) :
        skipOpen (.close fresh) (bracket :: brackets) (skipBlanks other) =
          skipOpen (.close fresh) (bracket :: brackets) other := by
      rw [skipOpen_close, skipOpen_close, skipBlanks_idem]
    refine .blanks front (by rw [skipOpen_close]; rfl) fun c rest visible passed => ?_
    have less := skipBlanks_length text
    rw [passed, List.length_cons] at less
    have short : bracket.closing.toNat < 128 := by cases bracket <;> decide
    -- What stands between two values is passed over like an entry of its own.
    have entry (rest : List Char) (enough : rest.length ≤ text.length) :
        DecidedAt (fun text =>
          (skipEntry bracket text).bind (skipOpen .value (bracket :: brackets))) rest := by
      refine .after (decisive_skipEntry bracket rest) (fun _ => rfl) fun outcome found => ?_
      exact value outcome (Nat.le_trans (skipEntry_length found) enough) (bracket :: brackets)
    by_cases closes : c = bracket.closing
    · refine .behind (fun tail => ?_) (close rest less false brackets)
      rw [skipOpen_close, skipBlanks_cons visible, skipDone, if_pos closes]
    cases fresh with
    | true =>
      refine .like (entry (c :: rest) less) fun d tail alike => ?_
      rw [skipOpen_close, skipBlanks_cons (alike.visible visible), skipDone,
        if_neg (alike.ne closes short), if_pos rfl]
    | false =>
      by_cases comma : c = ','
      · subst comma
        refine .behind (fun tail => ?_) (entry rest (Nat.le_of_lt less))
        rw [skipOpen_close, skipBlanks_cons visible, skipDone, if_neg closes,
          if_neg Bool.false_ne_true, if_pos rfl]
      · refine .peek (.error (.here bracket.noComma [])) fun d tail alike => ?_
        rw [skipOpen_close, skipBlanks_cons (alike.visible visible), skipDone,
          if_neg (alike.ne closes short), if_neg Bool.false_ne_true,
          if_neg (alike.ne comma (by decide))]
        rfl

/--
What passing over a value that is part way read comes to is decided, whichever brackets are open.
-/
theorem decisive_skipOpen (expecting : Expecting) (brackets : List Bracket) :
    Decisive (skipOpen expecting brackets) := by
  -- A value takes a character, so behind it the text is shorter; in front of it, it may be as long.
  refine DecidedAt.of_shorter (r := fun i : Expecting × List Bracket => skipOpen i.1 i.2)
    (fun text ih i => ?_)
    (expecting, brackets)
  obtain ⟨expecting, brackets⟩ := i
  have close (shorter : List Char) (less : shorter.length < text.length) (fresh : Bool)
    (brackets : List Bracket) :
      DecidedAt (skipOpen (.close fresh) brackets) shorter :=
        ih shorter less (.close fresh, brackets)
  cases expecting with
  | value => exact decidedAt_value close
  | close fresh =>
    refine decidedAt_close close fun shorter enough brackets => ?_
    exact decidedAt_value fun least less => close least (Nat.lt_of_lt_of_le less enough)

/-- What passing over a value comes to is decided. -/
theorem decisive_skipValue : Decisive skipValue := decisive_skipOpen .value []

/-- Finds the fault in a value that is not of the wanted kind. -/
def refuse {α : Type} (wanted : Wanted) : List Char → Except Fault (α × List Char)
  | [] => .error (.here .valueCut [])
  | c :: rest => .error (wrongKindAt wanted c rest)

/-- Finds the fault in a number behind which this text is left. -/
def refuseNumber {α : Type} (wanted : Wanted) (value : Numeral) (rest : List Char) :
    Except Fault (α × List Char) :=
  .error (.behind (.wrongKind value.found wanted) rest)

/-- A number that is not wanted is read first. -/
theorem refuse_digit {α : Type} {wanted : Wanted} {c : Char} (digit : isDigit c = true)
    (rest : List Char) :
    refuse (α := α) wanted (c :: rest) =
      (readNumeral false (c :: rest)).bind (Function.uncurry (refuseNumber wanted)) := by
  rw [refuse]
  unfold wrongKindAt
  -- A digit is none of the characters for which another kind of value is refused.
  split
  all_goals first | cases digit | rw [if_pos digit]
  beta_reduce
  cases readNumeral false (c :: rest) <;> rfl

/-- Where the fault in a value of another kind shows, and what it says, is decided. -/
theorem decisive_refuse {α : Type} (wanted : Wanted) : Decisive (refuse (α := α) wanted) := by
  intro text
  cases text with
  | nil => exact .nil rfl
  | cons c rest =>
    -- The value is read first, and then it is refused.
    have word {c : Char} (letters : List Char) (found : Found)
        (ascii : ∀ c ∈ letters, c.toNat < 128)
        (same : ∀ tail, refuse (α := α) wanted (c :: tail) =
          (readWord letters tail).bind fun rest =>
            .error (.behind (.wrongKind found wanted) rest)) :
        DecidedAt (refuse (α := α) wanted) (c :: rest) :=
      .cons (.after (decisive_readWord ascii rest) same fun _ _ => .finds _ 0)
    have number (negative : Bool) (text : List Char) : DecidedAt (fun text =>
        (readNumeral negative text).bind (Function.uncurry (refuseNumber (α := α) wanted))) text :=
      .afterValue (decisive_readNumeral negative text) (fun _ => rfl) fun _ _ _ => .finds _ 0
    by_cases digit : isDigit c = true
    · refine .like (number false (c :: rest)) fun d tail alike => ?_
      obtain rfl := alike.eq (ascii_of_isDigit c digit)
      exact refuse_digit digit tail
    by_cases known : c = 'n' ∨ c = 't' ∨ c = 'f' ∨ c = '-' ∨ c = '"' ∨ c = '[' ∨ c = '\x7b'
    · obtain rfl | rfl | rfl | rfl | rfl | rfl | rfl := known
      · refine word ['u', 'l', 'l'] .null (by simp) fun tail => ?_
        rw [refuse, wrongKindAt]
        beta_reduce
        cases readWord ['u', 'l', 'l'] tail <;> rfl
      · refine word ['r', 'u', 'e'] (.truth true) (by simp) fun tail => ?_
        rw [refuse, wrongKindAt]
        beta_reduce
        cases readWord ['r', 'u', 'e'] tail <;> rfl
      · refine word ['a', 'l', 's', 'e'] (.truth false) (by simp) fun tail => ?_
        rw [refuse, wrongKindAt]
        beta_reduce
        cases readWord ['a', 'l', 's', 'e'] tail <;> rfl
      · refine .behind (fun tail => ?_) (number true rest)
        rw [refuse, wrongKindAt]
        beta_reduce
        cases readNumeral true tail <;> rfl
      · refine .cons (.afterValue (decisive_readString rest)
          (k := fun content rest =>
            .error (.behind (.wrongKind (.text (String.ofList content)) wanted) rest))
          (fun tail => ?_) fun _ _ _ => .finds _ 0)
        rw [refuse, wrongKindAt]
        cases readString tail <;> rfl
      · refine .peek (.error (.behind (.wrongKind .list wanted) [])) fun d tail alike => ?_
        obtain rfl := alike.eq (by decide)
        rfl
      · refine .peek (.error (.behind (.wrongKind .object wanted) [])) fun d tail alike => ?_
        obtain rfl := alike.eq (by decide)
        rfl
    · refine .peek (.error (.here .noValue [])) fun d tail alike => ?_
      push Not at known
      obtain ⟨null, yes, no, minus, quote, list, object⟩ := known
      rw [refuse, wrongKindAt]
      · rw [if_neg (alike.isDigit_eq ▸ digit)]
        rfl
      · exact alike.ne null (by decide)
      · exact alike.ne yes (by decide)
      · exact alike.ne no (by decide)
      · exact alike.ne minus (by decide)
      · exact alike.ne quote (by decide)
      · exact alike.ne list (by decide)
      · exact alike.ne object (by decide)

/-- What a string comes to where one is wanted is decided. -/
theorem decisive_readText : Decisive readText := by
  intro text
  refine .blanks (fun other => by rw [readText, skipBlanks_idem, readText])
    rfl fun c rest visible _ => ?_
  by_cases quote : c = '"'
  · subst quote
    refine .behind (fun tail => ?_) (.mapRead String.ofList (decisive_readString rest))
    rw [readText, skipBlanks_cons visible]
    exact if_pos rfl
  · -- All but a quote begins a value of another kind, and what that comes to is decided.
    refine .like (decisive_refuse .text (c :: rest)) fun d tail alike => ?_
    rw [readText, skipBlanks_cons (alike.visible visible)]
    exact if_neg (alike.ne quote (by decide))

/-- What a list or an object comes to is decided, if it is so for what follows either bracket. -/
theorem decisive_readBracketed {α : Type} (wanted : Wanted)
    {items members : List Char → Except Fault (α × List Char)} (list : Decisive items)
    (object : Decisive members) : Decisive (readBracketed wanted items members) := by
  intro text
  refine .blanks (fun other => by rw [readBracketed, skipBlanks_idem, readBracketed])
    rfl fun c rest visible _ => ?_
  by_cases bracket : c = '['
  · subst bracket
    exact .behind (fun tail => readBracketed_list (List.forall_mem_nil _) tail) (list rest)
  by_cases brace : c = '\x7b'
  · subst brace
    exact .behind (fun tail => readBracketed_object (List.forall_mem_nil _) tail) (object rest)
  · -- Anything else is a value of another kind, and is refused as such.
    refine .like (decisive_refuse wanted (c :: rest)) fun d tail alike => ?_
    rw [readBracketed, skipBlanks_cons (alike.visible visible)]
    simp only [if_neg (alike.ne bracket (by decide)), if_neg (alike.ne brace (by decide))]
    rfl

/-- Whether a number is kept is decided where it ends. -/
theorem decisive_below (value : Numeral) (limit : Nat) (wanted : Wanted) :
    Decisive fun text => value.below limit wanted text := by
  intro text
  -- The number is all there. Only where the fault shows depends on the text.
  cases value with
  | whole value =>
    exact .ite (fun _ => .brings value.toNat) fun _ => .finds (.wrongInteger value wanted) 0
  | float value => exact .finds (.wrongKind (.float value) wanted) 0

/-- What a number comes to where one below a limit is wanted is decided. -/
theorem decisive_readBelow (limit : Nat) (wanted : Wanted) : Decisive (readBelow limit wanted) := by
  intro text
  refine .blanks (fun other => by rw [readBelow, skipBlanks_idem, readBelow])
    rfl fun c rest visible _ => ?_
  -- A number is read before it is held against the limit, and all else is refused.
  have number (negative : Bool) (text : List Char) : DecidedAt (fun text =>
      (readNumeral negative text).bind (Function.uncurry fun value rest =>
        value.below limit wanted rest)) text :=
    .afterValue (decisive_readNumeral negative text) (fun _ => rfl) fun value rest _ =>
      decisive_below value limit wanted rest
  by_cases minus : c = '-'
  · subst minus
    refine .behind (fun tail => ?_) (number true rest)
    rw [readBelow, skipBlanks_cons visible]
    simp only [if_pos]
    cases readNumeral true tail <;> rfl
  by_cases digit : isDigit c = true
  · refine .like (number false (c :: rest)) fun d tail alike => ?_
    obtain rfl := alike.eq (ascii_of_isDigit c digit)
    rw [readBelow, skipBlanks_cons visible]
    simp only [if_neg minus, if_pos digit]
    cases readNumeral false (d :: tail) <;> rfl
  · refine .like (decisive_refuse wanted (c :: rest)) fun d tail alike => ?_
    rw [readBelow, skipBlanks_cons (alike.visible visible)]
    simp only [if_neg (alike.ne minus (by decide)), alike.isDigit_eq, if_neg digit]
    rfl

/-- What a key comes to is decided. -/
theorem decisive_readKey : Decisive readKey := by
  intro text
  cases text with
  | nil => exact .nil rfl
  | cons c rest =>
    by_cases quote : c = '"'
    · subst quote
      exact .behind (fun tail => by rw [readKey, if_pos rfl])
        (.mapRead (some ∘ String.ofList) (decisive_readString rest))
    · -- A key that is no string is a fault at its first character.
      refine .peek (.error (.here .badKey [])) fun d tail alike => ?_
      rw [readKey, if_neg (alike.ne quote (by decide))]
      rfl

/-- Whether a certain character of one byte comes next can be seen from one byte. -/
theorem Sees.head_iff {text other : List Char} (sees : Sees 1 text other) {c : Char}
    (ascii : c.toNat < 128) :
    other.head? = some c ↔ text.head? = some c := by
  cases text with
  | nil => rw [sees.nil Nat.zero_lt_one]
  | cons d rest =>
    obtain ⟨e, tail, rfl, alike⟩ := sees.cons Nat.zero_lt_one
    simp only [List.head?_cons, Option.some.injEq]
    -- The characters are alike, and of characters of one byte that means the same.
    constructor
    · rintro rfl
      exact Decidable.byContradiction fun other => alike.ne other ascii rfl
    · rintro rfl
      exact alike.eq ascii

/-- What the key of the next member comes to is decided. -/
theorem decisive_nextKey (first : Bool) : Decisive (nextKey first) := by
  intro text
  refine .blanks (fun other => by rw [nextKey, skipBlanks_idem, nextKey])
    rfl fun c rest visible _ => ?_
  by_cases closes : c = '\x7d'
  · subst closes
    refine .behind (fun tail => ?_) (.brings none)
    rw [nextKey, skipBlanks_cons visible]
    exact if_pos rfl
  cases first with
  | true =>
    refine .like (decisive_readKey (c :: rest)) fun d tail alike => ?_
    rw [nextKey, skipBlanks_cons (alike.visible visible)]
    exact if_neg (alike.ne closes (by decide))
  | false =>
    by_cases comma : c = ','
    · subst comma
      -- Behind a comma the end of the object is a fault of its own.
      refine .behind (s := fun tail =>
        if (skipBlanks tail).head? = some '\x7d' then
          .error (.here .trailingComma (skipBlanks tail))
        else readKey (skipBlanks tail)) (fun tail => ?_) ?_
      · rw [nextKey, skipBlanks_cons visible]
        rfl
      · refine .pass ascii_of_isBlank (k := fun _ tail =>
          if tail.head? = some '\x7d' then .error (.here .trailingComma tail) else readKey tail)
            (fun _ => rfl) ?_
        exact .look (fun other sees => sees.head_iff (by decide))
          (fun _ => .finds .trailingComma 1) fun _ => decisive_readKey _
    · refine .peek (.error (.here .noObjectComma [])) fun d tail alike => ?_
      rw [nextKey, skipBlanks_cons (alike.visible visible)]
      simp only [if_neg (alike.ne closes (by decide)), if_neg (alike.ne comma (by decide)),
        if_neg Bool.false_ne_true]
      rfl

/-- Says that an item comes behind a comma, in front of no blanks. -/
def itemDue : List Char → Except Fault (Bool × List Char)
  | [] => .error (.here .valueCut [])
  | c :: rest =>
    if c = ']' then .error (.here .trailingComma (c :: rest)) else .ok (true, c :: rest)

/-- Whether an item comes behind a comma is decided. -/
theorem decisive_itemDue : Decisive itemDue := by
  intro text
  cases text with
  | nil => exact .nil rfl
  | cons c rest =>
    -- Behind a comma the end of the list is a fault of its own.
    by_cases closes : c = ']'
    · refine .peek (.error (.here .trailingComma [])) fun d tail alike => ?_
      subst closes
      obtain rfl := alike.eq (by decide)
      rfl
    · refine .peek (.ok (true, [])) fun d tail alike => ?_
      rw [itemDue, if_neg (alike.ne closes (by decide))]
      rfl

/-- Whether a next item comes is decided. -/
theorem decisive_nextItem (first : Bool) : Decisive (nextItem first) := by
  intro text
  refine .blanks (fun other => by rw [nextItem, skipBlanks_idem, nextItem])
    rfl fun c rest visible _ => ?_
  by_cases closes : c = ']'
  · subst closes
    refine .behind (fun tail => ?_) (.brings false)
    rw [nextItem, skipBlanks_cons visible]
    exact if_pos rfl
  -- The first item has no comma in front of it, and every later one needs one.
  cases first with
  | true =>
    refine .peek (.ok (true, [])) fun d tail alike => ?_
    rw [nextItem, skipBlanks_cons (alike.visible visible)]
    exact if_neg (alike.ne closes (by decide))
  | false =>
    by_cases comma : c = ','
    · subst comma
      refine .behind (s := fun tail => itemDue (skipBlanks tail)) (fun tail => ?_) ?_
      · rw [nextItem, skipBlanks_cons visible]
        rfl
      · exact .pass ascii_of_isBlank (k := fun _ => itemDue) (fun _ => rfl) (decisive_itemDue _)
    · refine .peek (.error (.here .noListComma [])) fun d tail alike => ?_
      rw [nextItem, skipBlanks_cons (alike.visible visible)]
      simp only [if_neg (alike.ne closes (by decide)), if_neg (alike.ne comma (by decide)),
        if_neg Bool.false_ne_true]
      rfl

/-- Whether a list ends is decided. -/
theorem decisive_closeList : Decisive closeList := by
  intro text
  refine .blanks (fun other => by rw [closeList, skipBlanks_idem, closeList])
    rfl fun c rest visible _ => ?_
  by_cases closes : c = ']'
  · subst closes
    refine .behind (s := .ok) (fun tail => ?_) .passes
    rw [closeList, skipBlanks_cons visible]
    exact if_pos rfl
  -- With a comma in front it is told apart whether the list ends behind it.
  by_cases comma : c = ','
  · subst comma
    refine .cons (.pass ascii_of_isBlank (k := fun _ tail =>
        if tail.head? = some ']' then .error (.here .trailingComma tail)
        else .error (.here .trailingText tail))
      (fun tail => ?_) ?_)
    · rw [closeList, skipBlanks_cons visible, ← skipBlanks]
      simp only [if_neg closes, if_pos]
      by_cases more : (skipBlanks tail).head? = some ']'
      · rw [if_pos more, if_pos more]
      · rw [if_neg more, if_neg more]
    · exact .look (fun other sees => sees.head_iff (by decide))
        (fun _ => .finds .trailingComma 1) fun _ => .finds .trailingText 1
  · refine .peek (.error (.here .trailingText [])) fun d tail alike => ?_
    rw [closeList, skipBlanks_cons (alike.visible visible)]
    simp only [if_neg (alike.ne closes (by decide)), if_neg (alike.ne comma (by decide))]
    rfl

/-- Where a fault in the meaning of an object shows is decided. -/
theorem decisive_faultInObject {β : Type} [Outcome β] (cause : Cause) :
    Decisive fun text => (.error (faultInObject cause text) : Except Fault β) := by
  intro text
  refine .blanks (fun other => by rw [faultInObject, skipBlanks_idem, faultInObject])
    rfl fun c rest visible _ => ?_
  -- The fault shows behind the brace if the object ends here, and else where it was found.
  by_cases closes : c = '\x7d'
  · subst closes
    refine .behind (fun tail => ?_) (.finds cause 0)
    rw [faultInObject, skipBlanks_cons visible]
    rfl
  · refine .peek (.error (.behind cause [])) fun d tail alike => ?_
    rw [faultInObject, skipBlanks_cons (alike.visible visible)]
    split
    · rename_i same
      exact absurd (List.cons.inj same).1 (alike.ne closes (by decide))
    · rfl

/-- Where a fault in the meaning of a list shows is decided. -/
theorem decisive_faultInList {β : Type} [Outcome β] (cause : Cause) :
    Decisive fun text => (.error (faultInList cause text) : Except Fault β) := by
  intro text
  refine .blanks (fun other => by rw [faultInList, skipBlanks_idem, faultInList])
    rfl fun c rest visible _ => ?_
  by_cases closes : c = ']'
  · subst closes
    refine .behind (fun tail => ?_) (.finds cause 0)
    rw [faultInList, skipBlanks_cons visible]
    rfl
  -- A comma is passed over with the blanks behind it, and nothing else is.
  by_cases comma : c = ','
  · subst comma
    refine .cons (.pass ascii_of_isBlank (k := fun _ tail => .error (.behind cause tail))
      (fun tail => ?_) (.finds cause 0))
    rw [faultInList, skipBlanks_cons visible]
    rfl
  · refine .peek (.error (.behind cause [])) fun d tail alike => ?_
    rw [faultInList, skipBlanks_cons (alike.visible visible)]
    split
    · rename_i same
      exact absurd (List.cons.inj same).1 (alike.ne closes (by decide))
    · rename_i same
      exact absurd (List.cons.inj same).1 (alike.ne comma (by decide))
    · rfl

/--
What the members of an object come to is decided, if it is so for each member
and for what is done at the end.
-/
theorem Walks.decisive {σ ρ : Type} {loop : σ → Bool → List Char → Except Fault (ρ × List Char)}
    {step : σ → String → List Char → Except Fault (σ × List Char)}
    {finish : σ → List Char → Except Fault (ρ × List Char)}
    {Does : σ → String × List Char → σ → Prop} (walks : Walks loop step finish Does)
    (steps : ∀ state key, Decisive (step state key)) (ends : ∀ state, Decisive (finish state))
    (shorter : ∀ {state next key text rest}, step state key text = .ok (next, rest) →
      rest.length < text.length)
    (state : σ) (first : Bool) : Decisive (loop state first) := by
  -- Each member leaves less than there was.
  refine DecidedAt.of_shorter (r := fun i : σ × Bool => loop i.1 i.2) (fun text ih i => ?_)
    (state, first)
  obtain ⟨state, first⟩ := i
  refine .afterValue (decisive_nextKey first text)
    (k := fun key rest => key.elim (finish state rest) fun key =>
      (step state key rest).bind (Function.uncurry fun next => loop next false))
    (fun tail => ?_) fun key rest found => ?_
  · show loop state first tail = _
    rw [walks.turn]
    cases nextKey first tail with
    | error fault => rfl
    | ok outcome =>
      obtain ⟨_ | key, rest⟩ := outcome
      · rfl
      · simp only [Except.bind, Function.uncurry, Option.elim]
        cases step state key rest <;> rfl
  · have less := nextKey_length found
    cases key with
    | none => exact ends state rest
    | some key =>
      refine .afterValue (steps state key rest) (fun _ => rfl) fun next rest found => ?_
      exact ih rest (Nat.lt_trans (shorter found) less) (next, false)

end TaskPool.Json
