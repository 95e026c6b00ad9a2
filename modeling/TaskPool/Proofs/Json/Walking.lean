import TaskPool.Proofs.Json.Skipping
import TaskPool.Settings.Reader

/-!
Values of a wanted kind, and the steps between members or items, are read just
where the grammar has them.
-/

namespace TaskPool.Json

/-! Numbers below a limit. -/

/--
Whether a text is the plain decimal of a number below a limit: no sign,
leading zero, fraction or exponent.
-/
def IsDecimal (limit : Nat) (text : List Char) (n : Nat) : Prop :=
  n < limit ∧ text = Nat.toDigits 10 n

/-- A digit is written for the value that it is read as. -/
theorem digitChar_of_isDigit {c : Char} (digit : isDigit c = true) :
    c.toNat - '0'.toNat < 10 ∧ Nat.digitChar (c.toNat - '0'.toNat) = c := by
  -- The character is one of ten.
  have range : 48 ≤ c.toNat ∧ c.toNat ≤ 57 := by
    simpa [isDigit, Char.le_def, UInt32.le_iff_toNat_le] using digit
  obtain ⟨least, most⟩ := range
  have same : c = Char.ofNat c.toNat := (Char.ofNat_toNat c).symm
  rw [same]
  interval_cases c.toNat <;> decide

/-- Digits behind those of a number other than zero make the digits of a longer number. -/
theorem toDigits_ofDigitChars {digits : List Char} (all : ∀ c ∈ digits, isDigit c = true)
    {start : Nat} (positive : 0 < start) :
    Nat.toDigits 10 (Nat.ofDigitChars 10 digits start) = Nat.toDigits 10 start ++ digits := by
  -- The induction takes the first digit into the number in front.
  induction digits generalizing start with
  | nil => simp
  | cons c digits ih =>
    obtain ⟨digit, others⟩ := List.forall_mem_cons.mp all
    obtain ⟨small, same⟩ := digitChar_of_isDigit digit
    rw [Nat.ofDigitChars_cons, ih others (by omega), ← Nat.toDigits_append_toDigits (by decide)
      positive small,
      Nat.toDigits_of_lt_base small, same]
    simp

/-- The digits of a whole number are those of its value. -/
theorem IsWhole.toDigits {digits : List Char} (whole : IsWhole digits) :
    digits = Nat.toDigits 10 (Nat.ofDigitChars 10 digits 0) := by
  obtain ⟨⟨some, all⟩, zeros⟩ := whole
  obtain ⟨c, more, rfl⟩ := List.exists_cons_of_ne_nil some
  obtain ⟨digit, others⟩ := List.forall_mem_cons.mp all
  obtain ⟨small, same⟩ := digitChar_of_isDigit digit
  rcases Nat.eq_zero_or_pos (c.toNat - '0'.toNat) with zero | positive
  · -- Only the zero itself begins with a zero.
    obtain rfl : c = '0' := by rw [← same, zero]; rfl
    obtain rfl : more = [] := by simpa using zeros rfl
    rfl
  · rw [Nat.ofDigitChars_cons, Nat.mul_zero, Nat.zero_add, toDigits_ofDigitChars others positive,
      Nat.toDigits_of_lt_base small, same]
    rfl

/-- The digits that were read in front of a point or an exponent are a whole number. -/
theorem readWhole_sound {text digits rest : List Char}
    (read : readWhole text = .ok (digits, rest)) :
    IsWhole digits ∧ text = digits ++ rest := by
  unfold readWhole at read
  -- There is a first digit; a zero stands alone, and any other one is
  -- followed by as many as there are.
  split at read
  · cases read
  · rename_i c after
    split at read
    · rename_i zero
      split at read <;> cases read
      exact ⟨⟨⟨by simp, by simp [zero]; rfl⟩, fun _ => by rw [zero]⟩, rfl⟩
    · rename_i other
      split at read <;> cases read
      rename_i digit
      refine ⟨⟨⟨by simp, List.forall_mem_cons.mpr ⟨digit, isDigit_takeWhile after⟩⟩,
        fun zero => ?_⟩, by simp⟩
      exact absurd (Option.some.inj zero) other

/-- Digits that are all taken make their value. -/
theorem absorb_sound {digits : List Char} {start value : Nat}
    (taken : absorb start digits = (value, [])) :
    value = Nat.ofDigitChars 10 digits start := by
  -- The digits are taken from the left, each into the number that those in front of it make.
  induction digits generalizing start with
  | nil =>
    cases taken
    rfl
  | cons c digits ih =>
    rw [absorb] at taken
    split at taken
    · rw [ih taken, Nat.ofDigitChars_cons, Nat.mul_comm]
      rfl
    · cases taken

/-- What has a fraction or an exponent is floating. -/
theorem readScaled_float {negative : Bool} {significand : Nat} {power : Int} {text rest : List Char}
    {value : Numeral} (read : readScaled negative significand power text = .ok (value, rest)) :
    ∃ float, value = .float float := by
  -- Every way through ends with a floating number, or with a fault.
  have finished {power : Int} {text : List Char}
      (read : finishFloat negative significand power text = .ok (value, rest)) : ∃ float, value =
        .float float := by
    unfold finishFloat at read
    split at read <;> cases read
    exact ⟨_, rfl⟩
  unfold readScaled at read
  split at read
  · unfold readExponent at read
    split at read
    · cases read
    · split at read
      · split at read
        · exact finished read
        · split at read <;> cases read
          exact ⟨_, rfl⟩
      · cases read
  · exact finished read

/--
A whole number was read from its digits, and it is negative if a sign stands in front of them.
-/
theorem readNumeral_whole {negative : Bool} {text rest : List Char} {value : Int}
    (read : readNumeral negative text = .ok (.whole value, rest)) :
    if negative then value < 0 else ∃ n : Nat, value = n ∧ text = Nat.toDigits 10 n ++ rest := by
  have scaled {negative : Bool} {significand : Nat} {power : Int} {text : List Char} :
      readScaled negative significand power text ≠ .ok (.whole value, rest) := by
    intro read
    obtain ⟨float, same⟩ := readScaled_float read
    cases same
  unfold readNumeral at read
  split at read
  · cases read
  · rename_i digits after found
    obtain ⟨whole, rfl⟩ := readWhole_sound found
    simp only at read
    split at read
    · split at read
      · cases read
      · exact absurd read scaled
    · split at read
      · -- All digits were taken, and neither a point nor an exponent follows.
        rename_i all
        have taken : absorb 0 digits = ((absorb 0 digits).1, []) := by
          rw [Bool.and_eq_true, decide_eq_true_eq] at all
          exact Prod.ext rfl all.1
        have value_eq := absorb_sound taken
        simp only [Except.ok.injEq, Prod.mk.injEq] at read
        obtain ⟨read, rfl⟩ := read
        rw [value_eq] at read
        cases negative with
        | false =>
          cases read
          exact ⟨_, rfl, congrArg (· ++ after) whole.toDigits⟩
        | true =>
          unfold finishWhole at read
          simp only [Bool.not_true, Bool.false_eq_true, if_false] at read
          split at read
          · rename_i positive
            cases read
            rw [Bool.and_eq_true, decide_eq_true_eq] at positive
            simp
            omega
          · cases read
      · exact absurd read scaled

/-! Readers of values. -/

/--
Whether a reader accepts, behind any blanks, just those texts that stand for
a value, where a number may end.

Such a text begins with a character that is no blank and does not end a list.
-/
structure Reads {α : Type} (read : List Char → Except Fault (α × List Char))
    (Means : List Char → α → Prop) :
    Prop where
  sound : ∀ {text rest : List Char} {value : α}, read text = .ok (value, rest) →
    ∃ gap written, Gap gap ∧ Means written value ∧ text = gap ++ (written ++ rest)
  complete : ∀ {gap written rest : List Char} {value : α}, Gap gap → Means written value →
    EndsNumber rest →
    read (gap ++ (written ++ rest)) = .ok (value, rest)
  head : ∀ {written : List Char} {value : α}, Means written value →
    ∃ c rest, written = c :: rest ∧ isBlank c = false ∧ c ≠ ']'

/-- A reader whose results are changed reads the changed values. -/
theorem Reads.map {α β : Type} {read : List Char → Except Fault (α × List Char)}
    {Means : List Char → α → Prop} (reads : Reads read Means) (f : α → β) :
    Reads (fun text => mapRead f (read text)) fun written value => ∃ first, Means written first ∧
      value = f first where
  sound {text rest value} passed := by
    -- The text is read alike, and only the value is changed.
    obtain ⟨first, found, rfl⟩ := mapRead_eq_ok.mp passed
    obtain ⟨gap, written, blank, means, rfl⟩ := reads.sound found
    exact ⟨gap, written, blank, ⟨first, means, rfl⟩, rfl⟩
  complete {gap written rest value} blank means ends := by
    obtain ⟨first, means, rfl⟩ := means
    exact mapRead_eq_ok.mpr ⟨first, reads.complete blank means ends, rfl⟩
  head {written value} means := by
    obtain ⟨first, means, -⟩ := means
    exact reads.head means

/-- A reader of values reads whatever stands for them, in whichever words that is said. -/
theorem Reads.congr {α : Type} {read : List Char → Except Fault (α × List Char)}
    {Means Other : List Char → α → Prop} (reads : Reads read Means)
    (same : ∀ written value, Other written value ↔ Means written value) :
    Reads read Other := by
  have equal : Other = Means :=
    funext fun written => funext fun value => propext (same written value)
  rwa [equal]

/-- Numbers below a limit within the word are read from their decimals. -/
theorem reads_below {limit : Nat} (word : limit ≤ UInt64.size) (wanted : Wanted) :
    Reads (readBelow limit wanted) (IsDecimal limit) where
  sound {text rest n} read := by
    unfold readBelow at read
    split at read
    · cases read
    · rename_i c after passed
      obtain ⟨-, gap, blank, rfl⟩ := skipBlanks_eq_cons.mp passed
      -- A number is kept only if it is whole, and a whole one behind a sign is too small.
      have kept {numeral : Numeral} {left : List Char} (below : numeral.below limit wanted left =
        .ok (n, rest)) :
          left = rest ∧ n < limit ∧ numeral = .whole n := by
        unfold Numeral.below at below
        split at below
        · split at below
          · rename_i value range
            rw [Bool.and_eq_true, decide_eq_true_eq, decide_eq_true_eq] at range
            cases below
            exact ⟨rfl, by omega, by rw [Int.toNat_of_nonneg range.1]⟩
          · cases below
        · cases below
      split at read
      · split at read
        · cases read
        · rename_i found
          obtain ⟨rfl, -, rfl⟩ := kept read
          have negative := readNumeral_whole found
          rw [if_pos rfl] at negative
          omega
      · split at read
        · split at read
          · cases read
          · rename_i found
            obtain ⟨rfl, below, rfl⟩ := kept read
            obtain ⟨m, same, split⟩ := readNumeral_whole found
            obtain rfl : n = m := by omega
            exact ⟨gap, _, blank, ⟨below, rfl⟩, by rw [split]⟩
        · cases read
  complete {gap written rest n} blank means ends := by
    obtain ⟨below, rfl⟩ := means
    exact readBelow_toDigits below word blank ends
  head {written n} means := by
    obtain ⟨-, rfl⟩ := means
    obtain ⟨c, digits, front⟩ := List.exists_cons_of_ne_nil (Nat.toDigits_ne_nil (n := n) (b := 10))
    obtain ⟨visible, opens⟩ :=
      digit_opens (isDigit_toDigits c (by rw [front]; exact List.mem_cons_self))
    exact ⟨c, digits, front, visible, opens .list⟩

/-- Strings are read from their literals. -/
theorem reads_text : Reads readText IsLiteral where
  sound {text rest value} read := by
    unfold readText at read
    -- Only a quote can be in front, and behind it the string is read up to its other quote.
    split at read
    · cases read
    · rename_i c after passed
      obtain ⟨-, gap, blank, rfl⟩ := skipBlanks_eq_cons.mp passed
      split at read
      · rename_i quote
        obtain ⟨content, found, rfl⟩ := mapRead_eq_ok.mp read
        obtain ⟨spelling, spelled, rfl⟩ := readString_eq_ok.mp found
        exact ⟨gap, _, blank, ⟨spelling, by simpa using spelled, rfl⟩, by simp [quote]⟩
      · cases read
  complete {gap written rest value} blank means ends := by
    obtain ⟨spelling, spelled, rfl⟩ := means
    -- The spelling between the two quotes is read back as the string.
    have found : readString (spelling ++ '"' :: rest) = .ok (value.toList, rest) :=
      readString_eq_ok.mpr ⟨spelling, spelled, rfl⟩
    rw [List.cons_append, readText, skipBlanks_upTo blank rfl]
    simp [found, mapRead]
  head {written value} means := by
    obtain ⟨spelling, -, rfl⟩ := means
    exact ⟨'"', _, rfl, rfl, by decide⟩

/-- Values that nobody wants are passed over, and bring back what was there before. -/
theorem reads_skipped {α : Type} (kept : α) :
    Reads (fun text => (skipValue text).map (kept, ·)) (fun written value => IsValue written ∧
      value = kept) where
  sound {text rest value} passed := by
    -- Skipping tells where the value ends, and nothing of it is kept.
    cases found : skipValue text with
    | error fault => simp [found, Except.map] at passed
    | ok left =>
      obtain ⟨gap, written, blank, known, rfl⟩ := skipValue_sound found
      obtain ⟨rfl, rfl⟩ : kept = value ∧ left = rest := by simpa [found, Except.map] using passed
      exact ⟨gap, written, blank, ⟨known, rfl⟩, rfl⟩
  complete {gap written rest value} blank means ends := by
    obtain ⟨known, rfl⟩ := means
    rw [skipValue_complete blank known ends]
    rfl
  head {written value} means := by
    obtain ⟨c, rest, same, visible, opens⟩ := means.1.head
    exact ⟨c, rest, same, visible, opens .list⟩

/-! Members and items. -/

/-- A colon is read just where it stands behind blanks. -/
theorem readColon_eq_ok {text rest : List Char} :
    readColon text = .ok rest ↔ ∃ gap, Gap gap ∧ text = gap ++ ':' :: rest := by
  constructor
  · -- The reader succeeds only in front of a colon.
    intro read
    unfold readColon at read
    split at read
    · cases read
    · rename_i c after passed
      obtain ⟨-, gap, blank, rfl⟩ := skipBlanks_eq_cons.mp passed
      split at read
      · rename_i colon
        cases read
        exact ⟨gap, blank, by rw [colon]⟩
      · cases read
  · rintro ⟨gap, blank, rfl⟩
    exact readColon_gap blank rest

/-- A key is read just where the text begins with a literal for it. -/
theorem readKey_eq_ok {text rest : List Char} {key : Option String} :
    readKey text = .ok (key, rest) ↔
      ∃ name written, key = some name ∧ IsLiteral written name ∧ text = written ++ rest := by
  constructor
  · -- A key begins with a quote, and behind it there is its spelling.
    intro read
    unfold readKey at read
    split at read
    · cases read
    · split at read
      · rename_i quote
        obtain ⟨content, found, rfl⟩ := mapRead_eq_ok.mp read
        obtain ⟨spelling, spelled, rfl⟩ := readString_eq_ok.mp found
        exact ⟨_, _, rfl, ⟨spelling, by simpa using spelled, rfl⟩, by simp [quote]⟩
      · cases read
  · rintro ⟨name, written, rfl, ⟨spelling, spelled, rfl⟩, rfl⟩
    have found : readString (spelling ++ '"' :: rest) = .ok (name.toList, rest) :=
      readString_eq_ok.mpr ⟨spelling, spelled, rfl⟩
    simp [readKey, found, mapRead]

/-- The end of an object is found just where its bracket stands behind blanks. -/
theorem nextKey_eq_none {first : Bool} {text rest : List Char} :
    nextKey first text = .ok (none, rest) ↔ ∃ gap, Gap gap ∧ text = gap ++ '\x7d' :: rest := by
  -- A key that was read is never the end of the object.
  have keyed {text : List Char} : readKey text ≠ .ok (none, rest) := by
    intro read
    obtain ⟨name, written, same, -⟩ := readKey_eq_ok.mp read
    cases same
  constructor
  · intro read
    unfold nextKey at read
    -- So only the closing bracket is left, as every other way fails or reads a key.
    split at read
    · cases read
    · rename_i c after passed
      obtain ⟨-, gap, blank, rfl⟩ := skipBlanks_eq_cons.mp passed
      split at read
      · rename_i bracket
        cases read
        exact ⟨gap, blank, by rw [bracket]⟩
      · split at read
        · exact absurd read keyed
        · split at read
          · simp only at read
            split at read
            · cases read
            · exact absurd read keyed
          · cases read
  · rintro ⟨gap, blank, rfl⟩
    exact nextKey_end first blank rest

/-- The next key is found just where a literal for it stands behind what leads to it. -/
theorem nextKey_eq_some {first : Bool} {text rest : List Char} {key : String} :
    nextKey first text = .ok (some key, rest) ↔
      ∃ lead written, IsLead first lead ∧ IsLiteral written key ∧
        text = lead ++ (written ++ rest) := by
  constructor
  · -- The first key is behind blanks, and any other one behind a comma with blanks around it.
    intro read
    unfold nextKey at read
    split at read
    · cases read
    · rename_i c after passed
      obtain ⟨-, gap, blank, rfl⟩ := skipBlanks_eq_cons.mp passed
      split at read
      · cases read
      · split at read
        · rename_i fresh
          obtain ⟨name, written, same, literal, split⟩ := readKey_eq_ok.mp read
          cases same
          exact ⟨gap, written, by rw [IsLead, if_pos fresh]; exact blank, literal, by rw [split]⟩
        · rename_i stale
          split at read
          · rename_i comma
            simp only at read
            split at read
            · cases read
            · obtain ⟨name, written, same, literal, split⟩ := readKey_eq_ok.mp read
              cases same
              obtain ⟨more, free, behind⟩ := skipBlanks_split after
              refine ⟨gap ++ ',' :: more, written, ?_, literal, ?_⟩
              · rw [IsLead, if_neg stale]
                exact ⟨gap, more, blank, free, rfl⟩
              · rw [behind, split, comma]
                simp
          · cases read
  · -- The literal begins with a quote, where the blanks end and which is no closing bracket.
    rintro ⟨lead, written, front, literal, rfl⟩
    have read : readKey (written ++ rest) = .ok (some key, rest) :=
      readKey_eq_ok.mpr ⟨key, written, rfl, literal, rfl⟩
    obtain ⟨spelling, -, rfl⟩ := literal
    cases first with
    | true =>
      rw [nextKey, List.cons_append, skipBlanks_upTo front rfl]
      exact read
    | false =>
      obtain ⟨before, after, blank, free, rfl⟩ := front
      have passed (more : List Char) : skipBlanks (after ++ '"' :: more) = '"' :: more :=
        skipBlanks_upTo free rfl more
      rw [nextKey, List.append_assoc, List.cons_append, List.cons_append, skipBlanks_upTo blank rfl]
      simp only [passed]
      exact read

/-- The end of a list is found just where its bracket stands behind blanks. -/
theorem nextItem_eq_false {first : Bool} {text rest : List Char} :
    nextItem first text = .ok (false, rest) ↔ ∃ gap, Gap gap ∧ text = gap ++ ']' :: rest := by
  constructor
  · -- All other ways through fail or say that there is an item.
    intro read
    unfold nextItem at read
    split at read
    · cases read
    · rename_i c after passed
      obtain ⟨-, gap, blank, rfl⟩ := skipBlanks_eq_cons.mp passed
      split at read
      · rename_i bracket
        cases read
        exact ⟨gap, blank, by rw [bracket]⟩
      · split at read
        · cases read
        · split at read
          · split at read
            · cases read
            · split at read <;> cases read
          · cases read
  · rintro ⟨gap, blank, rfl⟩
    rw [nextItem, skipBlanks_upTo blank rfl]
    rfl

/--
The next item is found just where something stands behind what leads to it
that does not close the list.
-/
theorem nextItem_eq_true {first : Bool} {text rest : List Char} :
    nextItem first text = .ok (true, rest) ↔
      ∃ lead c after, IsLead first lead ∧ isBlank c = false ∧ c ≠ ']' ∧ rest = c :: after ∧
        text = lead ++ rest := by
  constructor
  · -- As with keys, but that an item may begin with anything that does not close the list.
    intro read
    unfold nextItem at read
    split at read
    · cases read
    · rename_i c after passed
      obtain ⟨visible, gap, blank, rfl⟩ := skipBlanks_eq_cons.mp passed
      split at read
      · cases read
      · rename_i other
        split at read
        · rename_i fresh
          cases read
          exact ⟨gap, c, after, by rw [IsLead, if_pos fresh]; exact blank, visible, other, rfl, rfl⟩
        · rename_i stale
          split at read
          · rename_i comma
            split at read
            · cases read
            · rename_i d behind second
              obtain ⟨seen, more, free, rfl⟩ := skipBlanks_eq_cons.mp second
              split at read <;> cases read
              rename_i inside
              refine ⟨gap ++ ',' :: more, d, behind, ?_, seen, inside, rfl, by rw [comma]; simp⟩
              rw [IsLead, if_neg stale]
              exact ⟨gap, more, blank, free, rfl⟩
          · cases read
  · -- What the item begins with is no blank, so the blanks end in front of it.
    rintro ⟨lead, c, after, front, visible, other, rfl, rfl⟩
    cases first with
    | true =>
      rw [nextItem, skipBlanks_upTo front visible]
      simp [other]
    | false =>
      obtain ⟨before, between, blank, free, rfl⟩ := front
      have passed : skipBlanks (between ++ c :: after) = c :: after :=
        skipBlanks_upTo free visible after
      rw [nextItem, List.append_assoc, List.cons_append, skipBlanks_upTo blank rfl]
      simp [passed, other]

/--
The end of a list of which no more items are wanted is read just where its
bracket stands behind blanks.
-/
theorem closeList_eq_ok {text rest : List Char} :
    closeList text = .ok rest ↔ ∃ gap, Gap gap ∧ text = gap ++ ']' :: rest := by
  constructor
  · -- Whatever is not the bracket is refused.
    intro read
    unfold closeList at read
    split at read
    · cases read
    · rename_i c after passed
      obtain ⟨-, gap, blank, rfl⟩ := skipBlanks_eq_cons.mp passed
      split at read
      · rename_i bracket
        cases read
        exact ⟨gap, blank, by rw [bracket]⟩
      · split at read <;> cases read
  · rintro ⟨gap, blank, rfl⟩
    rw [closeList, skipBlanks_upTo blank rfl]
    rfl

/-- Blanks may follow what leads to an entry. -/
theorem IsLead.append {first : Bool} {lead gap : List Char} (front : IsLead first lead)
    (blank : Gap gap) :
    IsLead first (lead ++ gap) := by
  -- The blanks go behind the comma, or behind the other blanks where there is no comma.
  cases first with
  | true => exact Gap.append front blank
  | false =>
    obtain ⟨before, after, free, empty, rfl⟩ := front
    exact ⟨before, after ++ gap, free, empty.append blank, by simp⟩

/-- A value behind a colon is changed after it was read. -/
theorem readAfterColon_map {α β : Type} (f : α → β)
    (read : List Char → Except Fault (α × List Char)) (text : List Char) :
    readAfterColon (fun text => mapRead f (read text)) text =
      mapRead f (readAfterColon read text) := by
  unfold readAfterColon
  split <;> rfl

section
variable {α : Type} {read : List Char → Except Fault (α × List Char)} {Means : List Char → α → Prop}
  {value : α} {first : Bool} {text rest behind lead written : List Char}

/-- An item that was reached and read is one behind what leads to it. -/
theorem Reads.item_sound (reads : Reads read Means)
    (reached : nextItem first text = .ok (true, behind))
    (passed : read behind = .ok (value, rest)) :
    ∃ lead written, IsLead first lead ∧ Means written value ∧ text = lead ++ (written ++ rest) := by
  obtain ⟨lead, -, -, front, -, -, -, rfl⟩ := nextItem_eq_true.mp reached
  obtain ⟨gap, written, blank, means, rfl⟩ := reads.sound passed
  exact ⟨lead ++ gap, written, front.append blank, means, by simp⟩

/-- An item is reached behind what leads to it, and read. -/
theorem Reads.item_complete (reads : Reads read Means) (front : IsLead first lead)
    (means : Means written value) (ends : EndsNumber rest) :
    nextItem first (lead ++ (written ++ rest)) = .ok (true, written ++ rest) ∧
      read (written ++ rest) = .ok (value, rest) := by
  obtain ⟨c, more, rfl, visible, other⟩ := reads.head means
  exact ⟨nextItem_eq_true.mpr ⟨lead, c, more ++ rest, front, visible, other, rfl, rfl⟩,
    reads.complete (List.forall_mem_nil _) means ends⟩

/-- A member whose key was reached and whose value was read is one behind what leads to it. -/
theorem Reads.member_sound {key : String} (reads : Reads read Means)
    (reached : nextKey first text = .ok (some key, behind))
    (passed : readAfterColon read behind = .ok (value, rest)) :
    ∃ lead written member, IsLead first lead ∧ IsMember (key, written) member ∧
      Means written value ∧
      text = lead ++ (member ++ rest) := by
  -- The key comes first, then the colon behind blanks, and then the value.
  obtain ⟨lead, literal, front, spelled, rfl⟩ := nextKey_eq_some.mp reached
  unfold readAfterColon at passed
  split at passed
  · cases passed
  · rename_i colon
    obtain ⟨before, free, rfl⟩ := readColon_eq_ok.mp colon
    obtain ⟨after, written, blank, means, rfl⟩ := reads.sound passed
    exact ⟨lead, written, _, front, ⟨literal, before, after, spelled, free, blank, rfl⟩,
      means, by simp⟩

/-- The key of a member is reached behind what leads to it, and its value is read. -/
theorem Reads.member_complete {key : String} {member : List Char} (reads : Reads read Means)
    (front : IsLead first lead) (known : IsMember (key, written) member)
    (means : Means written value) (ends : EndsNumber rest) :
    ∃ behind, nextKey first (lead ++ (member ++ rest)) = .ok (some key, behind) ∧
      readAfterColon read behind = .ok (value, rest) := by
  -- What is behind the key begins with the blanks in front of the colon.
  obtain ⟨literal, before, after, spelled, free, blank, rfl⟩ := known
  refine ⟨before ++ ':' :: (after ++ (written ++ rest)),
    nextKey_eq_some.mpr ⟨lead, literal, front, spelled, by simp⟩, ?_⟩
  rw [readAfterColon, readColon_eq_ok.mpr ⟨before, free, rfl⟩]
  exact reads.complete blank means ends

end

/-! Objects whose members change what was read so far. -/

/--
Whether some members, one after the other, lead from a state to another,
where it is known what one member does.
-/
def Leads {σ : Type} (Does : σ → String × List Char → σ → Prop) :
    σ → List (String × List Char) → σ → Prop
  | state, [], last => last = state
  | state, member :: members, last => ∃ next, Does state member next ∧ Leads Does next members last

/--
Whether a loop reads the members of an object, changes its state with each of them
and finishes at the closing bracket.

What a member does is read behind a colon. A member that may not stand there is never read.
-/
structure Walks {σ ρ : Type} (loop : σ → Bool → List Char → Except Fault (ρ × List Char))
    (step : σ → String → List Char → Except Fault (σ × List Char))
    (finish : σ → List Char → Except Fault (ρ × List Char))
    (Does : σ → String × List Char → σ → Prop) : Prop where
  turn : ∀ state first text, loop state first text =
    match nextKey first text with
    | .error fault => .error fault
    | .ok (none, rest) => finish state rest
    | .ok (some key, rest) =>
      match step state key rest with
      | .error fault => .error fault
      | .ok (next, rest) => loop next false rest
  member : ∀ state key, ∃ read, Reads read (fun written next => Does state (key, written) next) ∧
    ∀ text result, step state key text = .ok result ↔ readAfterColon read text = .ok result

section
variable {σ ρ : Type} {loop : σ → Bool → List Char → Except Fault (ρ × List Char)}
  {step : σ → String → List Char → Except Fault (σ × List Char)}
  {finish : σ → List Char → Except Fault (ρ × List Char)} {Does : σ → String × List Char → σ → Prop}
  {state last : σ} {first : Bool} {members : List (String × List Char)} {inner text : List Char}
  {result : ρ × List Char}

/--
Behind the members that an object lists, the loop finishes with the state that
they lead to, well or badly.
-/
theorem Walks.finishes (walks : Walks loop step finish Does)
    (listed : Listing IsMember first members inner) (leads : Leads Does state members last)
    (rest : List Char) :
    loop state first (inner ++ '\x7d' :: rest) = finish last rest := by
  -- The induction takes off the first member, which the loop reads at its next turn.
  induction members generalizing state first inner with
  | nil =>
    obtain rfl : last = state := leads
    rw [walks.turn, nextKey_eq_none.mpr ⟨inner, listed, rfl⟩]
  | cons member members ih =>
    obtain ⟨lead, written, more, front, known, listed, rfl⟩ := listed
    obtain ⟨next, does, leads⟩ := leads
    obtain ⟨key, value⟩ := member
    obtain ⟨read, reads, same⟩ := walks.member state key
    obtain ⟨behind, reached, found⟩ :=
      reads.member_complete front known does (listed.endsNumber .object rest)
    have split : lead ++ (written ++ more) ++ '\x7d' :: rest =
        lead ++ (written ++ (more ++ Bracket.object.closing :: rest)) := by simp [Bracket.closing]
    rw [walks.turn, split, reached]
    simp only [(same _ _).mpr found]
    exact ih listed leads

/--
An object is read just where it lists members that lead to a state with which the loop may finish.
-/
theorem Walks.eq_ok (walks : Walks loop step finish Does) :
    loop state first text = .ok result ↔
      ∃ members inner last rest, Listing IsMember first members inner ∧
        Leads Does state members last ∧
        finish last rest = .ok result ∧ text = inner ++ '\x7d' :: rest := by
  constructor
  · -- Each turn takes a member, so the induction is on what is left of the text.
    intro passed
    induction shorter : text.length using Nat.strong_induction_on generalizing state first text with
    | _ length ih =>
      subst shorter
      rw [walks.turn] at passed
      split at passed
      · cases passed
      · rename_i rest ended
        obtain ⟨gap, blank, rfl⟩ := nextKey_eq_none.mp ended
        exact ⟨[], gap, state, rest, blank, rfl, passed, rfl⟩
      · rename_i key behind reached
        split at passed
        · cases passed
        · rename_i next after found
          obtain ⟨read, reads, same⟩ := walks.member state key
          obtain ⟨lead, written, member, front, known, does, rfl⟩ :=
            reads.member_sound reached ((same _ _).mp found)
          have taken : after.length < (lead ++ (member ++ after)).length := by
            obtain ⟨-, -, -, -, -, -, rfl⟩ := known
            simp
            omega
          obtain ⟨members, inner, last, rest, listed, leads, finished, rfl⟩ := ih _ taken passed rfl
          exact ⟨(key, written) :: members, lead ++ (member ++ inner), last, rest,
            ⟨lead, member, inner, front, known, listed, rfl⟩, ⟨next, does, leads⟩,
            finished, by simp⟩
  · rintro ⟨members, inner, last, rest, listed, leads, finished, rfl⟩
    rw [walks.finishes listed leads rest]
    exact finished

end

end TaskPool.Json
