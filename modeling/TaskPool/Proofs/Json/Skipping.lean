import TaskPool.Proofs.Json.Recognition

/-!
A value that nobody wants is passed over just where the grammar has one, however deep it nests.

The reader keeps the brackets that are still open on a stack; what such a stack still demands of the
text is written down beside it, and each step of the reader takes a piece of that off the front.
-/

namespace TaskPool.Json

/-- A word is read just where the text begins with it. -/
theorem readWord_eq_ok {word text rest : List Char} :
    readWord word text = .ok rest ↔ text = word ++ rest := by
  induction word generalizing text with
  | nil => simp [readWord]
  | cons wanted word ih =>
    cases text with
    | nil => simp [readWord]
    | cons c text =>
      -- The first characters have to be the same, and the rest is read on its own.
      simp only [readWord, List.cons_append, List.cons.injEq]
      split
      · rename_i same
        simp [same, ih]
      · rename_i other
        simp [other]

/-- A number without sign begins with a digit. -/
theorem IsUnsigned.head {text : List Char} (known : IsUnsigned text) :
    ∃ c rest, text = c :: rest ∧ isDigit c = true := by
  obtain ⟨whole, fraction, exponent, ⟨⟨some, all⟩, -⟩, -, -, rfl⟩ := known
  obtain ⟨c, digits, rfl⟩ := List.exists_cons_of_ne_nil some
  exact ⟨c, _, rfl, all c List.mem_cons_self⟩

/-- What begins with a minus is a number just if the rest is one without sign. -/
theorem isNumber_minus {text : List Char} : IsNumber ('-' :: text) ↔ IsUnsigned text := by
  constructor
  · rintro ⟨digits, known, rfl | same⟩
    · -- A minus is no digit.
      obtain ⟨c, rest, same, digit⟩ := known.head
      cases same
      cases digit
    · cases same
      exact known
  · intro known
    exact ⟨text, known, .inr rfl⟩

/-- What begins with a digit is a number just if it is one without sign. -/
theorem isNumber_digit {c : Char} (digit : isDigit c = true) {text : List Char} :
    IsNumber (c :: text) ↔ IsUnsigned (c :: text) := by
  constructor
  · rintro ⟨digits, known, rfl | same⟩
    · exact known
    · -- What has a sign begins with a minus, which is no digit.
      cases same
      cases digit
  · intro known
    exact ⟨c :: text, known, .inl rfl⟩

/-- A number begins with a minus or a digit. -/
theorem IsNumber.head {c : Char} {text : List Char} (known : IsNumber (c :: text)) :
    c = '-' ∨ isDigit c = true := by
  obtain ⟨digits, unsigned, rfl | same⟩ := known
  · obtain ⟨d, rest, same, digit⟩ := unsigned.head
    cases same
    exact .inr digit
  · cases same
    exact .inl rfl

/-- A number ends where its digits end, whether or not it has a minus. -/
theorem stops_minus {digits rest : List Char} :
    Stops IsNumber ('-' :: digits) rest ↔ Stops IsUnsigned digits rest := by
  simp only [Stops, List.cons_append, isNumber_minus]

/-- A number without sign ends as a number where it ends as a number without sign. -/
theorem stops_unsigned {digits rest : List Char} (known : IsUnsigned digits) :
    Stops IsNumber digits rest ↔ Stops IsUnsigned digits rest := by
  obtain ⟨c, more, rfl, digit⟩ := known.head
  simp only [Stops, List.cons_append, isNumber_digit digit]

/-- Whether a value ends in front of a text, which only a number may leave open. -/
def EndsValue (value rest : List Char) : Prop := IsNumber value → Stops IsNumber value rest

/-- A value that begins with no digit and no minus ends wherever it stands. -/
theorem EndsValue.of_head {c : Char} {value : List Char} (minus : c ≠ '-')
    (digit : isDigit c = false) (rest : List Char) : EndsValue (c :: value) rest := by
  intro known
  rcases known.head with rfl | other
  · exact absurd rfl minus
  · exact absurd (digit.symm.trans other) (by decide)

/-- Any value ends in front of what ends every number. -/
theorem EndsNumber.value {rest : List Char} (ends : EndsNumber rest) (value : List Char) :
    EndsValue value rest := by
  rintro ⟨digits, known, written⟩
  -- The parts behind the minus end here, and so does the number with it or without it.
  have stops : Stops IsUnsigned digits rest := by
    obtain ⟨whole, fraction, exponent, plain, pointed, raised, rfl⟩ := known
    exact (ends.parts fraction exponent).stops plain pointed raised
  rcases written with rfl | rfl
  · exact (stops_unsigned known).mpr stops
  · exact stops_minus.mpr stops

/-- A digit begins a number. -/
theorem skipScalar_digit {c : Char} (digit : isDigit c = true) (rest : List Char) :
    skipScalar c rest = skipNumber (c :: rest) := by
  unfold skipScalar
  split <;> first | cases digit | rw [if_pos digit]

/-- A value without parts is passed over just where the text has one, up to its end. -/
theorem skipScalar_eq_ok {first : Char} {text rest : List Char} :
    skipScalar first text = .ok rest ↔
      ∃ value, IsValue (first :: value) ∧ (∀ bracket : Bracket, first ≠ bracket.opening) ∧
        EndsValue (first :: value) rest ∧ text = value ++ rest := by
  constructor
  · intro read
    -- The first character tells the kind of value, and only a number depends on what follows it.
    unfold skipScalar at read
    split at read
    · exact ⟨['u', 'l', 'l'], .word (by decide), by rintro (_ | _) <;> decide,
        .of_head (by decide) (by decide) rest, readWord_eq_ok.mp read⟩
    · exact ⟨['r', 'u', 'e'], .word (by decide), by rintro (_ | _) <;> decide,
        .of_head (by decide) (by decide) rest, readWord_eq_ok.mp read⟩
    · exact ⟨['a', 'l', 's', 'e'], .word (by decide), by rintro (_ | _) <;> decide,
        .of_head (by decide) (by decide) rest, readWord_eq_ok.mp read⟩
    · obtain ⟨digits, known, stops, rfl⟩ := skipNumber_eq_ok.mp read
      exact ⟨digits, .number (isNumber_minus.mpr known), by rintro (_ | _) <;> decide,
        fun _ => stops_minus.mpr stops, rfl⟩
    · obtain ⟨inner, quoted, rfl⟩ := skipString_eq_ok.mp read
      exact ⟨inner ++ ['"'], .string quoted, by rintro (_ | _) <;> decide,
        .of_head (by decide) (by decide) rest, by simp⟩
    · split at read
      · rename_i digit
        obtain ⟨number, known, stops, split⟩ := skipNumber_eq_ok.mp read
        obtain ⟨c, digits, rfl, -⟩ := known.head
        obtain ⟨rfl, rfl⟩ := List.cons.inj split
        refine ⟨digits, .number ((isNumber_digit digit).mpr known), ?_, fun _ =>
          (stops_unsigned known).mpr stops, rfl⟩
        rintro bracket rfl
        cases bracket <;> cases digit
      · cases read
  · rintro ⟨value, known, plain, ends, rfl⟩
    generalize whole : first :: value = written at known ends
    cases known with
    | word member =>
      subst whole
      simp only [words, List.mem_cons, List.not_mem_nil, or_false] at member
      rcases member with same | same | same <;> cases same <;> exact readWord_eq_ok.mpr rfl
    | number known =>
      -- The number is not cut short, so the reader of numbers leaves the same rest.
      have stops := ends known
      subst whole
      rcases known.head with rfl | digit
      · exact skipNumber_eq_ok.mpr ⟨value, isNumber_minus.mp known, stops_minus.mp stops, rfl⟩
      · have unsigned := (isNumber_digit digit).mp known
        rw [skipScalar_digit digit]
        exact skipNumber_eq_ok.mpr ⟨_, unsigned, (stops_unsigned unsigned).mp stops, rfl⟩
    | string quoted =>
      obtain ⟨rfl, rfl⟩ := List.cons.inj whole
      exact skipString_eq_ok.mpr ⟨_, quoted, by simp⟩
    | bracket bracket =>
      exact absurd (List.cons.inj whole).1 (plain bracket)

/-- A key and its colon are passed over just where the text has them behind blanks. -/
theorem skipKey_eq_ok {text rest : List Char} :
    skipKey text = .ok rest ↔ ∃ gap key before, Gap gap ∧ IsQuoted key ∧ Gap before ∧
      text = gap ++ '"' :: (key ++ '"' :: (before ++ ':' :: rest)) := by
  constructor
  · intro read
    unfold skipKey at read
    split at read
    · cases read
    · rename_i c after passed
      obtain ⟨-, gap, blank, rfl⟩ := skipBlanks_eq_cons.mp passed
      split at read
      · rename_i quote
        split at read
        · cases read
        · rename_i behind found
          obtain ⟨key, quoted, rfl⟩ := skipString_eq_ok.mp found
          split at read
          · cases read
          · rename_i d _ second
            obtain ⟨-, before, empty, rfl⟩ := skipBlanks_eq_cons.mp second
            split at read
            · rename_i colon
              cases read
              exact ⟨gap, key, before, blank, quoted, empty, by rw [quote, colon]⟩
            · cases read
      · cases read
  · rintro ⟨gap, key, before, blank, quoted, empty, rfl⟩
    -- The other way round the key ends at its quote, and the colon is behind the blanks.
    have found : skipString (key ++ '"' :: (before ++ ':' :: rest)) = .ok (before ++ ':' :: rest) :=
      skipString_eq_ok.mpr ⟨key, quoted, rfl⟩
    simp [skipKey, skipBlanks_upTo blank, found, skipBlanks_upTo empty, isBlank]

/--
What stands in front of a value inside a bracket was passed over,
so the value is an entry behind it.
-/
theorem skipEntry_sound {bracket : Bracket} {text rest more gap value : List Char}
    (read : skipEntry bracket text = .ok rest) (blank : Gap gap)
    (split : rest = gap ++ (value ++ more)) :
    ∃ before entry, Gap before ∧ IsEntry bracket value entry ∧
      text = before ++ (entry ++ more) := by
  cases bracket with
  | list =>
    cases read
    exact ⟨gap, value, blank, rfl, split⟩
  | object =>
    -- Blanks behind the colon belong to the entry, and those in front of the key do not.
    obtain ⟨before, key, between, empty, quoted, free, rfl⟩ := skipKey_eq_ok.mp read
    exact ⟨before, _, empty, ⟨key, between, gap, quoted, free, blank, rfl⟩, by simp [split]⟩

/-- An entry is entered up to its value, which then stands behind some blanks. -/
theorem skipEntry_complete {bracket : Bracket} {before entry value : List Char} (blank : Gap before)
    (known : IsEntry bracket value entry) (more : List Char) :
    ∃ gap, Gap gap ∧ skipEntry bracket (before ++ (entry ++ more)) =
      .ok (gap ++ (value ++ more)) := by
  cases bracket with
  | list =>
    obtain rfl : entry = value := known
    exact ⟨before, blank, rfl⟩
  | object =>
    -- The key and its colon are passed over, and the blanks behind them are left.
    obtain ⟨key, between, gap, quoted, free, empty, rfl⟩ := known
    exact ⟨gap, empty, skipKey_eq_ok.mpr ⟨before, key, between, blank, quoted, free, by simp⟩⟩

/-- What is left of a text where some brackets are still open, listed from the inside. -/
def Closes : List Bracket → List Char → Prop
  | [], text => text = []
  | bracket :: brackets, text =>
    ∃ values inner rest, (∀ value ∈ values, IsValue value) ∧
      Listing (IsEntry bracket) false values inner ∧
      Closes brackets rest ∧ text = inner ++ bracket.closing :: rest

/-- What a half-passed value demands of the text that is left of it. -/
def Demands : Expecting → List Bracket → List Char → Prop
  | .value, brackets, text =>
    ∃ gap value rest, Gap gap ∧ IsValue value ∧ Closes brackets rest ∧ text = gap ++ (value ++ rest)
  | .close _, [], text => text = []
  | .close fresh, bracket :: brackets, text =>
    ∃ values inner rest, (∀ value ∈ values, IsValue value) ∧
      Listing (IsEntry bracket) fresh values inner ∧
      Closes brackets rest ∧ text = inner ++ bracket.closing :: rest

/-- With no bracket freshly opened, what is demanded is that all brackets close. -/
theorem demands_close {brackets : List Bracket} {text : List Char} :
    Demands (.close false) brackets text ↔ Closes brackets text := by
  cases brackets <;> rfl

/-- A bracket that closes at once has no entries. -/
theorem Demands.closing {bracket : Bracket} {brackets : List Bracket} {gap text : List Char}
    (fresh : Bool) (blank : Gap gap) (closes : Closes brackets text) :
    Demands (.close fresh) (bracket :: brackets) (gap ++ bracket.closing :: text) :=
  ⟨[], gap, text, List.forall_mem_nil _, blank, closes, rfl⟩

/--
Behind what may stand in front of it, an entry can be followed by all that
its bracket still demands.
-/
theorem Demands.entry {fresh : Bool} {bracket : Bracket} {brackets : List Bracket}
    {lead entry value rest : List Char} (front : IsLead fresh lead)
    (known : IsEntry bracket value entry) (inside : IsValue value)
    (closes : Closes (bracket :: brackets) rest) :
    Demands (.close fresh) (bracket :: brackets) (lead ++ (entry ++ rest)) := by
  obtain ⟨values, inner, more, all, listed, closes, rfl⟩ := closes
  exact ⟨value :: values, _, more, List.forall_mem_cons.mpr ⟨inside, all⟩,
    ⟨lead, entry, inner, front, known, listed, rfl⟩,
    closes, by simp⟩

/-- Behind blanks, a bracket that is opened and closed is a value. -/
theorem Demands.opened (bracket : Bracket) {brackets : List Bracket} {gap text : List Char}
    (blank : Gap gap) (demands : Demands (.close true) (bracket :: brackets) text) :
    Demands .value brackets (gap ++ bracket.opening :: text) := by
  obtain ⟨values, inner, rest, all, listed, closes, rfl⟩ := demands
  exact ⟨gap, _, rest, blank, .bracket bracket all listed, closes, by simp⟩

/-- Blanks may stand in front of blanks. -/
theorem Gap.append {first second : List Char} (blank : Gap first) (more : Gap second) :
    Gap (first ++ second) := by
  intro c member
  exact (List.mem_append.mp member).elim (blank c) (more c)

/-- Whatever is passed over is what was demanded. -/
theorem skipOpen_sound {expecting : Expecting} {brackets : List Bracket} {text rest : List Char}
    (read : skipOpen expecting brackets text = .ok rest) :
    ∃ passed, Demands expecting brackets passed ∧ text = passed ++ rest := by
  -- Each case of the reader takes one piece off the front.
  fun_induction skipOpen expecting brackets text with
  | case1 | case4 | case7 | case9 | case11 | case13 => cases read
  | case2 text brackets after found ih =>
    obtain ⟨-, gap, blank, rfl⟩ := skipBlanks_eq_cons.mp found
    obtain ⟨passed, demands, rfl⟩ := ih read
    exact ⟨gap ++ '[' :: passed, .opened .list blank demands, by simp⟩
  | case3 text brackets after found ih =>
    obtain ⟨-, gap, blank, rfl⟩ := skipBlanks_eq_cons.mp found
    obtain ⟨passed, demands, rfl⟩ := ih read
    exact ⟨gap ++ '\x7b' :: passed, .opened .object blank demands, by simp⟩
  | case5 text brackets c after _ _ found behind scalar ih =>
    obtain ⟨-, gap, blank, rfl⟩ := skipBlanks_eq_cons.mp found
    obtain ⟨passed, demands, rfl⟩ := ih read
    obtain ⟨value, known, -, -, rfl⟩ := skipScalar_eq_ok.mp scalar
    have closes := demands_close.mp demands
    exact ⟨gap ++ (c :: value ++ passed), ⟨gap, c :: value, passed, blank, known, closes,
      rfl⟩, by simp⟩
  | case6 =>
    cases read
    exact ⟨[], rfl, rfl⟩
  | case8 text fresh bracket brackets after found ih =>
    obtain ⟨-, gap, blank, rfl⟩ := skipBlanks_eq_cons.mp found
    obtain ⟨passed, demands, rfl⟩ := ih read
    exact ⟨_, .closing fresh blank (demands_close.mp demands), by simp⟩
  | case10 text bracket brackets c after found _ behind entered ih =>
    obtain ⟨-, gap, blank, rfl⟩ := skipBlanks_eq_cons.mp found
    obtain ⟨passed, ⟨between, value, more, empty, known, closes, rfl⟩, rfl⟩ := ih read
    have behind : between ++ (value ++ more) ++ rest =
      between ++ (value ++ (more ++ rest)) := by simp
    obtain ⟨before, entry, free, inside, split⟩ := skipEntry_sound entered empty behind
    refine ⟨(gap ++ before) ++ (entry ++ more), .entry (blank.append free) inside known closes, ?_⟩
    simp [split]
  | case12 text fresh bracket brackets after stale behind entered found _ ih =>
    obtain ⟨-, gap, blank, rfl⟩ := skipBlanks_eq_cons.mp found
    obtain ⟨passed, ⟨between, value, more, empty, known, closes, rfl⟩, rfl⟩ := ih read
    have behind : between ++ (value ++ more) ++ rest =
      between ++ (value ++ (more ++ rest)) := by simp
    obtain ⟨before, entry, free, inside, split⟩ := skipEntry_sound entered empty behind
    have front : IsLead fresh (gap ++ ',' :: before) := by
      rw [IsLead, if_neg stale]
      exact ⟨gap, before, blank, free, rfl⟩
    refine ⟨(gap ++ ',' :: before) ++ (entry ++ more), .entry front inside known closes, ?_⟩
    simp [split]

/-- A value that was passed over was one, behind some blanks. -/
theorem skipValue_sound {text rest : List Char} (read : skipValue text = .ok rest) :
    ∃ gap value, Gap gap ∧ IsValue value ∧ text = gap ++ (value ++ rest) := by
  obtain ⟨passed, ⟨gap, value, more, blank, known, rfl, rfl⟩, rfl⟩ := skipOpen_sound read
  exact ⟨gap, value, blank, known, by simp⟩

/-- A digit is no blank and closes no bracket. -/
theorem digit_opens {c : Char} (digit : isDigit c = true) :
    isBlank c = false ∧ ∀ bracket : Bracket, c ≠ bracket.closing := by
  refine ⟨visible_of_isDigit digit, fun bracket same => ?_⟩
  subst same
  cases bracket <;> cases digit

/-- A value begins with a character that is no blank and closes no bracket. -/
theorem IsValue.head {value : List Char} (known : IsValue value) :
    ∃ c rest, value = c :: rest ∧ isBlank c = false ∧ ∀ bracket : Bracket, c ≠ bracket.closing := by
  cases known with
  | word member =>
    -- Each kind of value tells itself by its first character.
    simp only [words, List.mem_cons, List.not_mem_nil, or_false] at member
    rcases member with rfl | rfl | rfl
    all_goals exact ⟨_, _, rfl, rfl, by rintro (_ | _) <;> decide⟩
  | number known =>
    obtain ⟨number, unsigned, rfl | rfl⟩ := known
    · obtain ⟨c, digits, rfl, digit⟩ := unsigned.head
      exact ⟨c, digits, rfl, digit_opens digit⟩
    · exact ⟨'-', _, rfl, rfl, by rintro (_ | _) <;> decide⟩
  | string quoted => exact ⟨'"', _, rfl, rfl, by rintro (_ | _) <;> decide⟩
  | bracket bracket =>
    refine ⟨bracket.opening, _, rfl, ?_, ?_⟩
    · cases bracket <;> rfl
    · cases bracket <;> rintro (_ | _) <;> decide

/-- A number ends in front of a blank. -/
theorem EndsNumber.blank {c : Char} (blank : isBlank c = true) (rest : List Char) :
    EndsNumber (c :: rest) := by
  intro d first
  obtain rfl : c = d := Option.some.inj first
  obtain rfl | rfl | rfl | rfl : c = ' ' ∨ c = '\n' ∨ c = '\t' ∨ c = '\r' := by
    simpa [isBlank, or_assoc] using blank
  all_goals decide

/-- A number ends in front of a mark behind any blanks. -/
theorem EndsNumber.mark {gap : List Char} (blank : Gap gap) {c : Char}
    (mark : c = ',' ∨ c = ']' ∨ c = '\x7d') (rest : List Char) : EndsNumber (gap ++ c :: rest) := by
  -- The first character is a blank or the mark.
  cases gap with
  | nil =>
    intro d first
    obtain rfl : c = d := Option.some.inj first
    rcases mark with rfl | rfl | rfl <;> decide
  | cons e gap => exact .blank (blank e List.mem_cons_self) _

/-- A number ends in front of whatever may follow an entry. -/
theorem Listing.endsNumber {α : Type} {Written : α → List Char → Prop} {entries : List α}
    {inner : List Char} (listed : Listing Written false entries inner) (bracket : Bracket)
    (rest : List Char) :
    EndsNumber (inner ++ bracket.closing :: rest) := by
  cases entries with
  | nil => exact .mark listed (by cases bracket <;> decide) rest
  | cons entry entries =>
    -- In front of another entry there is a comma.
    obtain ⟨lead, written, more, ⟨before, after, blank, -, rfl⟩, -, -, rfl⟩ := listed
    simpa using EndsNumber.mark blank (.inl rfl) _

/-- Where a value is expected, a bracket is opened. -/
theorem skipOpen_opening (bracket : Bracket) {brackets : List Bracket} {gap : List Char}
    (blank : Gap gap) (rest : List Char) :
    skipOpen .value brackets (gap ++ bracket.opening :: rest) =
    skipOpen (.close true) (bracket :: brackets) rest := by
  have found : skipBlanks (gap ++ bracket.opening :: rest) = bracket.opening :: rest :=
    skipBlanks_upTo blank (by cases bracket <;> rfl) rest
  rw [skipOpen]
  -- Of the cases only that of the bracket itself is left.
  cases bracket <;> split <;> rename_i passed <;> rw [found] at passed <;> cases passed
  · rfl
  · rename_i other _
    exact absurd rfl other
  · rfl
  · rename_i other
    exact absurd rfl other

/-- Where a value is expected, one without parts is passed over. -/
theorem skipOpen_scalar {brackets : List Bracket} {gap rest behind : List Char} {c : Char}
    (blank : Gap gap) (visible : isBlank c = false)
    (plain : ∀ bracket : Bracket, c ≠ bracket.opening) (passed : skipScalar c rest = .ok behind) :
    skipOpen .value brackets (gap ++ c :: rest) = skipOpen (.close false) brackets behind := by
  have found : skipBlanks (gap ++ c :: rest) = c :: rest := skipBlanks_upTo blank visible rest
  rw [skipOpen]
  -- The character opens no bracket, so it is the case of a value without parts.
  split <;> rename_i reached <;> rw [found] at reached <;> cases reached
  · exact absurd rfl (plain .list)
  · exact absurd rfl (plain .object)
  · split <;> rename_i scalar <;> rw [passed] at scalar <;> cases scalar
    rfl

/-- A bracket is closed, behind any entries or none. -/
theorem skipOpen_closing (fresh : Bool) (bracket : Bracket) {brackets : List Bracket}
    {gap : List Char} (blank : Gap gap) (rest : List Char) :
    skipOpen (.close fresh) (bracket :: brackets) (gap ++ bracket.closing :: rest) =
      skipOpen (.close false) brackets rest := by
  have found : skipBlanks (gap ++ bracket.closing :: rest) = bracket.closing :: rest :=
    skipBlanks_upTo blank (by cases bracket <;> rfl) rest
  rw [skipOpen]
  split <;> rename_i reached <;> rw [found] at reached <;> cases reached
  rw [if_pos rfl]

/-- An entry begins with a character that is no blank and closes no bracket. -/
theorem IsEntry.head {bracket : Bracket} {value entry : List Char}
    (known : IsEntry bracket value entry) (inside : IsValue value) :
    ∃ c rest, entry = c :: rest ∧ isBlank c = false ∧ ∀ bracket : Bracket, c ≠ bracket.closing := by
  cases bracket with
  | list =>
    obtain rfl : entry = value := known
    exact inside.head
  | object =>
    -- A member begins with the quote of its key.
    obtain ⟨key, before, after, -, -, -, rfl⟩ := known
    exact ⟨'"', _, rfl, rfl, by rintro (_ | _) <;> decide⟩

/-- Behind the comma, or at once if the bracket is fresh, the next entry is entered. -/
theorem skipOpen_entry {fresh : Bool} {bracket : Bracket} (brackets : List Bracket)
    {lead entry value : List Char} (front : IsLead fresh lead) (known : IsEntry bracket value entry)
    (inside : IsValue value) (more : List Char) :
    ∃ gap, Gap gap ∧ skipOpen (.close fresh) (bracket :: brackets) (lead ++ (entry ++ more)) =
      skipOpen .value (bracket :: brackets) (gap ++ (value ++ more)) := by
  cases fresh with
  | true =>
    -- The first character of the entry does not close the bracket.
    obtain ⟨gap, empty, entered⟩ := skipEntry_complete (List.forall_mem_nil _) known more
    obtain ⟨c, rest, rfl, visible, other⟩ := known.head inside
    rw [List.nil_append] at entered
    refine ⟨gap, empty, ?_⟩
    have found : skipBlanks (lead ++ (c :: rest ++ more)) = c :: rest ++ more :=
      skipBlanks_upTo front visible (rest ++ more)
    conv_lhs => rw [skipOpen]
    split <;> rename_i reached <;> rw [found] at reached <;> cases reached
    rw [if_neg (other bracket), if_pos rfl]
    split <;> rename_i passed <;> cases entered.symm.trans passed
    rfl
  | false =>
    obtain ⟨before, after, blank, free, rfl⟩ := front
    obtain ⟨gap, empty, entered⟩ := skipEntry_complete free known more
    refine ⟨gap, empty, ?_⟩
    have found : skipBlanks (before ++ ',' :: after ++ (entry ++ more)) =
        ',' :: (after ++ (entry ++ more)) := by
      rw [List.append_assoc, List.cons_append]
      exact skipBlanks_upTo blank rfl _
    conv_lhs => rw [skipOpen]
    split <;> rename_i reached <;> rw [found] at reached <;> cases reached
    rw [if_neg (by cases bracket <;> decide), if_neg (by decide), if_pos rfl]
    split <;> rename_i passed <;> rw [entered] at passed <;> cases passed
    rfl

/-- Entries are passed over one after the other, if each of their values is. -/
theorem skipOpen_listing {bracket : Bracket} {brackets : List Bracket} {values : List (List Char)}
    (each : ∀ value ∈ values, IsValue value ∧
      ∀ {gap : List Char} (brackets : List Bracket) {rest : List Char}, Gap gap →
      EndsValue value rest → skipOpen .value brackets (gap ++ (value ++ rest)) =
      skipOpen (.close false) brackets rest)
    {fresh : Bool} {inner : List Char} (listed : Listing (IsEntry bracket) fresh values inner)
    (rest : List Char) :
    skipOpen (.close fresh) (bracket :: brackets) (inner ++ bracket.closing :: rest) =
      skipOpen (.close false) brackets rest := by
  induction values generalizing fresh inner with
  | nil => exact skipOpen_closing fresh bracket listed rest
  | cons value values ih =>
    -- The first entry is entered up to its value, the value is passed over, and the rest follows.
    obtain ⟨⟨inside, passes⟩, others⟩ := List.forall_mem_cons.mp each
    obtain ⟨lead, entry, more, front, known, listed, rfl⟩ := listed
    obtain ⟨gap, blank, entered⟩ := skipOpen_entry brackets front known inside
      (more ++ bracket.closing :: rest)
    rw [List.append_assoc, List.append_assoc, entered,
      passes _ blank ((listed.endsNumber bracket rest).value value)]
    exact ih others listed

/-- A value is passed over wherever it stands, whatever brackets are open around it. -/
theorem skipOpen_complete {value : List Char} (known : IsValue value) :
    ∀ {gap : List Char} (brackets : List Bracket) {rest : List Char}, Gap gap →
      EndsValue value rest →
      skipOpen .value brackets (gap ++ (value ++ rest)) =
      skipOpen (.close false) brackets rest := by
  -- A value without parts is taken whole, and any other one entry by entry.
  have scalar {c : Char} {text : List Char} (known : IsValue (c :: text))
      (plain : ∀ bracket : Bracket, c ≠ bracket.opening) :
      ∀ {gap : List Char} (brackets : List Bracket) {rest : List Char}, Gap gap →
        EndsValue (c :: text) rest →
        skipOpen .value brackets (gap ++ (c :: text ++ rest)) =
        skipOpen (.close false) brackets rest := by
    intro gap brackets rest blank ends
    obtain ⟨d, more, same, visible, -⟩ := known.head
    obtain ⟨rfl, rfl⟩ := List.cons.inj same
    exact skipOpen_scalar blank visible plain (skipScalar_eq_ok.mpr ⟨text, known, plain, ends, rfl⟩)
  induction known with
  | word member =>
    have known := IsValue.word member
    simp only [words, List.mem_cons, List.not_mem_nil, or_false] at member
    rcases member with rfl | rfl | rfl
    all_goals
      intro gap brackets rest
      exact scalar known (by rintro (_ | _) <;> decide) brackets
  | @number text written =>
    have known := IsValue.number written
    obtain ⟨number, unsigned, rfl | rfl⟩ := written
    · obtain ⟨c, digits, rfl, digit⟩ := unsigned.head
      intro gap brackets rest
      refine scalar known (fun bracket same => ?_) brackets
      subst same
      cases bracket <;> cases digit
    · intro gap brackets rest
      exact scalar known (by rintro (_ | _) <;> decide) brackets
  | string quoted =>
    intro gap brackets rest
    exact scalar (.string quoted) (by rintro (_ | _) <;> decide) brackets
  | @bracket bracket values inner all listed ih =>
    intro gap brackets rest blank ends
    rw [List.cons_append, List.append_assoc, List.singleton_append, skipOpen_opening bracket blank]
    exact skipOpen_listing (fun value member => ⟨all value member, ih value member⟩) listed rest

/-- A value is passed over wherever it stands. -/
theorem skipValue_complete {gap value rest : List Char} (blank : Gap gap) (known : IsValue value)
    (ends : EndsNumber rest) : skipValue (gap ++ (value ++ rest)) = .ok rest := by
  rw [skipValue, skipOpen_complete known [] blank (ends.value value), skipOpen]

/-- Where all open brackets close in their order, they are passed over. -/
theorem skipOpen_closes {brackets : List Bracket} {text : List Char} (closes : Closes brackets text)
    (rest : List Char) : skipOpen (.close false) brackets (text ++ rest) = .ok rest := by
  -- The induction closes the innermost bracket, behind the entries that it still has.
  induction brackets generalizing text with
  | nil =>
    obtain rfl : text = [] := closes
    rw [List.nil_append, skipOpen]
  | cons bracket brackets ih =>
    obtain ⟨values, inner, more, all, listed, closes, rfl⟩ := closes
    rw [List.append_assoc, List.cons_append,
      skipOpen_listing (fun value member =>
        ⟨all value member, skipOpen_complete (all value member)⟩) listed]
    exact ih closes

/--
Inside open brackets a text is passed over just where it has what they demand.

Each bracket has the entries that it still needs, all of them whole values, and then its own end,
from the inside to the outside.
-/
theorem skipOpen_close_eq_ok {fresh : Bool} {bracket : Bracket} {brackets : List Bracket}
    {text rest : List Char} :
    skipOpen (.close fresh) (bracket :: brackets) text = .ok rest ↔
      ∃ passed, Demands (.close fresh) (bracket :: brackets) passed ∧ text = passed ++ rest := by
  constructor
  · exact skipOpen_sound
  · rintro ⟨passed, ⟨values, inner, more, all, listed, closes, rfl⟩, rfl⟩
    -- All entries are passed over up to the bracket, and then what the other brackets still want.
    rw [List.append_assoc, List.cons_append,
      skipOpen_listing (fun value member =>
        ⟨all value member, skipOpen_complete (all value member)⟩) listed]
    exact skipOpen_closes closes rest

/-- Whether a text is some blanks, then a value that ends there, and then a rest. -/
structure Fronts (gap value rest text : List Char) : Prop where
  blank : Gap gap
  known : IsValue value
  ends : EndsValue value rest
  split : text = gap ++ (value ++ rest)

/-- Behind blanks, a bracket that was passed over together with all that it held is a value. -/
theorem Fronts.opened (bracket : Bracket) {gap after rest : List Char} (blank : Gap gap)
    (read : skipOpen (.close true) [bracket] after = .ok rest) :
    ∃ gap' value, Fronts gap' value rest (gap ++ bracket.opening :: after) := by
  obtain ⟨passed, ⟨values, inner, more, all, listed, rfl, rfl⟩, rfl⟩ := skipOpen_close_eq_ok.mp read
  refine ⟨gap, _, blank, .bracket bracket all listed, ?_, by simp⟩
  -- No bracket is a minus or a digit.
  cases bracket with
  | list => exact .of_head (by decide) (by decide) rest
  | object => exact .of_head (by decide) (by decide) rest

/-- A value is passed over just where the text has one behind any blanks, up to its end. -/
theorem skipValue_eq_ok {text rest : List Char} :
    skipValue text = .ok rest ↔ ∃ gap value, Fronts gap value rest text := by
  constructor
  · intro read
    unfold skipValue at read
    rw [skipOpen] at read
    -- The first character behind the blanks opens a bracket or begins a value without parts.
    split at read
    · cases read
    · rename_i after found
      obtain ⟨-, gap, blank, rfl⟩ := skipBlanks_eq_cons.mp found
      exact Fronts.opened .list blank read
    · rename_i after found
      obtain ⟨-, gap, blank, rfl⟩ := skipBlanks_eq_cons.mp found
      exact Fronts.opened .object blank read
    · rename_i c after _ _ found
      obtain ⟨-, gap, blank, rfl⟩ := skipBlanks_eq_cons.mp found
      split at read
      · cases read
      · rename_i behind scalar
        -- No bracket is open, so nothing more is taken.
        rw [skipOpen] at read
        cases read
        obtain ⟨value, known, -, ends, rfl⟩ := skipScalar_eq_ok.mp scalar
        exact ⟨gap, c :: value, blank, known, ends, rfl⟩
  · rintro ⟨gap, value, blank, known, ends, rfl⟩
    rw [skipValue, skipOpen_complete known [] blank ends, skipOpen]

/-- A text has one value at most in front of what is left of it. -/
theorem Fronts.unique {text gap value rest gap' value' rest' : List Char}
    (one : Fronts gap value rest text) (other : Fronts gap' value' rest' text) :
    gap = gap' ∧ value = value' ∧ rest = rest' := by
  -- Passing over the value leaves one rest.
  have left := skipValue_eq_ok.mpr ⟨gap, value, one⟩
  have left' := skipValue_eq_ok.mpr ⟨gap', value', other⟩
  obtain rfl : rest = rest' := Except.ok.inj (left.symm.trans left')
  have both : (gap ++ value) ++ rest = (gap' ++ value') ++ rest := by
    rw [List.append_assoc, List.append_assoc, ← one.split, ← other.split]
  have same : gap ++ value = gap' ++ value' := List.append_cancel_right both
  -- Passing over the blanks leaves one value, which does not begin with a blank.
  have visible {blanks text : List Char} (blank : Gap blanks) (known : IsValue text) :
      skipBlanks (blanks ++ text) = text := by
    obtain ⟨c, more, rfl, seen, -⟩ := known.head
    exact skipBlanks_upTo blank seen more
  obtain rfl : value = value' := by
    rw [← visible one.blank one.known, same, visible other.blank other.known]
  exact ⟨List.append_cancel_right same, rfl, rfl⟩

/--
Passing over a value that nobody wants takes exactly one value off the front of a
text, however deep it nests.

It leaves a rest just if the text is some blanks, a value of the grammar and that rest,
where a number does not go on: the rest begins with no digit, and with no character that would
make the number the beginning of another one. There is never more than one way to see a text so,
which means that the reader neither stops inside a value nor goes on behind it.
Wherever some brackets are open, what is passed over is what they demand: each has the entries
that it still needs and then its own end, from the inside to the outside.
-/
theorem one_value_is_passed_over (text : List Char) :
    (∀ rest, skipValue text = .ok rest ↔ ∃ gap value, Fronts gap value rest text) ∧
    (∀ gap value rest gap' value' rest', Fronts gap value rest text →
      Fronts gap' value' rest' text →
      gap = gap' ∧ value = value' ∧ rest = rest') ∧
    ∀ fresh bracket brackets rest, skipOpen (.close fresh) (bracket :: brackets) text = .ok rest ↔
      ∃ passed, Demands (.close fresh) (bracket :: brackets) passed ∧ text = passed ++ rest := by
  refine ⟨fun rest => skipValue_eq_ok, ?_, fun fresh bracket brackets rest => skipOpen_close_eq_ok⟩
  intro gap value rest gap' value' rest' one other
  exact one.unique other

/-- A number with all its parts in front of a comma. -/
theorem fronts_number : Fronts [] "-2.5e1".toList [','] "-2.5e1,".toList := by
  have digits {c : Char} (digit : isDigit c = true) : IsDigits [c] :=
    ⟨by simp, List.forall_mem_singleton.mpr digit⟩
  have known : IsUnsigned "2.5e1".toList :=
    ⟨['2'], ['.', '5'], ['e', '1'], ⟨digits (by decide), fun zero => by cases zero⟩,
      .inr ⟨['5'], digits (by decide), rfl⟩, .inr ⟨'e', [], ['1'], .inl rfl, .inl rfl,
        digits (by decide), rfl⟩, rfl⟩
  exact ⟨List.forall_mem_nil _, .number (isNumber_minus.mpr known),
    (EndsNumber.comma []).value _, rfl⟩

/-- An empty object in a list, in front of a bracket that belongs to neither. -/
theorem fronts_brackets : Fronts [' '] "[\x7b\x7d]".toList [']'] " [\x7b\x7d]]".toList := by
  have nothing : Listing (IsEntry .object) true [] [] := List.forall_mem_nil _
  have object : IsValue ['\x7b', '\x7d'] := .bracket .object (List.forall_mem_nil _) nothing
  have items : Listing (IsEntry .list) true [['\x7b', '\x7d']] ['\x7b', '\x7d'] :=
    ⟨[], ['\x7b', '\x7d'], [], List.forall_mem_nil _, rfl, List.forall_mem_nil _, rfl⟩
  have list : IsValue ['[', '\x7b', '\x7d', ']'] :=
    .bracket .list (List.forall_mem_singleton.mpr object) items
  have ends : EndsValue ['[', '\x7b', '\x7d', ']'] [']'] := .of_head (by decide) (by decide) _
  exact ⟨List.forall_mem_singleton.mpr rfl, list, ends, rfl⟩

/-- Both are passed over, and the number cannot be seen in another way. -/
theorem number_and_brackets_are_passed_over :
    skipValue "-2.5e1,".toList = .ok [','] ∧ skipValue " [\x7b\x7d]]".toList = .ok [']'] ∧
      ∀ gap value rest, Fronts gap value rest "-2.5e1,".toList → gap = [] ∧
        value = "-2.5e1".toList ∧ rest = [','] := by
  obtain ⟨passes, unique, -⟩ := one_value_is_passed_over "-2.5e1,".toList
  refine ⟨(passes _).mpr ⟨_, _, fronts_number⟩, ?_, ?_⟩
  · exact ((one_value_is_passed_over _).1 _).mpr ⟨_, _, fronts_brackets⟩
  · intro gap value rest other
    exact unique _ _ _ _ _ _ other fronts_number

end TaskPool.Json
