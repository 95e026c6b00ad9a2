import Mathlib.Data.List.Permutation
import TaskPool.Proofs.Json.Walking
import TaskPool.Proofs.Settings.RoundTrip

/-! Just those texts are parsed that describe settings, and as the settings that they describe. -/

namespace TaskPool

namespace Json

/-! Spans. -/

/--
Whether a text stands for a span.

It gives seconds and nanoseconds, as an object with these two keys in either order or as a list,
and the nanoseconds may go beyond a second as long as the seconds then still fit their word.
-/
def IsSpan (text : List Char) (span : Span) : Prop :=
  ∃ seconds nanos whole part, IsDecimal UInt64.size whole seconds ∧
    IsDecimal UInt32.size part nanos ∧
    span.toNanos = seconds * 1000000000 + nanos ∧
    ((∃ members, members.Perm [("secs", whole), ("nanos", part)] ∧ IsObject members text) ∨
      IsList [whole, part] text)

/-- A span has parts just if it is as long as the parts together. -/
theorem ofParts?_eq_some {seconds nanos : Nat} {span : Span} :
    Span.ofParts? seconds nanos = some span ↔ span.toNanos = seconds * 1000000000 + nanos := by
  obtain ⟨whole, part⟩ := span
  have fits := whole.toNat_lt_size
  unfold Span.ofParts? Span.toNanos
  constructor
  · -- What goes beyond a second is carried over, and neither part is changed by the carry.
    intro made
    split at made
    · rename_i room
      simp only [Option.some.injEq, Span.mk.injEq] at made
      obtain ⟨rfl, rfl⟩ := made
      simp only [UInt64.toNat_ofNat_of_lt' room]
      omega
    · cases made
  · -- A span has less than a second in its second part, so its length can
    -- be divided in one way only.
    intro long
    have carried : seconds + nanos / 1000000000 = whole.toNat := by
      have := part.isLt
      simp only at long
      omega
    have left : nanos % 1000000000 = part.val := by
      have := part.isLt
      simp only at long
      omega
    simp only [carried, left, fits, if_true, UInt64.ofNat_toNat]

/-- Parts make a span just if it is as long as they are together. -/
theorem spanOf_eq_ok {place : Cause → Fault} {seconds nanos : Nat} {span : Span} :
    spanOf place seconds nanos = .ok span ↔ span.toNanos = seconds * 1000000000 + nanos := by
  rw [← ofParts?_eq_some, spanOf]
  split <;> rename_i made <;> simp [made]

/-- Whether a member gives a part of a span that was not given before. -/
def SpanParts.Takes (parts : SpanParts) (member : String × List Char) (after : SpanParts) : Prop :=
  (member.1 = "secs" ∧ parts.seconds = none ∧
    ∃ n, IsDecimal UInt64.size member.2 n ∧ after = { parts with seconds := some n }) ∨
  (member.1 = "nanos" ∧ parts.nanos = none ∧
    ∃ n, IsDecimal UInt32.size member.2 n ∧ after = { parts with nanos := some n })

/-- A reader that always fails reads just the values of an impossible kind. -/
theorem reads_nothing {α : Type} (fault : List Char → Fault) :
    Reads (fun text => (.error (fault text) : Except Fault (α × List Char)))
      (fun _ _ => False) where
  sound read := by cases read
  complete _ means _ := means.elim
  head means := means.elim

/-- Seconds are read from the decimals of their word. -/
theorem reads_seconds :
    Reads readSeconds (IsDecimal UInt64.size) := reads_below (Nat.le_refl _) .seconds

/-- Nanoseconds are read from the decimals of their half word. -/
theorem reads_nanos : Reads readNanos (IsDecimal UInt32.size) := reads_below (by decide) .nanos

/-- The members of a span are walked, each of which gives a part that was not given before. -/
theorem walks_span :
    Walks readSpanMembers readSpanMember (fun parts rest =>
      (parts.finish (.behind · rest)).map (·, rest))
      SpanParts.Takes where
  turn parts first text := by
    rw [readSpanMembers]
    split <;> rename_i found <;> simp only [found]
    split <;> rename_i passed <;> simp only [passed]
  member parts key := by
    obtain ⟨seconds, nanos⟩ := parts
    -- A member is read if its key names a part that is not there yet.
    have refused {place : List Char → Fault}
        (never : ∀ written next, ¬SpanParts.Takes ⟨seconds, nanos⟩ (key, written) next)
        (fails : ∀ text, readSpanMember ⟨seconds, nanos⟩ key text = .error (place text)) :
        ∃ read, Reads read (fun written next =>
          SpanParts.Takes ⟨seconds, nanos⟩ (key, written) next) ∧
          ∀ text result,
            readSpanMember ⟨seconds, nanos⟩ key text = .ok result ↔
            readAfterColon read text = .ok result := by
      refine ⟨_, (reads_nothing place).congr (fun written next =>
        iff_of_false (never written next) id), ?_⟩
      intro text result
      rw [fails, readAfterColon]
      split <;> simp
    by_cases first : key = "secs"
    · subst first
      cases seconds with
      | some n =>
        exact refused (by simp [SpanParts.Takes]) (fun text => by simp [readSpanMember]; rfl)
      | none =>
        refine ⟨_, (reads_seconds.map fun n => ⟨some n, nanos⟩).congr ?_, ?_⟩
        · simp [SpanParts.Takes]
        · simp [readSpanMember, readAfterColon_map]
    · by_cases second : key = "nanos"
      · subst second
        cases nanos with
        | some n =>
          exact refused (by simp [SpanParts.Takes]) (fun text => by simp [readSpanMember]; rfl)
        | none =>
          refine ⟨_, (reads_nanos.map fun n => ⟨seconds, some n⟩).congr ?_, ?_⟩
          · simp [SpanParts.Takes]
          · simp [readSpanMember, readAfterColon_map]
      · exact refused (by simp [SpanParts.Takes, first, second])
          (fun text => by simp [readSpanMember, first, second]; rfl)

/-- Members lead to two parts just if they give each of them once. -/
theorem leads_span {members : List (String × List Char)} {seconds nanos : Nat} :
    Leads SpanParts.Takes ⟨none, none⟩ members ⟨some seconds, some nanos⟩ ↔
      ∃ whole part, IsDecimal UInt64.size whole seconds ∧ IsDecimal UInt32.size part nanos ∧
        members.Perm [("secs", whole), ("nanos", part)] := by
  constructor
  · intro leads
    -- Two members fill both parts, and none of them may follow again.
    have full {rest : List (String × List Char)} {a b : Nat} {last : SpanParts}
        (leads : Leads SpanParts.Takes ⟨some a, some b⟩ rest last) : rest = [] ∧
        last = ⟨some a, some b⟩ := by
      cases rest with
      | nil => exact ⟨rfl, leads⟩
      | cons member rest =>
        obtain ⟨next, ⟨-, absent, -⟩ | ⟨-, absent, -⟩, -⟩ := leads <;> cases absent
    -- One member is too few, so there are two, and each of them gives its own part.
    match members with
    | [] => cases leads
    | [_] =>
      obtain ⟨_, taken, ends⟩ := leads
      obtain ⟨-, -, _, -, rfl⟩ | ⟨-, -, _, -, rfl⟩ := taken <;> cases ends
    | (_, first) :: (_, second) :: rest =>
      obtain ⟨_, taken, _, more, leads⟩ := leads
      obtain ⟨rfl, -, a, known, rfl⟩ | ⟨rfl, -, a, known, rfl⟩ := taken <;>
        obtain ⟨rfl, absent, b, other, rfl⟩ | ⟨rfl, absent, b, other, rfl⟩ := more
      · cases absent
      · obtain ⟨rfl, same⟩ := full leads
        cases same
        exact ⟨first, second, known, other, .refl _⟩
      · obtain ⟨rfl, same⟩ := full leads
        cases same
        exact ⟨second, first, other, known, .swap ..⟩
      · cases absent
  · rintro ⟨whole, part, first, second, same⟩
    obtain rfl | rfl := List.perm_pair.mp same
    · exact ⟨_, .inl ⟨rfl, rfl, _, first, rfl⟩, _, .inr ⟨rfl, rfl, _, second, rfl⟩, rfl⟩
    · exact ⟨_, .inr ⟨rfl, rfl, _, second, rfl⟩, _, .inl ⟨rfl, rfl, _, first, rfl⟩, rfl⟩

/-- The parts that were given make a span once there are two of them, and they are as long as it. -/
theorem finish_eq_ok {place : Cause → Fault} {parts : SpanParts} {span : Span} :
    parts.finish place = .ok span ↔
      ∃ seconds nanos, parts = ⟨some seconds, some nanos⟩ ∧
        span.toNanos = seconds * 1000000000 + nanos := by
  obtain ⟨_ | seconds, _ | nanos⟩ := parts <;>
    simp [SpanParts.finish, spanOf_eq_ok]

/--
The members of a span are read just where its two parts are listed up to the end of the object.
-/
theorem readSpanMembers_eq_ok {text rest : List Char} {span : Span} :
    readSpanMembers ⟨none, none⟩ true text = .ok (span, rest) ↔
      ∃ seconds nanos whole part members inner, IsDecimal UInt64.size whole seconds ∧
        IsDecimal UInt32.size part nanos ∧ span.toNanos = seconds * 1000000000 + nanos ∧
        members.Perm [("secs", whole), ("nanos", part)] ∧ Listing IsMember true members inner ∧
        text = inner ++ '\x7d' :: rest := by
  rw [walks_span.eq_ok]
  constructor
  · -- At the end of the object the reader has what its members lead to, and makes a span of it.
    rintro ⟨members, inner, last, behind, listed, leads, finished, rfl⟩
    cases made : last.finish (.behind · behind) with
    | error fault => simp [made, Except.map] at finished
    | ok span =>
      obtain ⟨seconds, nanos, rfl, long⟩ := finish_eq_ok.mp made
      obtain ⟨rfl, rfl⟩ : span = _ ∧ behind = rest := by simpa [made, Except.map] using finished
      obtain ⟨whole, part, first, second, same⟩ := leads_span.mp leads
      exact ⟨seconds, nanos, whole, part, members, inner, first, second, long, same, listed, rfl⟩
  · rintro ⟨seconds, nanos, whole, part, members, inner, first, second, long, same, listed, rfl⟩
    -- The two parts that the members lead to are as long as the span.
    have made : SpanParts.finish (.behind · rest) ⟨some seconds, some nanos⟩ = .ok span :=
      finish_eq_ok.mpr ⟨seconds, nanos, rfl, long⟩
    exact ⟨members, inner, ⟨some seconds, some nanos⟩, rest, listed,
      leads_span.mpr ⟨whole, part, first, second, same⟩, by rw [made]; rfl, rfl⟩

/-- An item of a span is read just behind what leads to it. -/
theorem readSpanItem_sound {before n : Nat} {read : List Char → Except Fault (Nat × List Char)}
    {Means : List Char → Nat → Prop} (reads : Reads read Means) {text rest : List Char}
    (passed : readSpanItem before read text = .ok (n, rest)) :
    ∃ lead written, IsLead (before = 0) lead ∧ Means written n ∧
      text = lead ++ (written ++ rest) := by
  unfold readSpanItem at passed
  -- A span does not end before both of its items are there.
  split at passed
  · cases passed
  · cases passed
  · rename_i reached
    exact reads.item_sound reached passed

/-- An item of a span is read behind what leads to it. -/
theorem readSpanItem_complete {before n : Nat} {read : List Char → Except Fault (Nat × List Char)}
    {Means : List Char → Nat → Prop} (reads : Reads read Means) {lead written rest : List Char}
    (front : IsLead (before = 0) lead) (means : Means written n) (ends : EndsNumber rest) :
    readSpanItem before read (lead ++ (written ++ rest)) = .ok (n, rest) := by
  obtain ⟨reached, passed⟩ := reads.item_complete front means ends
  rw [readSpanItem, reached]
  exact passed

/-- Behind the two parts that a list gives, the reader makes a span of them, well or badly. -/
theorem readSpanItems_listed {seconds nanos : Nat} {whole part inner : List Char}
    (one : IsDecimal UInt64.size whole seconds) (two : IsDecimal UInt32.size part nanos)
    (listed : Listing (fun item written => written = item) true [whole, part] inner)
    (rest : List Char) :
    ∃ place : Cause → Fault, (∀ cause, (place cause).cause = cause) ∧
      readSpanItems (inner ++ ']' :: rest) = (spanOf place seconds nanos).map (·, rest) := by
  obtain ⟨lead, whole, _, front, rfl, ⟨middle, part, gap, between, rfl, blank, rfl⟩, rfl⟩ := listed
  -- The first number ends at the comma, and the second one where the list ends.
  have comma : EndsNumber (middle ++ (part ++ (gap ++ ']' :: rest))) := by
    obtain ⟨before, after, free, -, rfl⟩ := between
    rw [List.append_assoc]
    exact .mark free (.inl rfl) _
  have first : readSpanItem 0 readSeconds
    (lead ++ (whole ++ (middle ++ (part ++ (gap ++ ']' :: rest))))) =
      .ok (seconds, middle ++ (part ++ (gap ++ ']' :: rest))) :=
    readSpanItem_complete reads_seconds front one comma
  have second : readSpanItem 1 readNanos (middle ++ (part ++ (gap ++ ']' :: rest))) =
      .ok (nanos, gap ++ ']' :: rest) :=
    readSpanItem_complete reads_nanos between two (.mark blank (.inr (.inl rfl)) rest)
  have closed : closeList (gap ++ ']' :: rest) = .ok rest := closeList_eq_ok.mpr ⟨gap, blank, rfl⟩
  refine ⟨(faultInList · (gap ++ ']' :: rest)), fun cause => ?_, ?_⟩
  · simp only [faultInList]
    split <;> rfl
  · simp only [List.append_assoc, readSpanItems, first, second, closed]
    cases spanOf (faultInList · (gap ++ ']' :: rest)) seconds nanos <;> rfl

/-- The items of a span are read just where its two parts are listed up to the end of the list. -/
theorem readSpanItems_eq_ok {text rest : List Char} {span : Span} :
    readSpanItems text = .ok (span, rest) ↔
      ∃ seconds nanos whole part inner, IsDecimal UInt64.size whole seconds ∧
        IsDecimal UInt32.size part nanos ∧
        span.toNanos = seconds * 1000000000 + nanos ∧
        Listing (fun item written => written = item) true [whole, part] inner ∧
          text = inner ++ ']' :: rest := by
  constructor
  · -- The reader has passed the first item, the second one, and then the end of the list.
    intro passed
    unfold readSpanItems at passed
    split at passed
    · cases passed
    · rename_i seconds behind first
      obtain ⟨lead, whole, front, one, rfl⟩ := readSpanItem_sound reads_seconds first
      split at passed
      · cases passed
      · rename_i nanos after second
        obtain ⟨middle, part, between, two, rfl⟩ := readSpanItem_sound reads_nanos second
        split at passed
        · cases passed
        · rename_i made
          cases closed : closeList after with
          | error fault => simp [closed, Except.map] at passed
          | ok left =>
            obtain ⟨rfl, rfl⟩ : _ = span ∧ left = rest := by simpa [closed, Except.map] using passed
            obtain ⟨gap, blank, rfl⟩ := closeList_eq_ok.mp closed
            exact ⟨seconds, nanos, whole, part, lead ++
              (whole ++ (middle ++ (part ++ gap))), one, two,
              spanOf_eq_ok.mp made,
              ⟨lead, _, _, front, rfl, ⟨middle, _, _, between, rfl, blank, rfl⟩, rfl⟩, by simp⟩
  · rintro ⟨seconds, nanos, _, _, inner, one, two, long, listed, rfl⟩
    obtain ⟨place, -, passed⟩ := readSpanItems_listed one two listed rest
    rw [passed, spanOf_eq_ok.mpr long]
    rfl

/-- A span is read from the texts that stand for it. -/
theorem reads_span : Reads readSpan IsSpan where
  sound {text rest span} passed := by
    -- Which bracket there is tells in which form the parts were given.
    obtain ⟨gap, behind, blank, ⟨rfl, opened⟩ | ⟨rfl, opened⟩⟩ := readBracketed_eq_ok.mp passed
    · obtain ⟨seconds, nanos, whole, part, inner, one, two, long, listed, rfl⟩ :=
        readSpanItems_eq_ok.mp opened
      exact ⟨gap, _, blank, ⟨seconds, nanos, whole, part, one, two, long,
        .inr ⟨inner, listed, rfl⟩⟩, by simp⟩
    · obtain ⟨seconds, nanos, whole, part, members, inner, one, two, long, same, listed, rfl⟩ :=
        readSpanMembers_eq_ok.mp opened
      exact ⟨gap, _, blank,
        ⟨seconds, nanos, whole, part, one, two, long,
          .inl ⟨members, same, inner, listed, rfl⟩⟩, by simp⟩
  complete {gap written rest span} blank means ends := by
    -- The form decides which bracket the reader meets, and so how it goes on.
    obtain ⟨seconds, nanos, whole, part, one, two, long,
        ⟨members, same, inner, listed, rfl⟩ | ⟨inner, listed, rfl⟩⟩ :=
      means
    · have passed : readSpanMembers ⟨none, none⟩ true (inner ++ '\x7d' :: rest) =
        .ok (span, rest) :=
        readSpanMembers_eq_ok.mpr
          ⟨seconds, nanos, whole, part, members, inner, one, two, long, same, listed, rfl⟩
      rw [List.cons_append, readSpan, readBracketed_object blank]
      simpa using passed
    · have passed : readSpanItems (inner ++ ']' :: rest) = .ok (span, rest) :=
        readSpanItems_eq_ok.mpr ⟨seconds, nanos, whole, part, inner, one, two, long, listed, rfl⟩
      rw [List.cons_append, readSpan, readBracketed_list blank]
      simpa using passed
  head {written span} means := by
    -- A bracket stands at the front either way, and is no blank.
    obtain ⟨-, -, -, -, -, -, -, ⟨-, -, -, -, rfl⟩ | ⟨-, -, rfl⟩⟩ := means
    · exact ⟨_, _, rfl, rfl, by decide⟩
    · exact ⟨_, _, rfl, rfl, by decide⟩

/-! Sizes. -/

/-- Whether a text stands for a size in bytes, or says that there is none. -/
def IsSize (text : List Char) (size : Option UInt64) : Prop :=
  (text = "null".toList ∧ size = none) ∨ ∃ n, IsDecimal UInt64.size text n ∧ size = some (.ofNat n)

/-- A size is read from the texts that stand for it. -/
theorem reads_size : Reads readStackSize IsSize where
  sound {text rest size} passed := by
    -- Behind the blanks there is the word, or else a number is read.
    obtain ⟨gap, blank, split⟩ := skipBlanks_split text
    unfold readStackSize at passed
    split at passed
    · rename_i after word
      cases found : readWord ['u', 'l', 'l'] after with
      | error fault => simp [found, Except.map] at passed
      | ok left =>
        obtain ⟨rfl, rfl⟩ : none = size ∧ left = rest := by simpa [found, Except.map] using passed
        refine ⟨gap, "null".toList, blank, .inl ⟨rfl, rfl⟩, ?_⟩
        rw [split, word, readWord_eq_ok.mp found]
        rfl
    · obtain ⟨n, found, rfl⟩ := mapRead_eq_ok.mp passed
      obtain ⟨more, written, free, means, behind⟩ :=
        (reads_below (Nat.le_refl _) .bytes).sound found
      exact ⟨gap ++ more, written, blank.append free,
        .inr ⟨n, means, rfl⟩, by rw [split, behind]; simp⟩
  complete {gap written rest size} blank means ends := by
    obtain ⟨rfl, rfl⟩ | ⟨n, known, rfl⟩ := means
    · have passed : skipBlanks (gap ++ ("null".toList ++ rest)) = "null".toList ++ rest :=
        skipBlanks_upTo blank rfl _
      rw [readStackSize, passed]
      simp [readWord_eq_ok.mpr (show 'u' :: 'l' :: 'l' :: rest = ['u', 'l', 'l'] ++ rest from rfl),
        Except.map]
    · -- A number begins with a digit, so it is not taken for the word.
      have read : readBelow UInt64.size .bytes (written ++ rest) = .ok (n, rest) :=
        (reads_below (Nat.le_refl _) .bytes).complete (List.forall_mem_nil _) known ends
      obtain ⟨-, rfl⟩ := known
      obtain ⟨c, digits, front⟩ :=
        List.exists_cons_of_ne_nil (Nat.toDigits_ne_nil (n := n) (b := 10))
      have digit : isDigit c = true := isDigit_toDigits c (by rw [front]; exact List.mem_cons_self)
      rw [front, List.cons_append] at read ⊢
      rw [readStackSize, skipBlanks_upTo blank (visible_of_isDigit digit)]
      split
      · rename_i same
        cases (List.cons.inj same).1
        cases digit
      · rw [read]
        rfl
  head {written size} means := by
    obtain ⟨rfl, -⟩ | ⟨n, known, -⟩ := means
    · exact ⟨'n', "ull".toList, rfl, rfl, by decide⟩
    · exact (reads_below (Nat.le_refl _) .bytes).head known

end Json

namespace Settings

open Json

/-! The four settings alike. -/

/-- What kind of value a setting has. -/
def Field.Kind : Field → Type
  | .nameStem => String
  | .drainTimeout => Span
  | .pollInterval => Span
  | .stackSize => Option UInt64

/-- The value of one of the settings. -/
def get (settings : Settings) : (field : Field) → field.Kind
  | .nameStem => settings.nameStem
  | .drainTimeout => settings.drainTimeout
  | .pollInterval => settings.pollInterval
  | .stackSize => settings.stackSize

/-- The value that was given for one of the settings. -/
def Given.get (given : Given) : (field : Field) → Option field.Kind
  | .nameStem => given.nameStem
  | .drainTimeout => given.drainTimeout
  | .pollInterval => given.pollInterval
  | .stackSize => given.stackSize

/-- What was given so far, with a value for one setting more. -/
def Given.put (given : Given) : (field : Field) → field.Kind → Given
  | .nameStem, value => { given with nameStem := some value }
  | .drainTimeout, value => { given with drainTimeout := some value }
  | .pollInterval, value => { given with pollInterval := some value }
  | .stackSize, value => { given with stackSize := some value }

/-- Whether a text stands for the value of a setting: a literal, a span or a size. -/
def Field.Means : (field : Field) → List Char → field.Kind → Prop
  | .nameStem => IsLiteral
  | .drainTimeout => IsSpan
  | .pollInterval => IsSpan
  | .stackSize => IsSize

/-- A value that was put is there. -/
@[simp] theorem Given.get_put (given : Given) (field : Field) (value : field.Kind) :
    (given.put field value).get field = some value := by
  cases field <;> rfl

/-- Other values are not changed by what was put. -/
@[simp] theorem Given.get_put_other (given : Given) {field other : Field} (apart : other ≠ field)
    (value : field.Kind) :
    (given.put field value).get other = given.get other := by
  cases field <;> cases other <;> first | rfl | exact absurd rfl apart

/-- A setting was given just if there is a value for it. -/
theorem Given.has_eq (given : Given) (field : Field) :
    given.has field = (given.get field).isSome := by
  cases field <;> rfl

/-- What was given is kept, and the rest has its default. -/
theorem Given.get_settings (given : Given) (field : Field) :
    given.settings.get field = (given.get field).getD (default.get field) := by
  cases field <;> rfl

/-- Settings are the same if all four values are. -/
theorem eq_of_get {settings other : Settings}
    (same : ∀ field, settings.get field = other.get field) :
    settings = other := by
  -- There are no more than four fields, and each is the value of its setting.
  obtain ⟨stem, timeout, interval, size⟩ := settings
  obtain ⟨stem', timeout', interval', size'⟩ := other
  obtain rfl : stem = stem' := same .nameStem
  obtain rfl : timeout = timeout' := same .drainTimeout
  obtain rfl : interval = interval' := same .pollInterval
  obtain rfl : size = size' := same .stackSize
  rfl

/-- The value of each setting is read from the texts that stand for it. -/
theorem reads_field (given : Given) (field : Field) :
    Reads (readField given field) fun written after =>
      ∃ value, field.Means written value ∧ after = given.put field value := by
  -- Whatever is read as a value is put for its setting.
  cases field with
  | nameStem => exact reads_text.map fun value => given.put .nameStem value
  | drainTimeout => exact reads_span.map fun value => given.put .drainTimeout value
  | pollInterval => exact reads_span.map fun value => given.put .pollInterval value
  | stackSize => exact reads_size.map fun value => given.put .stackSize value

/-- The keys of the settings are apart. -/
theorem Field.ofKey?_eq_some {key : String} {field : Field} :
    ofKey? key = some field ↔ key = field.key := by
  -- What is found has the key, and by its own key each setting is found.
  constructor
  · intro found
    have same : field.key = key := by simpa using List.find?_some found
    exact same.symm
  · rintro rfl
    exact field.ofKey?_key

/-- No two settings have the same key. -/
theorem Field.key_injective : Function.Injective Field.key := by
  intro field other same
  have found := ofKey?_eq_some.mpr same
  rw [field.ofKey?_key] at found
  exact Option.some.inj found

/-! Members and items. -/

/-- Whether a member gives a setting that was not given before, or has another key and any value. -/
def Given.Takes (given : Given) (member : String × List Char) (after : Given) : Prop :=
  match Field.ofKey? member.1 with
  | some field => given.get field = none ∧ ∃ value, field.Means member.2 value ∧
      after = given.put field value
  | none => IsValue member.2 ∧ after = given

/--
The members of settings are walked, each of which gives a setting that was not given
before or is passed over.
-/
theorem walks_settings :
    Walks readMembers readMember (fun given rest => .ok (given, rest)) Given.Takes where
  turn given first text := by
    rw [readMembers]
    split <;> rename_i found <;> simp only [found]
    split <;> rename_i passed <;> simp only [passed]
  member given key := by
    -- The key says whether the value is to be passed over, or which setting it is for.
    cases named : Field.ofKey? key with
    | none =>
      simp only [readMember, Given.Takes, named]
      exact ⟨_, reads_skipped given, fun text result => .rfl⟩
    | some field =>
      -- A setting that was given already can not be given again.
      simp only [readMember, Given.Takes, named, given.has_eq]
      cases given.get field with
      | none => exact ⟨_, (reads_field given field).congr (by simp), fun text result => by simp⟩
      | some value =>
        refine ⟨_, (reads_nothing fun text => faultInObject (.repeatedField key) text).congr
          (by simp), ?_⟩
        intro text result
        simp only [Option.isSome_some, if_true, readAfterColon]
        split <;> simp

/-- The values that some members give under the key of a setting. -/
def Field.written (field : Field) (members : List (String × List Char)) : List (List Char) :=
  (members.filter fun member => member.1 = field.key).map Prod.snd

/-- A member is written for the setting whose key it has. -/
theorem Field.written_key (field : Field) (text : List Char) (members : List (String × List Char)) :
    field.written ((field.key, text) :: members) = text :: field.written members := by
  simp [written]

/-- A member is not written for a setting whose key it does not have. -/
theorem Field.written_other {field : Field} {member : String × List Char}
    (apart : member.1 ≠ field.key) (members : List (String × List Char)) :
    field.written (member :: members) = field.written members := by
  simp [written, apart]

/-- Whether any value stands behind each key that names no setting. -/
def OthersAreValues (members : List (String × List Char)) : Prop :=
  ∀ member ∈ members, (∀ field : Field, member.1 ≠ field.key) → IsValue member.2

/--
Whether a setting is kept where no member gives it, and was not there where
a member gives it a value.
-/
def Field.Settles (field : Field) (given : Given) (members : List (String × List Char))
    (last : Given) : Prop :=
  (field.written members = [] ∧ last.get field = given.get field) ∨
  (given.get field = none ∧ ∃ text value, field.written members = [text] ∧ field.Means text value ∧
    last.get field = some value)

/-- What was given is the same if all four values are. -/
theorem Given.eq_of_get {given other : Given} (same : ∀ field, given.get field = other.get field) :
    given = other := by
  -- Here, too, there are no more than four fields.
  obtain ⟨stem, timeout, interval, size⟩ := given
  obtain ⟨stem', timeout', interval', size'⟩ := other
  obtain rfl : stem = stem' := same .nameStem
  obtain rfl : timeout = timeout' := same .drainTimeout
  obtain rfl : interval = interval' := same .pollInterval
  obtain rfl : size = size' := same .stackSize
  rfl

/-- A member for another setting does not matter for whether a setting is settled behind it. -/
theorem Field.settles_other {field other : Field} (apart : field ≠ other) {given last : Given}
    {members : List (String × List Char)} {text : List Char} {value : other.Kind} :
    field.Settles (given.put other value) members last ↔
    field.Settles given ((other.key, text) :: members) last := by
  have keys : other.key ≠ field.key := fun same => apart (Field.key_injective same).symm
  rw [Settles, Settles, written_other keys, Given.get_put_other given apart]

/-- Behind a member for it, a setting is settled just if no other member gives it. -/
theorem Field.settles_put {field : Field} {given last : Given} {members : List (String × List Char)}
    {value : field.Kind} :
    field.Settles (given.put field value) members last ↔ field.written members = [] ∧
      last.get field = some value := by
  simp [Settles]

/-- Members lead to what they settle. -/
theorem leads_iff_settles {given last : Given} {members : List (String × List Char)} :
    Leads Given.Takes given members last ↔
      OthersAreValues members ∧ ∀ field : Field, field.Settles given members last := by
  -- The induction takes the first member off, which is for one of the settings or for none of them.
  induction members generalizing given with
  | nil =>
    constructor
    · rintro rfl
      exact ⟨by simp [OthersAreValues], fun field => .inl ⟨rfl, rfl⟩⟩
    · rintro ⟨-, settled⟩
      refine Given.eq_of_get fun field => ?_
      obtain ⟨-, same⟩ | ⟨-, text, value, written, -, -⟩ := settled field
      · exact same
      · cases written
  | cons member members ih =>
    obtain ⟨key, text⟩ := member
    simp only [Leads, ih]
    cases named : Field.ofKey? key with
    | none =>
      have apart (field : Field) : key ≠ field.key := by
        intro same
        rw [Field.ofKey?_eq_some.mpr same] at named
        cases named
      have kept (field : Field) :
          field.Settles given ((key, text) :: members) last ↔ field.Settles given members last := by
        rw [Field.Settles, Field.Settles, Field.written_other (apart field)]
      simp only [Given.Takes, named, kept, OthersAreValues, List.forall_mem_cons]
      constructor
      · rintro ⟨_, ⟨value, rfl⟩, others, settled⟩
        exact ⟨⟨fun _ => value, others⟩, settled⟩
      · rintro ⟨⟨value, others⟩, settled⟩
        exact ⟨given, ⟨value apart, rfl⟩, others, settled⟩
    | some first =>
      obtain rfl := Field.ofKey?_eq_some.mp named
      have others_iff : OthersAreValues ((first.key, text) :: members) ↔
          OthersAreValues members := by
        simp only [OthersAreValues, List.forall_mem_cons, and_iff_right_iff_imp]
        exact fun _ other => absurd rfl (other first)
      simp only [Given.Takes, named, others_iff]
      constructor
      · rintro ⟨_, ⟨absent, value, means, rfl⟩, others, settled⟩
        refine ⟨others, fun field => ?_⟩
        by_cases same : field = first
        · subst same
          obtain ⟨none, there⟩ := Field.settles_put.mp (settled field)
          exact .inr ⟨absent, text, value, by rw [Field.written_key, none], means, there⟩
        · exact (Field.settles_other same).mp (settled field)
      · rintro ⟨others, settled⟩
        obtain ⟨none, -⟩ | ⟨absent, other, value, alone, means, there⟩ := settled first
        · rw [Field.written_key] at none
          cases none
        · rw [Field.written_key, List.cons.injEq] at alone
          obtain ⟨rfl, none⟩ := alone
          refine ⟨_, ⟨absent, value, means, rfl⟩, others, fun field => ?_⟩
          by_cases same : field = first
          · subst same
            exact Field.settles_put.mpr ⟨none, there⟩
          · exact (Field.settles_other same).mpr (settled field)

/--
Whether some members give settings.

At most one member has the key of a setting, and its value stands for that of the setting.
Without such a member the setting has its default. Behind any other key there may be any value.
-/
def Gives (members : List (String × List Char)) (settings : Settings) : Prop :=
  OthersAreValues members ∧ ∀ field : Field,
    (field.written members = [] ∧ settings.get field = default.get field) ∨
    ∃ text, field.written members = [text] ∧ field.Means text (settings.get field)

/-- What is given by some texts for the settings. -/
def Given.of (value : (field : Field) → Option field.Kind) : Given :=
  ⟨value .nameStem, value .drainTimeout, value .pollInterval, value .stackSize⟩

/-- What is given is what was said. -/
@[simp] theorem Given.get_of (value : (field : Field) → Option field.Kind) (field : Field) :
    (Given.of value).get field = value field := by
  cases field <;> rfl

/-- Nothing is given to begin with. -/
@[simp] theorem Given.get_nothing (field : Field) : nothing.get field = none := by
  cases field <;> rfl

/-- Members lead from nothing to settings just if they give them. -/
theorem leads_iff_gives {members : List (String × List Char)} {settings : Settings} :
    (∃ last, Leads Given.Takes .nothing members last ∧ last.settings = settings) ↔
    Gives members settings := by
  constructor
  · -- What no member gives was not there at the beginning, so the default takes its place.
    rintro ⟨last, leads, rfl⟩
    obtain ⟨others, settled⟩ := leads_iff_settles.mp leads
    refine ⟨others, fun field => ?_⟩
    obtain ⟨none, same⟩ | ⟨-, text, value, alone, means, there⟩ := settled field
    · exact .inl ⟨none, by rw [last.get_settings, same, Given.get_nothing]; rfl⟩
    · exact .inr ⟨text, alone, by rw [last.get_settings, there]; exact means⟩
  · rintro ⟨others, given⟩
    -- Just those settings are given that a member is written for.
    refine ⟨.of fun field => if field.written members = [] then none else some (settings.get field),
      leads_iff_settles.mpr ⟨others, fun field => ?_⟩, eq_of_get fun field => ?_⟩
    · obtain ⟨none, -⟩ | ⟨text, alone, means⟩ := given field
      · exact .inl ⟨none, by simp [none]⟩
      · exact .inr ⟨Given.get_nothing field, text, settings.get field, alone,
          means, by simp [alone]⟩
    · rw [Given.get_settings, Given.get_of]
      obtain ⟨none, same⟩ | ⟨text, alone, -⟩ := given field
      · simp [none, same]
      · simp [alone]

/--
A member for a setting is taken just if the setting was not given before and
its value is written there.
-/
theorem Given.takes_key {given after : Given} {field : Field} {text : List Char} :
    given.Takes (field.key, text) after ↔
      given.get field = none ∧ ∃ value, field.Means text value ∧ after = given.put field value := by
  simp only [Takes, field.ofKey?_key]

/--
The items of settings are read just where they are listed up to the end of the list,
each for its own setting.
-/
theorem readItems_eq_ok {given last : Given} {first : Bool} {fields : List Field}
    {text rest : List Char} (once : fields.Nodup)
    (absent : ∀ field ∈ fields, given.get field = none) :
    readItems given first fields text = .ok (last, rest) ↔
      ∃ items inner, items.length ≤ fields.length ∧
        Listing (fun item written => written = item) first items inner ∧
        Leads Given.Takes given ((fields.map Field.key).zip items) last ∧
        text = inner ++ ']' :: rest := by
  -- The induction takes the first setting off, for which there is an item unless the list ends.
  induction fields generalizing given first text with
  | nil =>
    constructor
    · intro passed
      cases closed : closeList text with
      | error fault => simp [readItems, closed, Except.map] at passed
      | ok left =>
        obtain ⟨rfl, rfl⟩ : given = last ∧
          left = rest := by simpa [readItems, closed, Except.map] using passed
        obtain ⟨gap, blank, rfl⟩ := closeList_eq_ok.mp closed
        exact ⟨[], gap, Nat.le_refl _, blank, rfl, rfl⟩
    · rintro ⟨items, inner, none, listed, leads, rfl⟩
      obtain rfl := List.eq_nil_of_length_eq_zero (Nat.le_zero.mp none)
      obtain rfl : last = given := leads
      simp [readItems, closeList_eq_ok.mpr ⟨inner, listed, rfl⟩, Except.map]
  | cons field fields ih =>
    obtain ⟨fresh, once⟩ := List.nodup_cons.mp once
    have unset := absent field List.mem_cons_self
    have still (value : field.Kind) : ∀ other ∈ fields, (given.put field value).get
        other = none := by
      intro other later
      have apart : other ≠ field := by
        rintro rfl
        exact fresh later
      rw [Given.get_put_other given apart]
      exact absent other (List.mem_cons_of_mem field later)
    constructor
    · intro passed
      rw [readItems] at passed
      split at passed
      · cases passed
      · rename_i ended
        cases passed
        obtain ⟨gap, blank, rfl⟩ := nextItem_eq_false.mp ended
        exact ⟨[], gap, Nat.zero_le _, blank, rfl, rfl⟩
      · rename_i reached
        split at passed
        · cases passed
        · rename_i found
          obtain ⟨lead, written, front, ⟨value, means, rfl⟩, rfl⟩ :=
            (reads_field given field).item_sound reached found
          obtain ⟨items, inner, few, listed, leads, rfl⟩ := (ih once (still value)).mp passed
          exact ⟨written :: items, lead ++ (written ++ inner), Nat.succ_le_succ few,
            ⟨lead, written, inner, front, rfl, listed, rfl⟩,
            ⟨_, Given.takes_key.mpr ⟨unset, value, means, rfl⟩, leads⟩, by simp⟩
    · rintro ⟨items, inner, few, listed, leads, rfl⟩
      cases items with
      | nil =>
        obtain rfl : last = given := leads
        rw [readItems, nextItem_eq_false.mpr ⟨inner, listed, rfl⟩]
      | cons item items =>
        obtain ⟨lead, written, more, front, rfl, listed, rfl⟩ := listed
        obtain ⟨next, takes, leads⟩ := leads
        obtain ⟨-, value, means, rfl⟩ := Given.takes_key.mp takes
        obtain ⟨reached, found⟩ := (reads_field given field).item_complete front ⟨value, means, rfl⟩
          (listed.endsNumber .list rest)
        have split : lead ++ (written ++ more) ++ ']' :: rest =
            lead ++ (written ++ (more ++ Bracket.list.closing :: rest)) := by simp [Bracket.closing]
        rw [readItems, split, reached]
        simp only [found]
        exact (ih once (still value)).mpr ⟨items, more, Nat.le_of_succ_le_succ few,
          listed, leads, rfl⟩

/-! Whole texts. -/

/--
Whether a text is a document for settings.

It is an object whose members give the settings, or a list of four items at most,
which give them in their order.
-/
def IsDocument (text : List Char) (settings : Settings) : Prop :=
  ∃ members, Gives members settings ∧
    (IsObject members text ∨
      ∃ items, items.length ≤ Field.all.length ∧ members = (Field.all.map Field.key).zip items ∧
        IsList items text)

/-- Whether a text describes settings: it is a document for them between blanks. -/
def Describes (text : List Char) (settings : Settings) : Prop :=
  ∃ before document after, Gap before ∧ Gap after ∧ IsDocument document settings ∧
    text = before ++ (document ++ after)

/--
Settings are read from the front of a text just where a document for them stands behind blanks.
-/
theorem readFront_eq_ok {text rest : List Char} {settings : Settings} :
    (∃ given, readFront text = .ok (given, rest) ∧ given.settings = settings) ↔
      ∃ gap document, Gap gap ∧ IsDocument document settings ∧
        text = gap ++ (document ++ rest) := by
  -- A list gives the settings in the order of the list of all settings,
  -- which has each of them once.
  have once : Field.all.Nodup := by decide
  have absent : ∀ field ∈ Field.all, Given.nothing.get field = none :=
    fun field _ => Given.get_nothing field
  constructor
  · -- The bracket tells whether items or members were read.
    rintro ⟨given, passed, rfl⟩
    obtain ⟨gap, behind, blank, ⟨rfl, opened⟩ | ⟨rfl, opened⟩⟩ := readBracketed_eq_ok.mp passed
    · obtain ⟨items, inner, few, listed, leads, rfl⟩ := (readItems_eq_ok once absent).mp opened
      exact ⟨gap, _, blank,
        ⟨_, leads_iff_gives.mp ⟨given, leads, rfl⟩, .inr ⟨items, few, rfl, inner, listed,
          rfl⟩⟩, by simp⟩
    · obtain ⟨members, inner, last, left, listed, leads, finished, rfl⟩ :=
        walks_settings.eq_ok.mp opened
      obtain ⟨rfl, rfl⟩ : last = given ∧ left = rest := by simpa using finished
      exact ⟨gap, _, blank, ⟨members, leads_iff_gives.mp ⟨last, leads, rfl⟩,
        .inl ⟨inner, listed, rfl⟩⟩, by simp⟩
  · rintro ⟨gap, document, blank, ⟨members, gives, form⟩, rfl⟩
    -- What the members give is what the reader has at the end, whichever bracket it meets.
    obtain ⟨given, leads, rfl⟩ := leads_iff_gives.mpr gives
    refine ⟨given, ?_, rfl⟩
    obtain ⟨inner, listed, rfl⟩ | ⟨items, few, rfl, inner, listed, rfl⟩ := form
    · have passed : readMembers .nothing true (inner ++ '\x7d' :: rest) = .ok (given, rest) :=
        walks_settings.eq_ok.mpr ⟨members, inner, given, rest, listed, leads, rfl, rfl⟩
      rw [List.cons_append, readFront, readBracketed_object blank]
      simpa using passed
    · have passed : readItems .nothing true Field.all (inner ++ ']' :: rest) = .ok (given, rest) :=
        (readItems_eq_ok once absent).mpr ⟨items, inner, few, listed, leads, rfl⟩
      rw [List.cons_append, readFront, readBracketed_list blank]
      simpa using passed

/-- Settings are read from just those texts that describe them. -/
theorem read_eq_ok {text : List Char} {settings : Settings} :
    read text = .ok settings ↔ Describes text settings := by
  constructor
  · -- Where the reader succeeds, there are only blanks behind what it has read.
    intro passed
    unfold read at passed
    split at passed
    · cases passed
    · rename_i given rest found
      obtain ⟨gap, blank, split⟩ := skipBlanks_split rest
      split at passed <;> cases passed
      rename_i ended
      obtain ⟨before, document, free, means, rfl⟩ := readFront_eq_ok.mp ⟨given, found, rfl⟩
      exact ⟨before, document, rest, free, by rw [split, ended]; simpa using blank, means, rfl⟩
  · rintro ⟨before, document, after, free, blank, means, rfl⟩
    -- The reader stops behind the document, and finds nothing but blanks there.
    obtain ⟨given, found, rfl⟩ : ∃ given, readFront (before ++ (document ++ after)) =
      .ok (given, after) ∧
        given.settings = settings :=
      readFront_eq_ok.mpr ⟨before, document, free, means, rfl⟩
    have ended : skipBlanks after = [] := List.dropWhile_eq_nil_iff.mpr blank
    simp [read, found, ended]

/--
A text is parsed just if it describes settings, and as the settings that it describes.

Any other text is refused with a failure that blames the text as a whole.
-/
theorem parse_eq_ok_iff_describes (text : String) :
    (∀ settings, parse text = .ok settings ↔ Describes text.toList settings) ∧
      ((∃ settings, Describes text.toList settings) ∨
        ∃ wording, parse text = .error (.setting "json" wording)) := by
  -- Parsing is reading, but that a fault is put into words.
  have parsed (settings : Settings) : parse text = .ok settings ↔
      Describes text.toList settings := by
    rw [← read_eq_ok, parse]
    cases read text.toList <;> simp [Except.mapError]
  refine ⟨parsed, ?_⟩
  cases passed : read text.toList with
  | ok settings => exact .inl ⟨settings, read_eq_ok.mp passed⟩
  | error fault => exact .inr ⟨fault.describe text.toList, by rw [parse, passed]; rfl⟩

end Settings

end TaskPool
