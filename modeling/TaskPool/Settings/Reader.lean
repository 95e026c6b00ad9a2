import TaskPool.Json.Typed
import TaskPool.Settings

/-! Reading settings from a JSON text, where what is not given keeps its default. -/

namespace TaskPool

namespace Json

/-- The two parts of a span, as far as they were given. -/
structure SpanParts where
  seconds : Option Nat
  nanos : Option Nat

/-- The span of two parts, or the fault that its seconds do not fit their word. -/
def spanOf (place : Cause → Fault) (seconds nanos : Nat) : Except Fault Span :=
  match Span.ofParts? seconds nanos with
  | some span => .ok span
  | none => .error (place .spanTooLong)

/-- The span of the parts that were given when an object ends. -/
def SpanParts.finish (place : Cause → Fault) : SpanParts → Except Fault Span
  | ⟨none, _⟩ => .error (place (.missingField "secs"))
  | ⟨some _, none⟩ => .error (place (.missingField "nanos"))
  | ⟨some seconds, some nanos⟩ => spanOf place seconds nanos

/-- Reads the seconds of a span. -/
def readSeconds (text : List Char) :
    Except Fault (Nat × List Char) := readBelow UInt64.size .seconds text

/-- Reads the nanoseconds of a span, which need not stay below a second. -/
def readNanos (text : List Char) :
    Except Fault (Nat × List Char) := readBelow UInt32.size .nanos text

/-- Reads a colon, and then a value with the given reader. -/
def readAfterColon (read : List Char → Except Fault (α × List Char)) (text : List Char) :
    Except Fault (α × List Char) :=
  match readColon text with
  | .error fault => .error fault
  | .ok rest => read rest

/-- Reads one member of a span behind its key. -/
def readSpanMember (parts : SpanParts) (key : String) (text : List Char) :
    Except Fault (SpanParts × List Char) :=
  if key = "secs" then
    if parts.seconds.isSome then .error (faultInObject (.repeatedField key) text)
    else mapRead (fun value => { parts with seconds := some value })
      (readAfterColon readSeconds text)
  else if key = "nanos" then
    if parts.nanos.isSome then .error (faultInObject (.repeatedField key) text)
    else mapRead (fun value => { parts with nanos := some value }) (readAfterColon readNanos text)
  else .error (faultInObject (.unknownField key) text)

/--
A value that was read behind a colon is gone from the text, if its reader
leaves no more than it had.
-/
theorem readAfterColon_length {read : List Char → Except Fault (α × List Char)}
    {text rest : List Char} {value : α}
    (shorter : ∀ text value rest, read text = .ok (value, rest) → rest.length < text.length)
    (passed : readAfterColon read text = .ok (value, rest)) : rest.length < text.length := by
  -- The colon goes first, and then the value.
  unfold readAfterColon at passed
  split at passed
  · simp at passed
  · rename_i found
    have := readColon_length found
    have := shorter _ _ _ passed
    omega

/-- A member of a span that was read is gone from the text. -/
theorem readSpanMember_length {parts given : SpanParts} {key : String} {text rest : List Char}
    (read : readSpanMember parts key text = .ok (given, rest)) : rest.length < text.length := by
  -- Behind each of the two keys there is a number.
  unfold readSpanMember at read
  split at read
  · split at read
    · simp at read
    · obtain ⟨_, found, _⟩ := mapRead_eq_ok.mp read
      exact readAfterColon_length (fun _ _ _ passed => readBelow_length passed) found
  · split at read
    · split at read
      · simp at read
      · obtain ⟨_, found, _⟩ := mapRead_eq_ok.mp read
        exact readAfterColon_length (fun _ _ _ passed => readBelow_length passed) found
    · simp at read

/-- Reads the members of a span behind its opening bracket or behind an earlier member. -/
def readSpanMembers (parts : SpanParts) (first : Bool) (text : List Char) :
    Except Fault (Span × List Char) :=
  match _ : nextKey first text with
  | .error fault => .error fault
  | .ok (none, rest) => (parts.finish (.behind · rest)).map (·, rest)
  | .ok (some key, rest) =>
    match _ : readSpanMember parts key rest with
    | .error fault => .error fault
    | .ok (parts, rest) => readSpanMembers parts false rest
termination_by text.length
decreasing_by
  have := nextKey_length ‹nextKey _ _ = _›
  have := readSpanMember_length ‹readSpanMember _ _ _ = _›
  omega

/-- Reads one item of a span that must be there, where so many were read before it. -/
def readSpanItem (before : Nat) (read : List Char → Except Fault (Nat × List Char))
    (text : List Char) :
    Except Fault (Nat × List Char) :=
  match nextItem (before = 0) text with
  | .error fault => .error fault
  | .ok (false, rest) => .error (.behind (.shortSpan before) rest)
  | .ok (true, rest) => read rest

/-- Reads the two items of a span behind its opening bracket. -/
def readSpanItems (text : List Char) : Except Fault (Span × List Char) :=
  match readSpanItem 0 readSeconds text with
  | .error fault => .error fault
  | .ok (seconds, rest) =>
    match readSpanItem 1 readNanos rest with
    | .error fault => .error fault
    | .ok (nanos, rest) =>
      match spanOf (faultInList · rest) seconds nanos with
      | .error fault => .error fault
      | .ok span => (closeList rest).map (span, ·)

/-- Reads a span: an object of its two parts, or a list of them. -/
def readSpan (text : List Char) : Except Fault (Span × List Char) :=
  readBracketed .span readSpanItems (readSpanMembers ⟨none, none⟩ true) text

/-- Reads a size in bytes, or the word that says that there is none. -/
def readStackSize (text : List Char) : Except Fault (Option UInt64 × List Char) :=
  match skipBlanks text with
  | 'n' :: rest => (readWord ['u', 'l', 'l'] rest).map (none, ·)
  | rest => mapRead (some ∘ UInt64.ofNat) (readBelow UInt64.size .bytes rest)

end Json

namespace Settings

/-- One of the four settings. -/
inductive Field where
  | nameStem
  | drainTimeout
  | pollInterval
  | stackSize
deriving DecidableEq, Repr

namespace Field

/-- All settings, in the order in which a list gives them. -/
def all : List Field := [.nameStem, .drainTimeout, .pollInterval, .stackSize]

/-- The key of a setting. -/
def key : Field → String
  | .nameStem => "worker_name_prefix"
  | .drainTimeout => "drain_timeout"
  | .pollInterval => "drain_poll_interval"
  | .stackSize => "stack_size"

/-- The setting that a key names. -/
def ofKey? (key : String) : Option Field := all.find? fun field => field.key = key

end Field

/-- The settings that were given so far. -/
structure Given where
  nameStem : Option String
  drainTimeout : Option Span
  pollInterval : Option Span
  stackSize : Option (Option UInt64)

namespace Given

/-- No setting was given yet. -/
def nothing : Given := ⟨none, none, none, none⟩

/-- Whether a setting was given. -/
def has (given : Given) : Field → Bool
  | .nameStem => given.nameStem.isSome
  | .drainTimeout => given.drainTimeout.isSome
  | .pollInterval => given.pollInterval.isSome
  | .stackSize => given.stackSize.isSome

/-- The settings where those not given have their defaults. -/
def settings (given : Given) : Settings where
  nameStem := given.nameStem.getD default.nameStem
  drainTimeout := given.drainTimeout.getD default.drainTimeout
  pollInterval := given.pollInterval.getD default.pollInterval
  stackSize := given.stackSize.getD default.stackSize

end Given

open Json

/-- Reads the value of one setting. -/
def readField (given : Given) (field : Field) (text : List Char) :
    Except Fault (Given × List Char) :=
  match field with
  | .nameStem => mapRead (fun value => { given with nameStem := some value }) (readText text)
  | .drainTimeout => mapRead (fun value => { given with drainTimeout := some value })
      (readSpan text)
  | .pollInterval => mapRead (fun value => { given with pollInterval := some value })
      (readSpan text)
  | .stackSize => mapRead (fun value => { given with stackSize := some value }) (readStackSize text)

/--
Reads one member behind its key: a setting that was not given before, or a value that nobody wants.
-/
def readMember (given : Given) (key : String) (text : List Char) :
    Except Fault (Given × List Char) :=
  match Field.ofKey? key with
  | some field =>
    if given.has field then .error (faultInObject (.repeatedField key) text)
    else readAfterColon (readField given field) text
  | none => readAfterColon (fun text => (skipValue text).map (given, ·)) text

/-- Reads the items of settings from a list that may end after any of them. -/
def readItems (given : Given) (first : Bool) (fields : List Field) (text : List Char) :
    Except Fault (Given × List Char) :=
  match fields with
  | [] => (closeList text).map (given, ·)
  | field :: fields =>
    match nextItem first text with
    | .error fault => .error fault
    | .ok (false, rest) => .ok (given, rest)
    | .ok (true, rest) =>
      match readField given field rest with
      | .error fault => .error fault
      | .ok (given, rest) => readItems given false fields rest

end Settings

/-- The members of a span that were read are gone from the text. -/
theorem Json.readSpanMembers_length {parts : SpanParts} {first : Bool} {text rest : List Char}
    {span : Span} (read : readSpanMembers parts first text = .ok (span, rest)) :
    rest.length < text.length := by
  -- Each round takes a key and its value, and the last one takes the end.
  fun_induction readSpanMembers parts first text with
  | case1 => simp at read
  | case2 parts first text after found =>
    have := nextKey_length found
    cases finished : parts.finish (.behind · after) with
    | error fault => simp [finished, Except.map] at read
    | ok value =>
      simp [finished, Except.map] at read
      simp [← read.2]
      omega
  | case3 => simp at read
  | case4 _ _ _ _ _ found _ _ passed ih =>
    have := nextKey_length found
    have := readSpanMember_length passed
    have := ih read
    omega

/-- An item of a span that was read is gone from the text. -/
theorem Json.readSpanItem_length {before value : Nat}
    {read : List Char → Except Fault (Nat × List Char)} {text rest : List Char}
    (shorter : ∀ text value rest, read text = .ok (value, rest) → rest.length < text.length)
    (passed : readSpanItem before read text = .ok (value, rest)) : rest.length < text.length := by
  -- Whatever stands in front of the item goes first, and then the item.
  unfold readSpanItem at passed
  split at passed
  · simp at passed
  · simp at passed
  · rename_i found
    have := nextItem_length found
    have := shorter _ _ _ passed
    omega

/-- The items of a span that were read are gone from the text. -/
theorem Json.readSpanItems_length {text rest : List Char} {span : Span}
    (read : readSpanItems text = .ok (span, rest)) : rest.length < text.length := by
  -- The two items go first, and then the end of their list.
  unfold readSpanItems at read
  split at read
  · simp at read
  · rename_i first
    have := readSpanItem_length (fun _ _ _ passed => readBelow_length passed) first
    split at read
    · simp at read
    · rename_i after second
      have := readSpanItem_length (fun _ _ _ passed => readBelow_length passed) second
      split at read
      · simp at read
      · cases closed : closeList after with
        | error fault => simp [closed, Except.map] at read
        | ok left =>
          have := closeList_length closed
          simp [closed, Except.map] at read
          simp [← read.2]
          omega

/-- A span that was read is gone from the text. -/
theorem Json.readSpan_length {text rest : List Char} {span : Span}
    (read : readSpan text = .ok (span, rest)) :
    rest.length < text.length :=
  readBracketed_length readSpanItems_length readSpanMembers_length read

/-- A size that was read is gone from the text. -/
theorem Json.readStackSize_length {text rest : List Char} {size : Option UInt64}
    (read : readStackSize text = .ok (size, rest)) : rest.length < text.length := by
  -- Blanks go first, and then a word or a number.
  have blanks := skipBlanks_length text
  unfold readStackSize at read
  split at read
  · rename_i after skipped
    rw [skipped] at blanks
    simp at blanks
    cases found : readWord ['u', 'l', 'l'] after with
    | error fault => simp [found, Except.map] at read
    | ok left =>
      have := readWord_length found
      simp [found, Except.map] at read
      simp [← read.2]
      omega
  · obtain ⟨_, found, _⟩ := mapRead_eq_ok.mp read
    have := readBelow_length found
    omega

namespace Settings

open Json

/-- The value of a setting that was read is gone from the text. -/
theorem readField_length {given after : Given} {field : Field} {text rest : List Char}
    (read : readField given field text = .ok (after, rest)) : rest.length < text.length := by
  -- Every kind of value takes something.
  cases field with
  | nameStem =>
    obtain ⟨_, found, _⟩ := mapRead_eq_ok.mp read
    exact readText_length found
  | drainTimeout =>
    obtain ⟨_, found, _⟩ := mapRead_eq_ok.mp read
    exact readSpan_length found
  | pollInterval =>
    obtain ⟨_, found, _⟩ := mapRead_eq_ok.mp read
    exact readSpan_length found
  | stackSize =>
    obtain ⟨_, found, _⟩ := mapRead_eq_ok.mp read
    exact readStackSize_length found

/-- A member that was read is gone from the text. -/
theorem readMember_length {given after : Given} {key : String} {text rest : List Char}
    (read : readMember given key text = .ok (after, rest)) : rest.length < text.length := by
  -- A value is read where its key is known, and passed over where it is not.
  unfold readMember at read
  split at read
  · split at read
    · simp at read
    · exact readAfterColon_length (fun _ _ _ passed => readField_length passed) read
  · refine readAfterColon_length (fun text value rest passed => ?_) read
    cases found : skipValue text with
    | error fault => simp [found, Except.map] at passed
    | ok left =>
      simp [found, Except.map] at passed
      exact passed.2 ▸ skipValue_length found

/-- Reads the members of settings behind the opening bracket or behind an earlier member. -/
def readMembers (given : Given) (first : Bool) (text : List Char) :
    Except Fault (Given × List Char) :=
  match _ : nextKey first text with
  | .error fault => .error fault
  | .ok (none, rest) => .ok (given, rest)
  | .ok (some key, rest) =>
    match _ : readMember given key rest with
    | .error fault => .error fault
    | .ok (given, rest) => readMembers given false rest
termination_by text.length
decreasing_by
  have := nextKey_length ‹nextKey _ _ = _›
  have := readMember_length ‹readMember _ _ _ = _›
  omega

/--
Reads settings from the front of a text: an object that may name others too,
or a list in their order.
-/
def readFront (text : List Char) : Except Fault (Given × List Char) :=
  readBracketed .settings (readItems .nothing true Field.all) (readMembers .nothing true) text

/-- Reads settings from a whole text. -/
def read (text : List Char) : Except Fault Settings :=
  match readFront text with
  | .error fault => .error fault
  | .ok (given, rest) =>
    match skipBlanks rest with
    | [] => .ok given.settings
    | rest => .error (.here .trailingText rest)

/-- The settings that a text describes, without any check that they make sense. -/
def parse (text : String) : Except Failure Settings :=
  (read text.toList).mapError fun fault => .setting "json" (fault.describe text.toList)

/-- The settings that a text describes, if they make sense. -/
def ofJson (text : String) : Except Failure Settings := parse text >>= validate

end Settings

end TaskPool
