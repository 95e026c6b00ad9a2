import TaskPool.Proofs.Json.Decided.Values
import TaskPool.Proofs.Settings.Described

/-! What comes of reading settings is decided where the reader stops. -/

namespace TaskPool

namespace Json

/-- What a value behind a colon comes to is decided, if it is so without the colon. -/
theorem decisive_readAfterColon {α : Type} {read : List Char → Except Fault (α × List Char)}
    (decisive : Decisive read) : Decisive (readAfterColon read) := by
  intro text
  -- The colon is passed first, and then nothing but the value is looked at.
  refine .after (decisive_readColon text) (k := read) (fun tail => ?_) fun outcome _ =>
    decisive outcome
  rw [readAfterColon]
  cases readColon tail <;> rfl

/-- What the seconds of a span come to is decided. -/
theorem decisive_readSeconds : Decisive readSeconds := decisive_readBelow UInt64.size .seconds

/-- What the nanoseconds of a span come to is decided. -/
theorem decisive_readNanos : Decisive readNanos := decisive_readBelow UInt32.size .nanos

/-- What a member of a span comes to is decided. -/
theorem decisive_readSpanMember (parts : SpanParts) (key : String) :
    Decisive (readSpanMember parts key) := by
  intro text
  have seconds := decisive_readAfterColon decisive_readSeconds text
  have nanos := decisive_readAfterColon decisive_readNanos text
  -- Which member it is does not depend on what follows the key.
  refine .ite (fun _ => .ite (fun _ => ?_) fun _ => seconds.mapRead _) fun _ =>
    .ite (fun _ => .ite (fun _ => ?_) fun _ => nanos.mapRead _) fun _ => ?_
  all_goals exact decisive_faultInObject _ text

/-- What the parts of a span come to at its end is decided. -/
theorem decisive_finish (parts : SpanParts) :
    Decisive fun text => (parts.finish (.behind · text)).map (·, text) := by
  intro text
  -- The end of the object looks at no text, only at which of the two parts were given.
  obtain ⟨_ | seconds, _ | nanos⟩ := parts
  · exact .finds (.missingField "secs") 0
  · exact .finds (.missingField "secs") 0
  · exact .finds (.missingField "nanos") 0
  · simp only [SpanParts.finish, spanOf]
    cases Span.ofParts? seconds nanos with
    | some span => exact .brings span
    | none => exact .finds .spanTooLong 0

/-- What the members of a span come to is decided. -/
theorem decisive_readSpanMembers (parts : SpanParts) (first : Bool) :
    Decisive (readSpanMembers parts first) :=
  walks_span.decisive decisive_readSpanMember decisive_finish readSpanMember_length parts first

/-- What an item of a span comes to is decided, if it is so for the value. -/
theorem decisive_readSpanItem (before : Nat) {read : List Char → Except Fault (Nat × List Char)}
    (decisive : Decisive read) : Decisive (readSpanItem before read) := by
  intro text
  -- First it is decided whether there is an item, and only if there is one it is read.
  refine .afterValue (decisive_nextItem (before = 0) text)
    (k := fun there rest => if there = true then read rest
      else .error (.behind (.shortSpan before) rest))
    (fun tail => ?_) fun there rest _ => .ite (fun _ => decisive rest) fun _ =>
      .finds (.shortSpan before) 0
  -- Reading the item is what was said, one step after the other.
  rw [readSpanItem]
  cases nextItem (before = 0) tail with
  | error fault => rfl
  | ok outcome => obtain ⟨_ | _, rest⟩ := outcome <;> rfl

/-- Passes the end of a list behind the two parts of a span. -/
def closeSpan (seconds nanos : Nat) (rest : List Char) : Except Fault (Span × List Char) :=
  (spanOf (faultInList · rest) seconds nanos).bind fun span => (closeList rest).map (span, ·)

/-- What the end of a span in a list comes to is decided. -/
theorem decisive_closeSpan (seconds nanos : Nat) : Decisive (closeSpan seconds nanos) := by
  intro text
  unfold closeSpan spanOf
  -- Whether the parts make a span is known before the end of the list is looked for.
  cases Span.ofParts? seconds nanos with
  | some span => exact .map span (decisive_closeList text)
  | none => exact decisive_faultInList .spanTooLong text

/-- What the items of a span come to is decided. -/
theorem decisive_readSpanItems : Decisive readSpanItems := by
  intro text
  -- Each of the two items is decided where the last one has ended, and then the end of the list is.
  refine .afterValue (decisive_readSpanItem 0 decisive_readSeconds text)
    (k := fun seconds rest => (readSpanItem 1 readNanos rest).bind
      (Function.uncurry (closeSpan seconds)))
    (fun tail => ?_) fun seconds rest _ =>
      .afterValue (decisive_readSpanItem 1 decisive_readNanos rest) (fun _ => rfl)
        fun nanos rest _ =>
        decisive_closeSpan seconds nanos rest
  -- The reader takes these steps in this order, and stops at the first fault.
  rw [readSpanItems]
  cases readSpanItem 0 readSeconds tail with
  | error fault => rfl
  | ok outcome =>
    obtain ⟨seconds, rest⟩ := outcome
    simp only [Except.bind, Function.uncurry]
    cases readSpanItem 1 readNanos rest with
    | error fault => rfl
    | ok outcome =>
      obtain ⟨nanos, rest⟩ := outcome
      simp only [closeSpan]
      cases spanOf (faultInList · rest) seconds nanos <;> rfl

/-- What a span comes to is decided. -/
theorem decisive_readSpan : Decisive readSpan :=
  decisive_readBracketed .span decisive_readSpanItems (decisive_readSpanMembers ⟨none, none⟩ true)

/-- What a size in bytes comes to is decided. -/
theorem decisive_readStackSize : Decisive readStackSize := by
  intro text
  have front (other : List Char) : readStackSize (skipBlanks other) = readStackSize other := by
    rw [readStackSize, skipBlanks_idem, readStackSize]
  refine .blanks front rfl fun c rest visible _ => ?_
  -- The first character decides between the word and a number, and either reads on by itself.
  by_cases null : c = 'n'
  · subst null
    have word : Decisive (readWord ['u', 'l', 'l']) := decisive_readWord (by simp)
    refine .behind (fun tail => ?_) (.map none (word rest))
    rw [readStackSize, skipBlanks_cons visible]
    rfl
  · have number := (decisive_readBelow UInt64.size .bytes (c :: rest)).mapRead (some ∘ UInt64.ofNat)
    refine .like number fun d tail alike => ?_
    rw [readStackSize, skipBlanks_cons (alike.visible visible)]
    split
    · rename_i same
      exact absurd (List.cons.inj same).1 (alike.ne null (by decide))
    · rfl

end Json

namespace Settings

open Json

/-- What the value of a setting comes to is decided. -/
theorem decisive_readField (given : Given) (field : Field) : Decisive (readField given field) := by
  intro text
  cases field with
  | nameStem => exact .mapRead _ (decisive_readText text)
  | drainTimeout => exact .mapRead _ (decisive_readSpan text)
  | pollInterval => exact .mapRead _ (decisive_readSpan text)
  | stackSize => exact .mapRead _ (decisive_readStackSize text)

/-- What a member of settings comes to is decided. -/
theorem decisive_readMember (given : Given) (key : String) : Decisive (readMember given key) := by
  intro text
  -- The key is in front of the text, so which setting it names is settled before anything is read.
  cases known : Field.ofKey? key with
  | some field =>
    -- A setting that is given twice is a fault at once, and otherwise its value is read.
    have once : DecidedAt (fun text =>
        if given.has field = true then .error (faultInObject (.repeatedField key) text)
        else readAfterColon (readField given field) text) text :=
      .ite (fun _ => decisive_faultInObject _ text) fun _ =>
        decisive_readAfterColon (decisive_readField given field) text
    exact .near once fun other _ => by rw [readMember, known]
  | none =>
    -- The value of a key that names no setting is passed over.
    have skipped : Decisive fun text => (skipValue text).map (given, ·) := fun text =>
      .map given (decisive_skipValue text)
    exact .near (decisive_readAfterColon skipped text) fun other _ => by rw [readMember, known]

/-- What the items of settings come to is decided. -/
theorem decisive_readItems (given : Given) (first : Bool) (fields : List Field) :
    Decisive (readItems given first fields) := by
  -- The induction is on the settings that are still to come, one for each item.
  induction fields generalizing given first with
  | nil => exact fun text => .map given (decisive_closeList text)
  | cons field fields ih =>
    intro text
    refine .afterValue (decisive_nextItem first text)
      (k := fun there rest =>
        if there = true then
          (readField given field rest).bind (Function.uncurry fun given =>
            readItems given false fields)
        else .ok (given, rest))
      (fun tail => ?_) fun there rest _ => .ite (fun _ => ?_) fun _ => .brings given
    · -- The reader looks for an item, reads it, and goes on with the other settings.
      rw [readItems]
      cases nextItem first tail with
      | error fault => rfl
      | ok outcome =>
        obtain ⟨_ | _, rest⟩ := outcome
        · rfl
        · simp only [Except.bind, Function.uncurry]
          cases readField given field rest <;> rfl
    · exact .afterValue (decisive_readField given field rest) (fun _ => rfl) fun given rest _ =>
        ih given false rest

/-- What the members of settings come to is decided. -/
theorem decisive_readMembers (given : Given) (first : Bool) : Decisive (readMembers given first) :=
  walks_settings.decisive decisive_readMember (fun _ _ => .brings _) readMember_length given first

/-- What settings at the front of a text come to is decided. -/
theorem decisive_readFront : Decisive readFront :=
  decisive_readBracketed .settings (decisive_readItems .nothing true Field.all)
    (decisive_readMembers .nothing true)

/-- Says that the text ends behind settings and any blanks. -/
def closeText (given : Given) (text : List Char) : Except Fault (Settings × List Char) :=
  match skipBlanks text with
  | [] => .ok (given.settings, [])
  | rest => .error (.here .trailingText rest)

/-- Whether a text ends behind settings is decided. -/
theorem decisive_closeText (given : Given) : Decisive (closeText given) := by
  intro text
  refine .blanks (fun other => by rw [closeText, skipBlanks_idem, closeText])
    rfl fun c rest visible _ => ?_
  -- Anything that can be seen behind the blanks is a fault, and that is found without reading it.
  refine .peek (.error (.here .trailingText [])) fun d tail alike => ?_
  rw [closeText, skipBlanks_cons (alike.visible visible)]
  rfl

/-- What a whole text comes to is decided; where it brings settings, nothing is left over. -/
theorem decisive_read : Decisive fun text => (read text).map (·, ([] : List Char)) := by
  intro text
  -- Settings at the front are decided where they end, and the end of the text behind them.
  refine .afterValue (decisive_readFront text) (k := closeText) (fun tail => ?_) fun given rest _ =>
    decisive_closeText given rest
  rw [read]
  cases readFront tail with
  | error fault => rfl
  | ok outcome =>
    simp only [Except.bind, Function.uncurry, closeText]
    cases skipBlanks outcome.2 <;> rfl

end Settings

end TaskPool
