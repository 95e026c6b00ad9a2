import TaskPool.Proofs.Json.Reading
import TaskPool.Settings.Document
import TaskPool.Settings.Reader

/-! Settings are read back from both written forms of their document exactly as they were. -/

namespace TaskPool

namespace Json

variable {layout : Layout} {depth : Nat}

/-- The first of some members is written in front of the others. -/
theorem Layout.writeMembers_cons (layout : Layout) (depth : Nat) (first : Bool) (key : String)
    (value : Value) (members : List (String × Value)) (tail : List Char) :
    layout.writeMembers depth first ((key, value) :: members) ++ tail =
      layout.separator depth first ++ ((literal key).toList ++
        ':' ::
        (layout.space ++ (layout.write depth value ++ (layout.writeMembers depth false members ++
          tail)))) := by
  -- Only the brackets of the appended texts differ.
  simp [writeMembers]

/-- A number ends in front of more members and the end of their object. -/
theorem EndsNumber.members (layout : Layout) (depth : Nat) (members : List (String × Value))
    (rest : List Char) :
    EndsNumber (layout.writeMembers (depth + 1) false members ++
      (layout.line depth ++ '\x7d' :: rest)) := by
  -- Either another member follows behind a comma, or the object ends.
  cases members with
  | nil => exact EndsNumber.bracket (layout.line_blank depth) rest
  | cons member members => exact EndsNumber.comma _

/-- The members of an object stand between its brackets. -/
theorem Layout.write_object (layout : Layout) (depth : Nat) (member : String × Value)
    (members : List (String × Value)) (rest : List Char) :
    layout.write depth (.object (member :: members)) ++ rest =
      '\x7b' :: (layout.writeMembers (depth + 1) true (member :: members) ++
        (layout.line depth ++ '\x7d' :: rest)) := by
  -- Only the brackets of the appended texts differ.
  simp [write]

/-- A natural number is written as its digits. -/
theorem Layout.write_natural (layout : Layout) (depth n : Nat) :
    layout.write depth (.natural n) = Nat.toDigits 10 n := by
  -- A number has no parts to be laid out.
  rw [← toList_scalarText_natural]
  rfl

/-- Behind a colon, the value is read. -/
theorem readAfterColon_colon (read : List Char → Except Fault (α × List Char)) (text : List Char) :
    readAfterColon read (':' :: text) = read text := by
  -- There are no blanks in front of the colon.
  have passed : readColon (':' :: text) = .ok text := readColon_gap (List.forall_mem_nil _) text
  simp [readAfterColon, passed]

/-- A member of a span is read, and then the others. -/
theorem readSpanMembers_step {parts given : SpanParts} {first : Bool} {key : String}
    {text after rest : List Char} (found : nextKey first text = .ok (some key, after))
    (member : readSpanMember parts key after = .ok (given, rest)) :
    readSpanMembers parts first text = readSpanMembers given false rest := by
  -- The reader asks for a key, then for its value, and then goes on.
  rw [readSpanMembers]
  split <;> rename_i passed <;> rw [found] at passed <;> cases passed
  split <;> rename_i passed <;> rw [member] at passed <;> cases passed
  rfl

/-- The span that its members give is there once their object ends. -/
theorem readSpanMembers_end {parts : SpanParts} {first : Bool} {text rest : List Char}
    (found : nextKey first text = .ok (none, rest)) :
    readSpanMembers parts first text = (parts.finish (.behind · rest)).map (·, rest) := by
  -- The reader asks for a key and finds the end.
  rw [readSpanMembers]
  split <;> rename_i passed <;> rw [found] at passed <;> cases passed
  rfl

/-- The parts of a span in their normal form give that span. -/
theorem spanOf_parts (place : Cause → Fault) (span : Span) :
    spanOf place span.seconds.toNat span.nanos.val = .ok span := by
  -- Nothing is carried over from nanoseconds below a second.
  have none_over : span.nanos.val / 1000000000 = 0 := Nat.div_eq_of_lt span.nanos.isLt
  have all_left : span.nanos.val % 1000000000 = span.nanos.val := Nat.mod_eq_of_lt span.nanos.isLt
  have fits : span.seconds.toNat < UInt64.size := span.seconds.toNat_lt_size
  simp [spanOf, Span.ofParts?, none_over, all_left, fits]

/-- A span is read back from its document, behind any blanks. -/
theorem readSpan_written (span : Span) (layout : Layout) (depth : Nat) {gap : List Char}
    (blank : ∀ c ∈ gap, isBlank c = true) (rest : List Char) :
    readSpan (gap ++ (layout.write depth span.document ++ rest)) = .ok (span, rest) := by
  -- The two members are read one after the other, each up to where its number ends.
  have seconds (after : List Char) (ends : EndsNumber after) :
      readSpanMember ⟨none, none⟩ "secs"
        (':' ::
          (layout.space ++ (layout.write (depth + 1) (.natural span.seconds.toNat) ++ after))) =
          .ok (⟨some span.seconds.toNat, none⟩, after) := by
    have fits : span.seconds.toNat < UInt64.size := span.seconds.toNat_lt_size
    simp [readSpanMember, readAfterColon_colon, readSeconds, layout.write_natural,
      readBelow_toDigits fits (Nat.le_refl _) layout.space_blank ends, mapRead]
  have nanos (after : List Char) (ends : EndsNumber after) :
      readSpanMember ⟨some span.seconds.toNat, none⟩ "nanos"
        (':' :: (layout.space ++ (layout.write (depth + 1) (.natural span.nanos.val) ++ after))) =
          .ok (⟨some span.seconds.toNat, some span.nanos.val⟩, after) := by
    have fits : span.nanos.val < UInt32.size := Nat.lt_trans span.nanos.isLt (by decide)
    simp [readSpanMember, readAfterColon_colon, readNanos, layout.write_natural,
      readBelow_toDigits fits (by decide) layout.space_blank ends, mapRead]
  rw [Span.document, layout.write_object, readSpan, readBracketed_object blank,
    layout.writeMembers_cons,
    readSpanMembers_step (nextKey_separator ..) (seconds _ (.members layout depth _ rest)),
    layout.writeMembers_cons,
    readSpanMembers_step (nextKey_separator ..) (nanos _ (.members layout depth _ rest)),
    Layout.writeMembers, List.nil_append,
    readSpanMembers_end (nextKey_end false (layout.line_blank depth) rest)]
  simp [SpanParts.finish, spanOf_parts, Except.map]

end Json

namespace Settings

open Json

variable {settings : Settings} {given : Given} {layout : Layout} {depth : Nat}

/-- The value of a setting in the document. -/
def Field.value (settings : Settings) : Field → Value
  | .nameStem => .text settings.nameStem
  | .drainTimeout => settings.drainTimeout.document
  | .pollInterval => settings.pollInterval.document
  | .stackSize => (settings.stackSize.map fun size => Value.natural size.toNat).getD .null

/-- What was given so far, with one setting more. -/
def Given.fill (settings : Settings) (given : Given) : Field → Given
  | .nameStem => { given with nameStem := some settings.nameStem }
  | .drainTimeout => { given with drainTimeout := some settings.drainTimeout }
  | .pollInterval => { given with pollInterval := some settings.pollInterval }
  | .stackSize => { given with stackSize := some settings.stackSize }

/-- The document names all settings in their order. -/
theorem document_eq (settings : Settings) :
    settings.document = .object (Field.all.map fun field => (field.key, field.value settings)) := by
  rfl

/-- A setting is known by its key. -/
theorem Field.ofKey?_key (field : Field) : ofKey? field.key = some field := by
  -- Four keys, each found for itself.
  cases field <;> decide

/-- Nothing else is given by a setting. -/
theorem Given.has_fill (settings : Settings) (given : Given) {field other : Field}
    (apart : other ≠ field) :
    (given.fill settings field).has other = given.has other := by
  -- Each setting is filled in without touching the other three.
  cases field <;> cases other <;> first | rfl | exact absurd rfl apart

/-- What is given by all settings are those settings. -/
theorem settings_fill_all (settings : Settings) :
    (Field.all.foldl (Given.fill settings) .nothing).settings = settings := rfl

/-- A size is read back from its document, behind any blanks. -/
theorem readStackSize_written (size : Option UInt64) {gap : List Char}
    (blank : ∀ c ∈ gap, isBlank c = true) {rest : List Char} (ends : EndsNumber rest) :
    readStackSize (gap ++
      (layout.write depth ((size.map fun size => Value.natural size.toNat).getD .null) ++ rest)) =
      .ok (size, rest) := by
  -- Where there is a size it begins with a digit, so it is not taken for the word.
  cases size with
  | none =>
    have word : layout.write depth .null = ['n', 'u', 'l', 'l'] := rfl
    rw [Option.map_none, Option.getD_none, word, List.cons_append, readStackSize,
      skipBlanks_upTo blank rfl]
    rfl
  | some size =>
    have written : layout.write depth (.natural size.toNat) = Nat.toDigits 10 size.toNat :=
      layout.write_natural ..
    have read : readBelow UInt64.size .bytes (Nat.toDigits 10 size.toNat ++ rest) =
      .ok (size.toNat, rest) :=
      readBelow_toDigits size.toNat_lt_size (Nat.le_refl _) (List.forall_mem_nil _) ends
    rw [Option.map_some, Option.getD_some, written]
    obtain ⟨c, digits, front⟩ :=
      List.exists_cons_of_ne_nil (Nat.toDigits_ne_nil (n := size.toNat) (b := 10))
    have digit : isDigit c = true := isDigit_toDigits c (by rw [front]; exact List.mem_cons_self)
    have other : c ≠ 'n' := by
      rintro rfl
      cases digit
    rw [front, List.cons_append] at read ⊢
    rw [readStackSize, skipBlanks_upTo blank (visible_of_isDigit digit)]
    split
    · rename_i same
      exact absurd (List.cons.inj same).1 other
    · rw [read]
      simp [mapRead]

/-- A setting is read back from its value, behind any blanks. -/
theorem readField_written (field : Field) {gap : List Char} (blank : ∀ c ∈ gap, isBlank c = true)
    {rest : List Char} (ends : EndsNumber rest) :
    readField given field (gap ++ (layout.write depth (field.value settings) ++ rest)) =
      .ok (given.fill settings field, rest) := by
  -- A name is a literal, both spans are read alike, and a size may be missing.
  cases field with
  | nameStem =>
    have written : layout.write depth (.text settings.nameStem) =
      (literal settings.nameStem).toList := rfl
    simp only [readField, Field.value, written, readText_literal settings.nameStem blank,
      mapRead, Given.fill]
  | drainTimeout =>
    simp only [readField, Field.value, readSpan_written settings.drainTimeout layout depth
      blank, mapRead,
      Given.fill]
  | pollInterval =>
    simp only [readField, Field.value, readSpan_written settings.pollInterval layout depth
      blank, mapRead,
      Given.fill]
  | stackSize =>
    simp only [readField, Field.value, readStackSize_written settings.stackSize blank ends,
      mapRead, Given.fill]

/-- A setting that was not given before is read back from behind its key. -/
theorem readMember_written {field : Field} (absent : given.has field = false) {rest : List Char}
    (ends : EndsNumber rest) :
    readMember given field.key
      (':' :: (layout.space ++ (layout.write depth (field.value settings) ++ rest))) =
      .ok (given.fill settings field, rest) := by
  -- The key names the setting, which is not there yet.
  rw [readMember, field.ofKey?_key]
  simp only [absent, Bool.false_eq_true, if_false, readAfterColon_colon]
  exact readField_written field layout.space_blank ends

/-- A member is read, and then the others. -/
theorem readMembers_step {after : Given} {first : Bool} {key : String}
    {text behind rest : List Char} (found : nextKey first text = .ok (some key, behind))
    (member : readMember given key behind = .ok (after, rest)) :
    readMembers given first text = readMembers after false rest := by
  -- The reader asks for a key, then for its value, and then goes on.
  rw [readMembers]
  split <;> rename_i passed <;> rw [found] at passed <;> cases passed
  split <;> rename_i passed <;> rw [member] at passed <;> cases passed
  rfl

/-- What was given so far is all that is given once the object ends. -/
theorem readMembers_end {first : Bool} {text rest : List Char}
    (found : nextKey first text = .ok (none, rest)) :
    readMembers given first text = .ok (given, rest) := by
  -- The reader asks for a key and finds the end.
  rw [readMembers]
  split <;> rename_i passed <;> rw [found] at passed <;> cases passed
  rfl

/-- Settings that are named once each are read back from their members. -/
theorem readMembers_written (rest : List Char) {fields : List Field} (once : fields.Nodup)
    (absent : ∀ field ∈ fields, given.has field = false) (first : Bool) :
    readMembers given first
        (layout.writeMembers (depth + 1) first (fields.map fun field =>
          (field.key, field.value settings)) ++
          (layout.line depth ++ '\x7d' :: rest)) =
      .ok (fields.foldl (Given.fill settings) given, rest) := by
  -- The induction takes the first field off, which then is given and never named again.
  induction fields generalizing given first with
  | nil => exact readMembers_end (nextKey_end first (layout.line_blank depth) rest)
  | cons field fields ih =>
    obtain ⟨unnamed, once⟩ := List.nodup_cons.mp once
    have ends :=
      EndsNumber.members layout depth (fields.map fun field =>
        (field.key, field.value settings)) rest
    rw [List.map_cons, layout.writeMembers_cons, readMembers_step (nextKey_separator ..)
      (readMember_written (absent field List.mem_cons_self) ends)]
    refine ih once (fun other later => ?_) false
    have apart : other ≠ field := by
      rintro rfl
      exact unnamed later
    rw [Given.has_fill settings given apart]
    exact absent other (List.mem_cons_of_mem field later)

/-- Settings are read back from their document, however it is laid out. -/
theorem read_written (settings : Settings) (layout : Layout) :
    read (layout.write 0 settings.document) = .ok settings := by
  -- All four settings are named once, and nothing stands behind the object.
  have once : Field.all.Nodup := by decide
  have absent : ∀ field ∈ Field.all, Given.nothing.has field = false := by decide
  have front : readFront (layout.write 0 settings.document ++ []) =
      .ok (Field.all.foldl (Given.fill settings) .nothing, []) := by
    rw [document_eq, Field.all, List.map_cons, layout.write_object]
    exact (readBracketed_object (List.forall_mem_nil _) _).trans
      (readMembers_written [] once absent true)
  rw [List.append_nil] at front
  simp [read, front, skipBlanks, settings_fill_all]

/-- A check that passes gives back the settings that were checked. -/
theorem eq_of_validate {settings checked : Settings} (passed : settings.validate = .ok checked) :
    checked = settings := by
  -- Whatever is checked, it is the settings themselves that are given back.
  unfold validate at passed
  split_ifs at passed
  exact (Except.ok.inj passed).symm

/-- A text that is laid out as the document of settings is parsed as those settings. -/
theorem parse_written {text : String} (settings : Settings) (layout : Layout)
    (written : layout.write 0 settings.document = text.toList) : parse text = .ok settings := by
  -- The reader succeeds, so no fault is put into words.
  rw [parse, ← written, read_written]
  rfl

/--
Settings are parsed back from their compact and from their indented document exactly as they were.

So a text of either form is accepted where its settings make sense, with those settings,
and refused otherwise, with the rule that they break first.
-/
theorem parse_toJson_and_toPrettyJson (settings : Settings) :
    parse settings.toJson = .ok settings ∧ parse settings.toPrettyJson = .ok settings ∧
    ofJson settings.toJson = settings.validate ∧ ofJson settings.toPrettyJson = settings.validate ∧
    ∀ checked, settings.validate = .ok checked → checked = settings := by
  -- Both forms are layouts of one document.
  have compact : parse settings.toJson = .ok settings :=
    parse_written settings .tight (Layout.write_tight 0 _)
  have pretty : parse settings.toPrettyJson = .ok settings :=
    parse_written settings .spread (Layout.write_spread 0 _)
  refine ⟨compact, pretty, ?_, ?_, fun checked => eq_of_validate⟩
  · rw [ofJson, compact]
    rfl
  · rw [ofJson, pretty]
    rfl

end Settings

end TaskPool
