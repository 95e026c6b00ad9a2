import TaskPool.Pool
import TaskPool.Proofs.Settings.Described

/-!
Settings that are built by changes are those of a document that writes down the
last change of each setting.

A change that asks for too long a span is left out, and a document that asks for one is refused.
-/

namespace TaskPool

namespace Json

/-! Spans as they are asked for, with any number of nanoseconds. -/

/-- Whether a text gives seconds and nanoseconds, as an object with these two keys or as a list. -/
def IsParts (text : List Char) (seconds nanos : Nat) : Prop :=
  ∃ whole part, IsDecimal UInt64.size whole seconds ∧ IsDecimal UInt32.size part nanos ∧
    ((∃ members, members.Perm [("secs", whole), ("nanos", part)] ∧ IsObject members text) ∨
      IsList [whole, part] text)

variable {text : List Char} {seconds nanos : Nat}

/-- A text that gives the parts of a span stands for it. -/
theorem IsParts.isSpan {span : Span} (parts : IsParts text seconds nanos)
    (made : Span.ofParts? seconds nanos = some span) : IsSpan text span := by
  obtain ⟨whole, part, first, second, form⟩ := parts
  exact ⟨seconds, nanos, whole, part, first, second, ofParts?_eq_some.mp made, form⟩

/-- Where the parts of a span make none, no span is read, and the fault is that it is too long. -/
theorem readSpan_tooLong {gap : List Char} (blank : Gap gap) (parts : IsParts text seconds nanos)
    (tooLong : Span.ofParts? seconds nanos = none) (rest : List Char) :
    ∃ fault, readSpan (gap ++ (text ++ rest)) = .error fault ∧ fault.cause = .spanTooLong := by
  have unmade (place : Cause → Fault) : spanOf place seconds nanos =
      .error (place .spanTooLong) := by
    rw [spanOf, tooLong]
  obtain ⟨whole, part, first, second, ⟨members, same, inner, listed, rfl⟩ | ⟨inner, listed, rfl⟩⟩ :=
    parts
  · -- Only at the end of the object it turns out that the span is too long.
    have leads : Leads SpanParts.Takes ⟨none, none⟩ members ⟨some seconds, some nanos⟩ :=
      leads_span.mpr ⟨whole, part, first, second, same⟩
    have passed := walks_span.finishes listed leads rest
    simp only [SpanParts.finish, unmade, Except.map] at passed
    refine ⟨.behind .spanTooLong rest, ?_, rfl⟩
    rw [List.cons_append, readSpan, readBracketed_object blank]
    simpa using passed
  · obtain ⟨place, told, passed⟩ := readSpanItems_listed first second listed rest
    simp only [unmade, Except.map] at passed
    refine ⟨place .spanTooLong, ?_, told _⟩
    rw [List.cons_append, readSpan, readBracketed_list blank]
    simpa using passed

/-- There is a literal for every string. -/
theorem isLiteral_literal (value : String) : IsLiteral (literal value).toList value := by
  have read := readString_written value.toList []
  obtain ⟨spelling, spelled, same⟩ := readString_eq_ok.mp read
  refine ⟨spelling, spelled, ?_⟩
  rw [literal, String.toList_ofList, same]

/-- Two items are listed with a comma between them. -/
theorem isList_pair (one two : List Char) :
    IsList [one, two] ('[' :: (one ++ (',' :: (two ++ [])) ++ [']'])) := by
  have empty : Gap [] := List.forall_mem_nil _
  exact ⟨_, ⟨[], one, _, empty, rfl, ⟨[','], two, [], ⟨[], [], empty, empty, rfl⟩, rfl, empty,
    rfl⟩, rfl⟩, rfl⟩

/-- There is a text for the parts of every span that can be asked for. -/
theorem exists_parts (whole : seconds < UInt64.size) (part : nanos < UInt32.size) :
    ∃ text, IsParts text seconds nanos :=
  ⟨_, _, _, ⟨whole, rfl⟩, ⟨part, rfl⟩, .inr (isList_pair _ _)⟩

/-- Members with any keys and values can be listed. -/
theorem exists_listing (first : Bool) (members : List (String × List Char)) :
    ∃ inner, Listing IsMember first members inner := by
  induction members generalizing first with
  | nil => exact ⟨[], List.forall_mem_nil _⟩
  | cons member members ih =>
    obtain ⟨rest, listed⟩ := ih false
    -- No lead is needed in front of the first member, and a comma in front of the others.
    have lead : ∃ lead, IsLead first lead := by
      cases first with
      | true => exact ⟨[], List.forall_mem_nil _⟩
      | false => exact ⟨[','], [], [], List.forall_mem_nil _, List.forall_mem_nil _, rfl⟩
    obtain ⟨lead, front⟩ := lead
    have known : IsMember member ((literal member.1).toList ++ ([] ++ ':' :: ([] ++ member.2))) :=
      ⟨_, [], [], isLiteral_literal member.1, List.forall_mem_nil _, List.forall_mem_nil _, rfl⟩
    exact ⟨_, lead, _, rest, front, known, listed, rfl⟩

end Json

open Json
open Settings (Field default)

/-! Changes one after the other. -/

namespace Settings

/-- Settings with another value for one of them. -/
def put (settings : Settings) : (field : Field) → field.Kind → Settings
  | .nameStem, value => { settings with nameStem := value }
  | .drainTimeout, value => { settings with drainTimeout := value }
  | .pollInterval, value => { settings with pollInterval := value }
  | .stackSize, value => { settings with stackSize := value }

/-- A value that was put is there. -/
@[simp] theorem get_put (settings : Settings) (field : Field) (value : field.Kind) :
    (settings.put field value).get field = value := by
  cases field <;> rfl

/-- Other settings are not changed by what was put. -/
@[simp] theorem get_put_other (settings : Settings) {field other : Field} (apart : other ≠ field)
    (value : field.Kind) :
    (settings.put field value).get other = settings.get other := by
  cases field <;> cases other <;> first | rfl | exact absurd rfl apart

end Settings

namespace Change

/-- The setting that a change is about. -/
def field : Change → Field
  | .nameStem _ => .nameStem
  | .drainTimeout .. => .drainTimeout
  | .pollInterval .. => .pollInterval
  | .stackSize _ => .stackSize

/-- The value that a change asks for, unless it is too long a span. -/
def value? : (change : Change) → Option change.field.Kind
  | .nameStem stem => some stem
  | .drainTimeout seconds nanos => Span.ofParts? seconds.toNat nanos.toNat
  | .pollInterval seconds nanos => Span.ofParts? seconds.toNat nanos.toNat
  | .stackSize bytes => some (some bytes)

/-- Whether a text is the value that a change asks for, as it asks for it. -/
def IsWritten : Change → List Char → Prop
  | .nameStem stem, text => IsLiteral text stem
  | .drainTimeout seconds nanos, text => IsParts text seconds.toNat nanos.toNat
  | .pollInterval seconds nanos, text => IsParts text seconds.toNat nanos.toNat
  | .stackSize bytes, text => IsDecimal UInt64.size text bytes.toNat

/-- The last change of a setting, if there is one. -/
def lastOf (changes : List Change) (field : Field) : Option Change :=
  (changes.filter (·.field = field)).getLast?

/-- A change puts the value that it asks for, and is impossible if there is no such value. -/
theorem perform?_eq (change : Change) (settings : Settings) :
    change.perform? settings = change.value?.map (settings.put change.field) := by
  cases change <;> rfl

/-- Whether a change is possible does not depend on the settings that it changes. -/
theorem perform?_eq_none {change : Change} {settings : Settings} :
    change.perform? settings = none ↔ change.value? = none := by
  rw [perform?_eq, Option.map_eq_none_iff]

/-- One more change is the last one of its own setting, and no change of any other. -/
theorem lastOf_concat (changes : List Change) (change : Change) (field : Field) :
    lastOf (changes ++ [change]) field = if change.field = field then some change
      else lastOf changes field := by
  by_cases same : change.field = field <;> simp [lastOf, List.filter_append, same]

/-- A text for the value that a change asks for stands for the value that the change puts. -/
theorem IsWritten.means {change : Change} {text : List Char} {value : change.field.Kind}
    (written : change.IsWritten text) (asked : change.value? = some value) :
    change.field.Means text value := by
  -- What is written for a span are its parts, and their sum is asked for.
  cases change with
  | nameStem stem =>
    cases asked
    exact written
  | drainTimeout seconds nanos => exact IsParts.isSpan written asked
  | pollInterval seconds nanos => exact IsParts.isSpan written asked
  | stackSize bytes =>
    cases asked
    exact .inr ⟨bytes.toNat, written, by rw [UInt64.ofNat_toNat]⟩

/-- There is a text for the value that a change asks for. -/
theorem exists_written (change : Change) : ∃ text, change.IsWritten text := by
  cases change with
  | nameStem stem => exact ⟨_, isLiteral_literal stem⟩
  | drainTimeout seconds nanos => exact exists_parts seconds.toNat_lt_size nanos.toNat_lt_size
  | pollInterval seconds nanos => exact exists_parts seconds.toNat_lt_size nanos.toNat_lt_size
  | stackSize bytes => exact ⟨_, bytes.toNat_lt_size, rfl⟩

end Change

namespace Settings

open Change (lastOf)

/--
After some changes, a setting that none of them is about is what it was, and any other is what
its last change asks for.

It is no matter what other changes ask for, or whether they are possible.
-/
theorem get_change (settings : Settings) (changes : List Change) (field : Field) :
    (lastOf changes field = none ∧ (settings.change changes).get field = settings.get field) ∨
    ∃ change, lastOf changes field = some change ∧ change.field = field ∧
      ∀ value, change.value? = some value → (settings.change changes).get change.field = value := by
  -- The induction takes the last change off, which is about this setting or about another one.
  induction changes using List.reverseRecOn with
  | nil => exact .inl ⟨rfl, rfl⟩
  | append_singleton changes change ih =>
    have step : settings.change (changes ++ [change]) =
        (change.perform? (settings.change changes)).getD (settings.change changes) := by
      simp [Settings.change]
    rw [step, Change.lastOf_concat, Change.perform?_eq]
    by_cases same : change.field = field
    · rw [if_pos same]
      refine .inr ⟨change, rfl, same, fun value asked => ?_⟩
      simp [asked]
    · rw [if_neg same]
      have kept : (((change.value?.map ((settings.change changes).put change.field)).getD
          (settings.change changes)).get field) = (settings.change changes).get field := by
        cases change.value? with
        | none => rfl
        | some value => exact get_put_other _ (Ne.symm same) value
      rcases ih with ⟨none, unchanged⟩ | ⟨last, found, about, asks⟩
      · exact .inl ⟨none, kept.trans unchanged⟩
      · subst about
        exact .inr ⟨last, found, rfl, fun value asked => kept.trans (asks value asked)⟩

/-! Documents of changes. -/

/--
Whether some members write down changes.

A setting that no change is about has no member, and any other has one, with the value that its last
change asks for. There are no other members.
-/
structure Records (changes : List Change) (members : List (String × List Char)) : Prop where
  keys : ∀ member ∈ members, ∃ field : Field, member.1 = field.key
  values : ∀ field : Field,
    (lastOf changes field = none ∧ field.written members = []) ∨
    ∃ change text, lastOf changes field = some change ∧ change.IsWritten text ∧
      field.written members = [text]

/--
Whether a text is an object between blanks that writes down the last change
of each setting, in any order.
-/
def IsRecord (changes : List Change) (text : List Char) : Prop :=
  ∃ before object after members, Gap before ∧ Gap after ∧ Records changes members ∧
    IsObject members object ∧
    text = before ++ (object ++ after)

variable {changes : List Change} {members : List (String × List Char)}

/-- Members that write down possible changes give the settings after those changes. -/
theorem Records.gives (records : Records changes members)
    (possible : ∀ field change, lastOf changes field = some change → change.value? ≠ none) :
    Gives members (default.change changes) := by
  refine ⟨fun member inside others => ?_, fun field => ?_⟩
  · obtain ⟨field, same⟩ := records.keys member inside
    exact absurd same (others field)
  · rcases get_change default changes field with ⟨none, same⟩ | ⟨change, last, rfl, asks⟩
    · -- Without a change there is no member.
      rcases records.values field with ⟨-, empty⟩ | ⟨change, text, last, -, -⟩
      · exact .inl ⟨empty, same⟩
      · rw [none] at last
        cases last
    · rcases records.values change.field with ⟨none, -⟩ | ⟨other, text, again, written, alone⟩
      · rw [none] at last
        cases last
      · obtain rfl : other = change := Option.some.inj (again.symm.trans last)
        obtain ⟨value, asked⟩ := Option.ne_none_iff_exists'.mp (possible _ other last)
        exact .inr ⟨text, alone, asks value asked ▸ written.means asked⟩

/-- There are members that write down some changes, in the order of the settings. -/
theorem exists_records (changes : List Change) : ∃ members, Records changes members := by
  choose text written using Change.exists_written
  let made (fields : List Field) : List (String × List Char) :=
    fields.filterMap fun field => (lastOf changes field).map fun change => (field.key, text change)
  -- A setting has no member but the one that was made for it.
  have own (field : Field) (fields : List Field) (once : fields.Nodup) :
    field.written (made fields) =
      if field ∈ fields then ((lastOf changes field).map text).toList else [] := by
    induction fields with
    | nil => rfl
    | cons other fields ih =>
      obtain ⟨fresh, once⟩ := List.nodup_cons.mp once
      have rest := ih once
      cases last : lastOf changes other with
      | none =>
        have same : made (other :: fields) = made fields := by simp [made, last]
        rw [same, rest]
        by_cases about : field = other
        · subst about
          simp [fresh, last]
        · simp [about]
      | some change =>
        have same : made (other :: fields) = (other.key, text change) :: made fields := by
          simp [made, last]
        rw [same]
        by_cases about : field = other
        · subst about
          rw [Field.written_key, rest]
          simp [fresh, last]
        · rw [Field.written_other (fun keys => about (Field.key_injective keys).symm), rest]
          simp [about]
  refine ⟨made Field.all, fun member inside => ?_, fun field => ?_⟩
  · obtain ⟨field, -, found⟩ := List.mem_filterMap.mp inside
    obtain ⟨change, -, rfl⟩ := Option.map_eq_some_iff.mp found
    exact ⟨field, rfl⟩
  · have alone := own field Field.all (by decide)
    rw [if_pos (by cases field <;> decide)] at alone
    cases last : lastOf changes field with
    | none => exact .inl ⟨rfl, by rw [alone, last]; rfl⟩
    | some change => exact .inr ⟨change, text change, rfl, written change, by rw [alone, last]; rfl⟩

/-- Settings are read from a record of possible changes as they are after those changes. -/
theorem IsRecord.read {text : List Char} (record : IsRecord changes text)
    (possible : ∀ field change, lastOf changes field = some change → change.value? ≠ none) :
    read text = .ok (default.change changes) := by
  obtain ⟨before, object, after, members, free, blank, records, listed, rfl⟩ := record
  apply read_eq_ok.mpr
  exact ⟨before, object, after, free, blank, ⟨members, records.gives possible, .inl listed⟩, rfl⟩

/-- The only member that writes down a single change has the key of its setting. -/
theorem Records.single {change : Change} (records : Records [change] members) :
    ∃ text, change.IsWritten text ∧ members = [(change.field.key, text)] := by
  have last (field : Field) : lastOf [change] field = if change.field =
    field then some change else none :=
    Change.lastOf_concat [] change field
  -- No member is about another setting.
  have about : ∀ member ∈ members, member.1 = change.field.key := by
    intro member inside
    obtain ⟨field, same⟩ := records.keys member inside
    by_cases own : change.field = field
    · rw [own, same]
    · rcases records.values field with ⟨-, empty⟩ | ⟨other, -, found, -, -⟩
      · have there : member.2 ∈ field.written members :=
          List.mem_map_of_mem (List.mem_filter.mpr ⟨inside, by simpa using same⟩)
        rw [empty] at there
        cases there
      · rw [last, if_neg own] at found
        cases found
  rcases records.values change.field with ⟨none, -⟩ | ⟨other, text, found, written, alone⟩
  · rw [last, if_pos rfl] at none
    cases none
  · rw [last, if_pos rfl] at found
    cases found
    rw [Field.written, List.filter_eq_self.mpr (by simpa using about)] at alone
    obtain ⟨member, rfl, rfl⟩ := List.map_eq_singleton_iff.mp alone
    exact ⟨member.2, written, by rw [← about member List.mem_cons_self]⟩

/-- The value of an impossible change is not read, and the fault is that its span is too long. -/
theorem readField_tooLong {change : Change} {gap text : List Char} (blank : Gap gap)
    (written : change.IsWritten text) (impossible : change.value? = none) (given : Given)
    (rest : List Char) :
    ∃ fault, readField given change.field (gap ++ (text ++ rest)) = .error fault ∧
      fault.cause = .spanTooLong := by
  -- Only spans can be impossible.
  cases change with
  | nameStem stem => cases impossible
  | stackSize bytes => cases impossible
  | drainTimeout seconds nanos =>
    obtain ⟨fault, failed, told⟩ := readSpan_tooLong blank written impossible rest
    exact ⟨fault, by simp [Change.field, readField, failed, mapRead], told⟩
  | pollInterval seconds nanos =>
    obtain ⟨fault, failed, told⟩ := readSpan_tooLong blank written impossible rest
    exact ⟨fault, by simp [Change.field, readField, failed, mapRead], told⟩

/-- A record of an impossible change is not read, and the fault is that its span is too long. -/
theorem IsRecord.tooLong {change : Change} {text : List Char} (record : IsRecord [change] text)
    (impossible : change.value? = none) :
    ∃ fault, Settings.read text = .error fault ∧ fault.cause = .spanTooLong := by
  obtain ⟨before, _, after, members, free, blank, records, ⟨inner, listed, rfl⟩, rfl⟩ := record
  obtain ⟨value, written, rfl⟩ := records.single
  obtain ⟨lead, member, more, front, ⟨literal, left, right, spelled, colon, behind, rfl⟩, -, rfl⟩ :=
    listed
  -- The value of the only member fails, so what stands behind it does not matter.
  obtain ⟨fault, failed, told⟩ :=
    readField_tooLong behind written impossible .nothing (more ++ '\x7d' :: after)
  refine ⟨fault, ?_, told⟩
  have reached :
    nextKey true
      (lead ++ (literal ++ (left ++ ':' :: (right ++ (value ++ (more ++ '\x7d' :: after)))))) =
      .ok (some change.field.key, left ++ ':' :: (right ++ (value ++ (more ++ '\x7d' :: after)))) :=
    nextKey_eq_some.mpr ⟨lead, literal, front, spelled, rfl⟩
  have passed : readMember .nothing change.field.key
    (left ++ ':' :: (right ++ (value ++ (more ++ '\x7d' :: after)))) =
      .error fault := by
    simp only [readMember, Field.ofKey?_key, Given.has_eq, Given.get_nothing,
      Option.isSome_none, if_false, Bool.false_eq_true]
    rw [readAfterColon, readColon_eq_ok.mpr ⟨left, colon, rfl⟩]
    exact failed
  have broken : readMembers .nothing true
      (lead ++ (literal ++ (left ++ ':' :: (right ++ (value ++ (more ++ '\x7d' :: after)))))) =
      .error fault := by
    rw [walks_settings.turn, reached]
    simp only [passed]
  rw [Settings.read, List.cons_append, readFront, readBracketed_object free]
  simp [broken]

/--
Changes agree with the documents that record them.

Each list of changes has a record. If no change that the record keeps asks for too long a span,
it is parsed as the settings that the changes build from the defaults,
and a pool accepts the settings just if it accepts the document, with the same failure otherwise.
A single change is impossible just if its records are refused because a span is too long.
-/
theorem changes_agree_with_their_record :
    (∀ changes, ∃ text : String, IsRecord changes text.toList) ∧
      (∀ changes (text : String), IsRecord changes text.toList →
        (∀ field change, lastOf changes field = some change → change.perform? default ≠ none) →
          parse text = .ok (default.change changes) ∧
            ∀ number sink, Pool.ofSettings number (default.change changes) sink =
              (ofJson text).map (Pool.fresh number · sink)) ∧
      ∀ change (text : String) settings, IsRecord [change] text.toList →
        (change.perform? settings = none ↔
          ∃ line column : Nat, parse text = .error (.setting "json"
            ("overflow deserializing Duration at line " ++ toString line ++ " column " ++
              toString column))) := by
  have parsed (changes : List Change) (text : String) (record : IsRecord changes text.toList)
      (possible : ∀ field change, lastOf changes field = some change →
        change.perform? default ≠ none) :
      parse text = .ok (default.change changes) := by
    have found := record.read fun field change last none =>
      possible field change last (Change.perform?_eq_none.mpr none)
    rw [parse, found]
    rfl
  refine ⟨fun changes => ?_, fun changes text record possible => ?_,
    fun change text settings record => ?_⟩
  · -- A record exists, since every key and every value can be written.
    obtain ⟨members, records⟩ := exists_records changes
    obtain ⟨inner, listed⟩ := exists_listing true members
    have empty : Gap [] := List.forall_mem_nil _
    exact ⟨.ofList _, [], _, [], members, empty, empty, records, ⟨inner, listed, rfl⟩,
      String.toList_ofList⟩
  · have same := parsed changes text record possible
    refine ⟨same, fun number sink => ?_⟩
    rw [ofJson, same]
    rfl
  · constructor
    · intro impossible
      -- A span that is too long is refused where its value ends.
      obtain ⟨fault, failed, told⟩ := record.tooLong (Change.perform?_eq_none.mp impossible)
      refine ⟨(lineColumn 1 0 text.toList (fault.index text.toList)).1,
        (lineColumn 1 0 text.toList (fault.index text.toList)).2, ?_⟩
      rw [parse, failed, Except.mapError, Fault.describe, told]
      rfl
    · rintro ⟨line, column, refused⟩
      by_contra possible
      have same := parsed [change] text record fun field other last => by
        have member : other ∈ [change] := List.mem_of_mem_filter (List.mem_of_getLast? last)
        obtain rfl := List.mem_singleton.mp member
        exact fun none => possible (Change.perform?_eq_none.mpr (Change.perform?_eq_none.mp none))
      rw [same] at refused
      cases refused

/-- A change that asks for too long a span. -/
def excess : Change := .drainTimeout 18446744073709551615 1000000000

/--
An excessive change that a later one overrules is not recorded, and a record of it alone is refused.
-/
theorem overruled_change_is_not_recorded :
    IsRecord [excess, .nameStem "W", .drainTimeout 2 1500000000]
        "\x7b\"drain_timeout\":[2,1500000000], \"worker_name_prefix\":\"W\"\x7d".toList ∧
      parse "\x7b\"drain_timeout\":[2,1500000000], \"worker_name_prefix\":\"W\"\x7d" =
        .ok { default with nameStem := "W", drainTimeout := ⟨3, 500000000⟩ } ∧
      IsRecord [excess] "\x7b\"drain_timeout\":[18446744073709551615,1000000000]\x7d".toList ∧
      ∃ line column : Nat, parse "\x7b\"drain_timeout\":[18446744073709551615,1000000000]\x7d" =
        .error (.setting "json"
          ("overflow deserializing Duration at line " ++ toString line ++ " column " ++
            toString column)) := by
  have empty : Gap [] := List.forall_mem_nil _
  have timeoutKey : IsLiteral "\"drain_timeout\"".toList "drain_timeout" :=
    isLiteral_literal "drain_timeout"
  have stemKey : IsLiteral "\"worker_name_prefix\"".toList "worker_name_prefix" :=
    isLiteral_literal "worker_name_prefix"
  have timeout (text : List Char) : IsMember ("drain_timeout", text)
      ("\"drain_timeout\":".toList ++ text) :=
    ⟨_, [], [], timeoutKey, empty, empty, by simp⟩
  have stem (text : List Char) : IsMember ("worker_name_prefix", text)
      ("\"worker_name_prefix\":".toList ++ text) :=
    ⟨_, [], [], stemKey, empty, empty, by simp⟩
  have comma : IsLead false ", ".toList := ⟨[], [' '], empty, by simp [Gap, isBlank], rfl⟩
  have both : IsRecord [excess, .nameStem "W", .drainTimeout 2 1500000000]
      "\x7b\"drain_timeout\":[2,1500000000], \"worker_name_prefix\":\"W\"\x7d".toList := by
    have parts : IsParts "[2,1500000000]".toList 2 1500000000 :=
      ⟨_, _, ⟨by decide, rfl⟩, ⟨by decide, rfl⟩, .inr (isList_pair _ _)⟩
    have listed : Listing IsMember true
        [("drain_timeout", "[2,1500000000]".toList), ("worker_name_prefix", "\"W\"".toList)]
        "\"drain_timeout\":[2,1500000000], \"worker_name_prefix\":\"W\"".toList :=
      ⟨[], _, _, empty, timeout _, ⟨_, _, [], comma, stem _, empty, rfl⟩, by simp⟩
    have object : IsObject [("drain_timeout", "[2,1500000000]".toList),
      ("worker_name_prefix", "\"W\"".toList)]
        "\x7b\"drain_timeout\":[2,1500000000], \"worker_name_prefix\":\"W\"\x7d".toList :=
          ⟨_, listed, by simp⟩
    refine ⟨[], _, [], _, empty, empty, ⟨fun member inside => ?_, fun field => ?_⟩, object,
      (List.append_nil _).symm⟩
    · -- Two members stand in the text, and the first change is not one of them.
      rcases List.mem_cons.mp inside with rfl | later
      · exact ⟨.drainTimeout, rfl⟩
      · obtain rfl := List.mem_singleton.mp later
        exact ⟨.nameStem, rfl⟩
    · cases field with
      | nameStem => exact .inr ⟨_, _, rfl, isLiteral_literal "W", rfl⟩
      | drainTimeout => exact .inr ⟨_, _, rfl, parts, rfl⟩
      | pollInterval => exact .inl ⟨rfl, rfl⟩
      | stackSize => exact .inl ⟨rfl, rfl⟩
  have alone :
      IsRecord [excess] "\x7b\"drain_timeout\":[18446744073709551615,1000000000]\x7d".toList := by
    have parts : IsParts "[18446744073709551615,1000000000]".toList
        18446744073709551615 1000000000 :=
      ⟨_, _, ⟨by decide, rfl⟩, ⟨by decide, rfl⟩, .inr (isList_pair _ _)⟩
    have listed : Listing IsMember true
      [("drain_timeout", "[18446744073709551615,1000000000]".toList)]
        "\"drain_timeout\":[18446744073709551615,1000000000]".toList :=
      ⟨[], _, [], empty, timeout _, empty, by simp⟩
    have object : IsObject [("drain_timeout", "[18446744073709551615,1000000000]".toList)]
        "\x7b\"drain_timeout\":[18446744073709551615,1000000000]\x7d".toList := ⟨_, listed, by simp⟩
    refine ⟨[], _, [], _, empty, empty, ⟨fun member inside => ?_, fun field => ?_⟩, object,
      (List.append_nil _).symm⟩
    · obtain rfl := List.mem_singleton.mp inside
      exact ⟨.drainTimeout, rfl⟩
    · cases field with
      | drainTimeout => exact .inr ⟨_, _, rfl, parts, rfl⟩
      | nameStem => exact .inl ⟨rfl, rfl⟩
      | pollInterval => exact .inl ⟨rfl, rfl⟩
      | stackSize => exact .inl ⟨rfl, rfl⟩
  have possible : ∀ field change, lastOf [excess, .nameStem "W", .drainTimeout 2 1500000000]
    field = some change →
      change.perform? default ≠ none := by
    intro field change last
    cases field <;> cases last <;> decide
  exact ⟨both, (changes_agree_with_their_record.2.1 _ _ both possible).1, alone,
    (changes_agree_with_their_record.2.2 excess _ default alone).mp (by decide)⟩

end Settings

end TaskPool
