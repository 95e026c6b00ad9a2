import Mathlib.Logic.Relation
import TaskPool.Proofs.Json.Shape
import TaskPool.Proofs.Settings.Described

/-!
A document for settings may be written in another way, and is parsed as the same settings.

What a document says depends on its shape only, and on that only through what
is said about each setting.
-/

namespace TaskPool

namespace Json

namespace Shape

/--
Whether a text is written for a member: it has the same key, and the text
of its value has the shape.
-/
def Lays (member : String × Shape) (text : String × List Char) : Prop :=
  member.1 = text.1 ∧ member.2.Fits text.2

/-- Members whose keys are strings. -/
def named (members : List (String × Shape)) : List (List Nat × Shape) :=
  members.map fun member => (units member.1, member.2)

/-- Members whose values are words or numbers. -/
def scalars (members : List (String × List Char)) : List (String × Shape) :=
  members.map fun member => (member.1, .scalar member.2)

/-- Members whose keys are strings are listed just where texts for them are. -/
theorem membersFit_named {members : List (String × Shape)} {first : Bool} {inner : List Char} :
    MembersFit first (named members) inner ↔
      ∃ texts, List.Forall₂ Lays members texts ∧ Listing IsMember first texts inner := by
  -- The induction is on the members, each of which takes the next entry of the listing.
  induction members generalizing first inner with
  | nil =>
    constructor
    · intro blank
      exact ⟨[], .nil, blank⟩
    · rintro ⟨texts, laid, listed⟩
      cases laid
      exact listed
  | cons member members ih =>
    obtain ⟨key, shape⟩ := member
    constructor
    · -- A key that is spelled by the units of a string is a literal for it.
      rintro ⟨lead, spelling, before, after, written, rest, front, codes, free, blank,
        fits, more, rfl⟩
      obtain ⟨texts, laid, listed⟩ := ih.mp more
      have literal : IsLiteral ('"' :: (spelling ++ ['"'])) key :=
        isLiteral_iff_codes.mpr ⟨spelling, codes, rfl⟩
      exact ⟨(key, written) :: texts, .cons ⟨rfl, fits⟩ laid, lead, _, rest, front,
        ⟨_, before, after, literal, free, blank, rfl⟩, listed, by simp⟩
    · -- The literal of a key spells the units of the key, since the two keys are the same string.
      rintro ⟨_, pairs, listed⟩
      obtain ⟨text, texts, ⟨same, fits⟩, laid, rfl⟩ := List.forall₂_cons_left_iff.mp pairs
      obtain ⟨lead, _, rest, front, ⟨literal, before, after, known, free, blank, rfl⟩, listed,
        rfl⟩ := listed
      obtain ⟨spelling, codes, rfl⟩ := isLiteral_iff_codes.mp known
      rw [← same] at codes
      exact ⟨lead, spelling, before, after, text.2, rest, front, codes, free, blank, fits,
        ih.mpr ⟨texts, laid, listed⟩, by simp⟩

/-- Items are listed just where texts for them are. -/
theorem itemsFit_iff {items : List Shape} {first : Bool} {inner : List Char} :
    ItemsFit first items inner ↔
      ∃ texts, List.Forall₂ Fits items texts ∧
        Listing (fun item written => written = item) first texts inner := by
  -- As for members, but for the keys.
  induction items generalizing first inner with
  | nil =>
    constructor
    · intro blank
      exact ⟨[], .nil, blank⟩
    · rintro ⟨texts, laid, listed⟩
      cases laid
      exact listed
  | cons item items ih =>
    constructor
    · rintro ⟨lead, written, rest, front, fits, more, rfl⟩
      obtain ⟨texts, laid, listed⟩ := ih.mp more
      exact ⟨written :: texts, .cons fits laid, lead, written, rest, front, rfl, listed, rfl⟩
    · rintro ⟨_, pairs, listed⟩
      obtain ⟨text, texts, fits, laid, rfl⟩ := List.forall₂_cons_left_iff.mp pairs
      obtain ⟨lead, written, rest, front, rfl, listed, rfl⟩ := listed
      exact ⟨lead, written, rest, front, fits, ih.mpr ⟨texts, laid, listed⟩, rfl⟩

/-- An object has the shape of its members just if it is made of texts for them. -/
theorem fits_object {members : List (String × Shape)} {text : List Char} :
    (Shape.object (named members)).Fits text ↔ ∃ texts, List.Forall₂ Lays members texts ∧
      IsObject texts text := by
  -- The brackets are the same on both sides, so only the members are to be compared.
  constructor
  · rintro ⟨inner, fits, rfl⟩
    obtain ⟨texts, laid, listed⟩ := membersFit_named.mp fits
    exact ⟨texts, laid, inner, listed, rfl⟩
  · rintro ⟨texts, laid, inner, listed, rfl⟩
    exact ⟨inner, membersFit_named.mpr ⟨texts, laid, listed⟩, rfl⟩

/-- A list has the shape of its items just if it is made of texts for them. -/
theorem fits_list {items : List Shape} {text : List Char} :
    (Shape.list items).Fits text ↔ ∃ texts, List.Forall₂ Fits items texts ∧ IsList texts text := by
  -- Here as well the brackets are the same on both sides.
  constructor
  · rintro ⟨inner, fits, rfl⟩
    obtain ⟨texts, laid, listed⟩ := itemsFit_iff.mp fits
    exact ⟨texts, laid, inner, listed, rfl⟩
  · rintro ⟨texts, laid, inner, listed, rfl⟩
    exact ⟨inner, itemsFit_iff.mpr ⟨texts, laid, listed⟩, rfl⟩

/-- The digits of a number have their own shape. -/
theorem fits_decimal {limit n : Nat} {text : List Char} (decimal : IsDecimal limit text n) :
    (Shape.scalar text).Fits text := by
  obtain ⟨-, rfl⟩ := decimal
  -- A numeral without leading zeros is a whole number with neither fraction nor exponent.
  have whole : IsWhole (Nat.toDigits 10 n) := by
    refine ⟨⟨Nat.toDigits_ne_nil, isDigit_toDigits⟩, fun zero => ?_⟩
    rcases Nat.eq_zero_or_pos n with rfl | positive
    · rfl
    · obtain ⟨c, rest, front, other⟩ := toDigits_head positive
      rw [front] at zero
      exact absurd (Option.some.inj zero) other
  exact ⟨.inr ⟨_, ⟨_, [], [], whole, .inl rfl, .inl rfl, by simp⟩, .inl rfl⟩, rfl⟩

/-- Values that are numbers are laid out as themselves, and not otherwise. -/
theorem laid_scalars {members texts : List (String × List Char)}
    (numbers : ∀ member ∈ members, (Shape.scalar member.2).Fits member.2) :
    List.Forall₂ Lays (scalars members) texts ↔ texts = members := by
  -- A number is its own shape, so the texts are found one after the other.
  induction members generalizing texts with
  | nil => simp [scalars]
  | cons member members ih =>
    obtain ⟨number, numbers⟩ := List.forall_mem_cons.mp numbers
    have rest (texts : List (String × List Char)) : List.Forall₂ Lays (scalars members) texts ↔
      texts = members :=
      ih numbers
    rw [scalars, List.map_cons, List.forall₂_cons_left_iff]
    constructor
    · rintro ⟨text, texts, ⟨key, -, same⟩, laid, rfl⟩
      rw [(rest texts).mp laid, Prod.ext key.symm same]
    · rintro rfl
      exact ⟨member, members, ⟨rfl, number⟩, (rest members).mpr rfl, rfl⟩

section
variable {whole part text : List Char} {seconds nanos : Nat} {members : List (String × List Char)}
  {span : Span}

/-- The two parts of a span make an object just as their shapes do. -/
theorem fits_objectOfParts (one : IsDecimal UInt64.size whole seconds)
    (two : IsDecimal UInt32.size part nanos)
    (same : members.Perm [("secs", whole), ("nanos", part)]) :
    (Shape.object (named (scalars members))).Fits text ↔ IsObject members text := by
  -- In whatever order they come, both members are numbers.
  have numbers : ∀ member ∈ members, (Shape.scalar member.2).Fits member.2 := by
    intro member inside
    have either := same.mem_iff.mp inside
    simp only [List.mem_cons, List.not_mem_nil, or_false] at either
    rcases either with rfl | rfl
    · exact fits_decimal one
    · exact fits_decimal two
  simp [fits_object, laid_scalars numbers]

/-- The two parts of a span make a list just as their shapes do. -/
theorem fits_listOfParts (one : IsDecimal UInt64.size whole seconds)
    (two : IsDecimal UInt32.size part nanos) :
    (Shape.list [.scalar whole, .scalar part]).Fits text ↔ IsList [whole, part] text := by
  rw [fits_list]
  -- There are just two items, and each text is the number that it has as its shape.
  constructor
  · rintro ⟨texts, laid, listed⟩
    obtain ⟨first, rest, ⟨-, rfl⟩, others, rfl⟩ := List.forall₂_cons_left_iff.mp laid
    obtain ⟨second, rest, ⟨-, rfl⟩, none, rfl⟩ := List.forall₂_cons_left_iff.mp others
    cases none
    exact listed
  · intro listed
    exact ⟨_, .cons (fits_decimal one) (.cons (fits_decimal two) .nil), listed⟩

/-- Whether a shape is that of a span, as an object of its two parts or as a list of them. -/
def IsSpan (shape : Shape) (span : Span) : Prop :=
  ∃ seconds nanos whole part, IsDecimal UInt64.size whole seconds ∧
    IsDecimal UInt32.size part nanos ∧
    span.toNanos = seconds * 1000000000 + nanos ∧
    ((∃ members, members.Perm (named (scalars [("secs", whole), ("nanos", part)])) ∧
      shape = .object members) ∨
      shape = .list [.scalar whole, .scalar part])

/-- A text that stands for a span has the shape of the span. -/
theorem exists_isSpan (means : Json.IsSpan text span) :
    ∃ shape : Shape, shape.Fits text ∧ shape.IsSpan span := by
  -- The parts are numbers, so the shape follows the form in which they were given.
  obtain ⟨seconds, nanos, whole, part, one, two, long, ⟨members, same, made⟩ | made⟩ := means
  · exact ⟨_, (fits_objectOfParts one two same).mpr made, seconds, nanos, whole, part,
      one, two, long, .inl ⟨_, (same.map _).map _, rfl⟩⟩
  · exact ⟨_, (fits_listOfParts one two).mpr made, seconds, nanos, whole, part, one, two,
      long, .inr rfl⟩

/-- A text with the shape of a span stands for the span. -/
theorem IsSpan.means {shape : Shape} (fits : shape.Fits text) (known : shape.IsSpan span) :
    Json.IsSpan text span := by
  -- The shape says in which of the two forms the parts were given.
  obtain ⟨seconds, nanos, whole, part, one, two, long, ⟨members, same, rfl⟩ | rfl⟩ := known
  · refine ⟨seconds, nanos, whole, part, one, two, long, .inl ?_⟩
    -- There are two orders of the two parts.
    obtain rfl | rfl := List.perm_pair.mp same
    · exact ⟨_, .refl _, (fits_objectOfParts one two (.refl _)).mp fits⟩
    · exact ⟨[("nanos", part), ("secs", whole)], .swap ..,
        (fits_objectOfParts one two (.swap ..)).mp fits⟩
  · exact ⟨seconds, nanos, whole, part, one, two, long, .inr ((fits_listOfParts one two).mp fits)⟩

end

end Shape

end Json

namespace Settings

open Json

/-- Whether a shape stands for the value of a setting. -/
def Field.Denotes : (field : Field) → Shape → field.Kind → Prop
  | .nameStem, shape, stem => shape = .string (units stem)
  | .drainTimeout, shape, span => shape.IsSpan span
  | .pollInterval, shape, span => shape.IsSpan span
  | .stackSize, shape, size =>
    (shape = .scalar "null".toList ∧ size = none) ∨
      ∃ n text, IsDecimal UInt64.size text n ∧ shape = .scalar text ∧ size = some (.ofNat n)

/-- A text that stands for the value of a setting has a shape that does. -/
theorem exists_denotes {field : Field} {text : List Char} {value : field.Kind}
    (means : field.Means text value) :
    ∃ shape : Shape, shape.Fits text ∧ field.Denotes shape value := by
  -- What may be written for a value depends on its setting, and so does the shape of it.
  cases field with
  | nameStem => exact ⟨.string (units value), isLiteral_iff_codes.mp means, rfl⟩
  | drainTimeout => exact Shape.exists_isSpan means
  | pollInterval => exact Shape.exists_isSpan means
  | stackSize =>
    rcases means with ⟨rfl, rfl⟩ | ⟨n, decimal, rfl⟩
    · exact ⟨.scalar "null".toList, ⟨.inl (by decide), rfl⟩, .inl ⟨rfl, rfl⟩⟩
    · exact ⟨_, Shape.fits_decimal decimal, .inr ⟨n, text, decimal, rfl, rfl⟩⟩

/-- A text stands for the value of a setting just if its shape does. -/
theorem means_iff_denotes {field : Field} {shape : Shape} {text : List Char} {value : field.Kind}
    (fits : shape.Fits text) : field.Means text value ↔ field.Denotes shape value := by
  constructor
  · -- The text has one shape only, so it is the shape that stands for the value.
    intro means
    obtain ⟨other, again, denotes⟩ := exists_denotes means
    rwa [Shape.fits_unique fits again]
  · -- Each kind of value is read back from its shape.
    intro denotes
    cases field with
    | nameStem =>
      obtain rfl := denotes
      exact isLiteral_iff_codes.mpr fits
    | drainTimeout => exact Shape.IsSpan.means fits denotes
    | pollInterval => exact Shape.IsSpan.means fits denotes
    | stackSize =>
      rcases denotes with ⟨rfl, rfl⟩ | ⟨n, written, decimal, rfl, rfl⟩
      · exact .inl ⟨fits.2, rfl⟩
      · obtain ⟨-, rfl⟩ := fits
        exact .inr ⟨n, decimal, rfl⟩

/-! Documents. -/

/-- The shape of a document for settings: an object whose keys are strings, or a list. -/
inductive Document where
  | object (members : List (String × Shape))
  | list (items : List Shape)

/-- The shape of a whole document. -/
def Document.shape : Document → Shape
  | .object members => .object (Shape.named members)
  | .list items => .list items

/-- Whether a text is written for a document, perhaps with blanks around it. -/
def Document.Fits (document : Document) (text : List Char) : Prop :=
  ∃ before inner after, Gap before ∧ Gap after ∧ document.shape.Fits inner ∧
    text = before ++ (inner ++ after)

/-- No blanks are needed around a document. -/
theorem Document.fits_of_shape {document : Document} {text : List Char}
    (fits : document.shape.Fits text) :
    document.Fits text :=
  ⟨[], text, [], List.forall_mem_nil _, List.forall_mem_nil _, fits, (List.append_nil _).symm⟩

/-- The values that some members give under the key of a setting. -/
def Field.found (field : Field) (members : List (String × Shape)) : List Shape :=
  (members.filter fun member => member.1 = field.key).map Prod.snd

/--
Whether an object tells a setting: there is one value at most under its key,
and without one it has its default.
-/
def Field.Tells (field : Field) (members : List (String × Shape)) (value : field.Kind) : Prop :=
  (field.found members = [] ∧ value = default.get field) ∨
    ∃ shape, field.found members = [shape] ∧ field.Denotes shape value

/-- Whether a document gives settings. -/
def Document.Gives : Document → Settings → Prop
  | .object members, settings => ∀ field : Field, field.Tells members (settings.get field)
  | .list items, settings =>
    items.length ≤ Field.all.length ∧
      (∀ pair ∈ Field.all.zip items, pair.1.Denotes pair.2 (settings.get pair.1)) ∧
      ∀ field ∈ Field.all.drop items.length, settings.get field = default.get field

/-- A member for a setting is found in front of those found behind it. -/
theorem Field.found_key (field : Field) (shape : Shape) (members : List (String × Shape)) :
    field.found ((field.key, shape) :: members) = shape :: field.found members := by
  simp [found]

/-- A member with another key is not found. -/
theorem Field.found_other {field : Field} {key : String} (apart : key ≠ field.key) (shape : Shape)
    (members : List (String × Shape)) :
    field.found ((key, shape) :: members) = field.found members := by
  simp [found, apart]

/-- Members are found part by part. -/
theorem Field.found_append (field : Field) (front back : List (String × Shape)) :
    field.found (front ++ back) = field.found front ++ field.found back := by
  simp [found]

/-- Texts that are laid out for members give settings just if the members tell them. -/
theorem gives_iff_tells {members : List (String × Shape)} {texts : List (String × List Char)}
    {settings : Settings} (laid : List.Forall₂ Shape.Lays members texts) :
    Gives texts settings ↔ ∀ field : Field, field.Tells members (settings.get field) := by
  -- Whatever has a shape is a value, so the values of other keys can be passed over.
  have values : ∀ text ∈ texts, IsValue text.2 := by
    clear settings
    induction laid with
    | nil => exact List.forall_mem_nil _
    | cons one _ ih => exact List.forall_mem_cons.mpr ⟨Shape.isValue_of_fits one.2, ih⟩
  -- What is found under a key among the members is laid out in what is written under it.
  have same (field : Field) : List.Forall₂ Shape.Fits (field.found members) (field.written texts) :=
    List.rel_map (fun _ _ one => one.2) (List.rel_filter (fun _ _ one => by simp [one.1]) laid)
  -- So there is nothing in one of the two lists just if there is nothing in the other one,
  -- and a single value just if there is a single one.
  constructor
  · rintro ⟨-, given⟩ field
    have pairs := same field
    rcases given field with ⟨none, value⟩ | ⟨text, alone, means⟩
    · rw [none, List.forall₂_nil_right_iff] at pairs
      exact .inl ⟨pairs, value⟩
    · rw [alone] at pairs
      obtain ⟨shape, rest, fits, none, found⟩ := List.forall₂_cons_right_iff.mp pairs
      rw [List.forall₂_nil_right_iff.mp none] at found
      exact .inr ⟨shape, found, (means_iff_denotes fits).mp means⟩
  · intro told
    refine ⟨fun text inside _ => values text inside, fun field => ?_⟩
    have pairs := same field
    rcases told field with ⟨none, value⟩ | ⟨shape, alone, denotes⟩
    · rw [none, List.forall₂_nil_left_iff] at pairs
      exact .inl ⟨pairs, value⟩
    · rw [alone] at pairs
      obtain ⟨text, rest, fits, none, written⟩ := List.forall₂_cons_left_iff.mp pairs
      rw [List.forall₂_nil_left_iff.mp none] at written
      exact .inr ⟨text, written, (means_iff_denotes fits).mpr denotes⟩

/--
Items in the order of some settings tell these settings one after the other,
and may leave out the last ones.
-/
theorem tells_zip {fields : List Field} (once : fields.Nodup) {items : List Shape}
    {settings : Settings} :
    (∀ field ∈ fields, field.Tells ((fields.map Field.key).zip items) (settings.get field)) ↔
      (∀ pair ∈ fields.zip items, pair.1.Denotes pair.2 (settings.get pair.1)) ∧
        ∀ field ∈ fields.drop items.length, settings.get field = default.get field := by
  -- The induction takes off the first setting with its item.
  induction fields generalizing items with
  | nil => simp
  | cons first fields ih =>
    obtain ⟨fresh, once⟩ := List.nodup_cons.mp once
    cases items with
    | nil => simp [Field.Tells, Field.found]
    | cons item items =>
      -- The first item tells the first setting, and matters for no other one.
      have absent : first.found ((fields.map Field.key).zip items) = [] := by
        simp only [Field.found, List.map_eq_nil_iff, List.filter_eq_nil_iff, decide_eq_true_eq]
        intro member inside same
        obtain ⟨field, there, key⟩ := List.mem_map.mp (List.of_mem_zip inside).1
        rw [Field.key_injective (key.trans same)] at there
        exact fresh there
      have head : first.Tells ((first.key, item) :: (fields.map Field.key).zip items)
        (settings.get first) ↔
          first.Denotes item (settings.get first) := by
        rw [Field.Tells, Field.found_key, absent]
        simp
      have tail : (∀ field ∈ fields,
          field.Tells ((first.key, item) :: (fields.map Field.key).zip items)
            (settings.get field)) ↔
            ∀ field ∈ fields, field.Tells ((fields.map Field.key).zip items)
              (settings.get field) := by
        refine forall₂_congr fun field inside => ?_
        have apart : first.key ≠ field.key := by
          intro same
          rw [Field.key_injective same] at fresh
          exact fresh inside
        rw [Field.Tells, Field.Tells, Field.found_other apart]
      simp only [List.map_cons, List.zip_cons_cons, List.forall_mem_cons, List.length_cons,
        List.drop_succ_cons, head, tail, ih once, and_assoc]

/-- All settings are in the list of all settings. -/
theorem Field.mem_all (field : Field) : field ∈ all := by
  cases field <;> decide

/-- A list gives settings just if its items tell them in their order. -/
theorem Document.gives_list {items : List Shape} {settings : Settings} :
    (Document.list items).Gives settings ↔ items.length ≤ Field.all.length ∧
      ∀ field : Field, field.Tells ((Field.all.map Field.key).zip items) (settings.get field) := by
  rw [Document.Gives, ← tells_zip (by decide)]
  simp [Field.mem_all]

/-- Where each of some texts has something that it is written for, they have them all together. -/
theorem exists_forall₂ {α β : Type} {R : α → β → Prop} {texts : List β}
    (each : ∀ text ∈ texts, ∃ one, R one text) :
    ∃ all, List.Forall₂ R all texts := by
  -- One is chosen for the first text, and then for the others.
  induction texts with
  | nil => exact ⟨[], .nil⟩
  | cons text texts ih =>
    obtain ⟨⟨one, first⟩, each⟩ := List.forall_mem_cons.mp each
    obtain ⟨all, others⟩ := ih each
    exact ⟨one :: all, .cons first others⟩

/-- Items and their texts are laid out alike behind the same keys. -/
theorem laid_zip {items : List Shape} {texts : List (List Char)}
    (laid : List.Forall₂ Shape.Fits items texts) (keys : List String) :
    List.Forall₂ Shape.Lays (keys.zip items) (keys.zip texts) := by
  -- Where the keys run out before the items, both lists end there.
  induction laid generalizing keys with
  | nil => simp
  | cons one _ ih =>
    cases keys with
    | nil => exact .nil
    | cons key keys => exact .cons ⟨rfl, one⟩ (ih keys)

/-- Values of members that give settings have shapes. -/
theorem Gives.exists_fits {members : List (String × List Char)} {settings : Settings}
    (gives : Gives members settings) :
    ∀ member ∈ members, ∃ shape : Shape, shape.Fits member.2 := by
  intro member inside
  -- A value under another key is known to be one, and a value of a setting stands for something.
  by_cases other : ∀ field : Field, member.1 ≠ field.key
  · exact Shape.exists_fits (gives.1 member inside other)
  · obtain ⟨field, same⟩ := not_forall_not.mp other
    have there : member.2 ∈ field.written members :=
      List.mem_map_of_mem (List.mem_filter.mpr ⟨inside, by simpa using same⟩)
    rcases gives.2 field with ⟨none, -⟩ | ⟨text, alone, means⟩
    · rw [none] at there
      cases there
    · rw [alone, List.mem_singleton] at there
      obtain ⟨shape, fits, -⟩ := exists_denotes means
      exact ⟨shape, there ▸ fits⟩

/-- A text that describes settings is written for a document that gives them. -/
theorem exists_document {text : List Char} {settings : Settings}
    (describes : Describes text settings) :
    ∃ document : Document, document.Fits text ∧ document.Gives settings := by
  -- The text is an object or a list; in either case each value has a shape.
  obtain ⟨before, inner, after, free, blank, ⟨members, gives, made | ⟨items, few, rfl, made⟩⟩,
    rfl⟩ := describes
  · have each (member : String × List Char) (inside : member ∈ members) : ∃ one,
        Shape.Lays one member := by
      obtain ⟨shape, fits⟩ := gives.exists_fits member inside
      exact ⟨(member.1, shape), rfl, fits⟩
    obtain ⟨shapes, laid⟩ := exists_forall₂ each
    exact ⟨.object shapes,
      ⟨before, inner, after, free, blank, Shape.fits_object.mpr ⟨members, laid, made⟩, rfl⟩,
      (gives_iff_tells laid).mp gives⟩
  · -- The items are values of settings, which is known of them as members behind
    -- the keys of these settings.
    have all : ((Field.all.map Field.key).zip items).map Prod.snd = items :=
      List.map_snd_zip (by simpa using few)
    have each (item : List Char) (inside : item ∈ items) : ∃ shape : Shape, shape.Fits item := by
      rw [← all] at inside
      obtain ⟨member, there, rfl⟩ := List.mem_map.mp inside
      exact gives.exists_fits member there
    obtain ⟨shapes, laid⟩ := exists_forall₂ each
    exact ⟨.list shapes,
      ⟨before, inner, after, free, blank, Shape.fits_list.mpr ⟨items, laid, made⟩, rfl⟩,
      Document.gives_list.mpr ⟨laid.length_eq ▸ few, (gives_iff_tells (laid_zip laid _)).mp gives⟩⟩

/-- A text that is written for a document describes the settings that the document gives. -/
theorem Document.describes {document : Document} {text : List Char} {settings : Settings}
    (fits : document.Fits text) (gives : document.Gives settings) : Describes text settings := by
  obtain ⟨before, inner, after, free, blank, fits, rfl⟩ := fits
  refine ⟨before, inner, after, free, blank, ?_, rfl⟩
  -- The texts of the members or items are taken from the shape, and say what the shape tells.
  cases document with
  | object members =>
    obtain ⟨texts, laid, made⟩ := Shape.fits_object.mp fits
    exact ⟨texts, (gives_iff_tells laid).mpr gives, .inl made⟩
  | list items =>
    obtain ⟨texts, laid, made⟩ := Shape.fits_list.mp fits
    obtain ⟨few, told⟩ := Document.gives_list.mp gives
    exact ⟨_, (gives_iff_tells (laid_zip laid _)).mpr told,
      .inr ⟨texts, laid.length_eq ▸ few, rfl, made⟩⟩

/-- Documents of one shape are the same. -/
theorem Document.shape_injective : Function.Injective Document.shape := by
  intro document other same
  cases document <;> cases other <;>
    simp only [shape, Shape.object.injEq, Shape.list.injEq, reduceCtorEq] at same
  · -- Members are the same if their keys have the same units and their values the same shape.
    have apart : Function.Injective fun member : String × Shape => (units member.1, member.2) := by
      rintro ⟨key, shape⟩ ⟨other, again⟩ same
      obtain ⟨keys, shapes⟩ := Prod.mk.inj same
      exact Prod.ext (units_injective keys) shapes
    rw [List.map_injective_iff.mpr apart same]
  · rw [same]

/-- A text is written for one document at most. -/
theorem Document.fits_unique {document other : Document} {text : List Char}
    (fits : document.Fits text) (again : other.Fits text) : document = other := by
  obtain ⟨before, inner, after, free, blank, fits, rfl⟩ := fits
  obtain ⟨before', inner', after', free', blank', again, same⟩ := again
  -- Behind the document there are blanks or nothing, where even a number ends.
  have ends {gap : List Char} (blank : Gap gap) : EndsNumber gap := by
    cases gap with
    | nil => simp [EndsNumber]
    | cons c gap => exact .blank (blank c List.mem_cons_self) gap
  have known := Shape.isValue_of_fits fits
  have known' := Shape.isValue_of_fits again
  -- A value begins with no blank, so the blanks in front are the same in both readings.
  obtain ⟨c, more, rfl, visible, opens⟩ := known.head
  obtain ⟨d, more', rfl, visible', opens'⟩ := known'.head
  obtain ⟨-, behind⟩ :=
    @Shape.lead_unique true _ _ _ _ _ _ free free' ⟨visible, opens .list⟩
      ⟨visible', opens' .list⟩ same
  obtain ⟨inner, -⟩ := Shape.value_unique known known' (ends blank) (ends blank') behind
  exact Document.shape_injective (Shape.fits_unique fits (inner ▸ again))

/-- A text is parsed as the settings that are read from it. -/
theorem parse_eq_ok {text : String} {settings : Settings} :
    parse text = .ok settings ↔ Describes text.toList settings := by
  rw [← read_eq_ok, parse]
  cases read text.toList <;> simp [Except.mapError]

/-- A text is parsed as settings just if the document that it is written for gives them. -/
theorem parse_iff_gives {document : Document} {text : String} {settings : Settings}
    (fits : document.Fits text.toList) :
    parse text = .ok settings ↔ document.Gives settings := by
  rw [parse_eq_ok]
  -- The settings give some document for the text, and there is only one.
  constructor
  · intro describes
    obtain ⟨other, again, gives⟩ := exists_document describes
    rwa [Document.fits_unique fits again]
  · exact Document.describes fits

/-! Other ways to write a document down. -/

/-- Whether a document for settings may be replaced by another one, which says the same. -/
inductive Restates (settings : Settings) : Document → Document → Prop where
  /-- Members may be put in another order. -/
  | permuted {members others : List (String × Shape)} :
    others.Perm members → Restates settings (.object members) (.object others)
  /-- The members of an object that is the value of a member may be put in another order. -/
  | turned {front back : List (String × Shape)} {key : String}
      {parts others : List (List Nat × Shape)} :
    others.Perm parts → Restates settings (.object (front ++ (key, .object parts) :: back))
      (.object (front ++ (key, .object others) :: back))
  /-- A member with another key may be put in, whatever its value. -/
  | inserted {front back : List (String × Shape)} {key : String} (value : Shape) :
    (∀ field : Field, key ≠ field.key) → Restates settings (.object (front ++ back))
      (.object (front ++ (key, value) :: back))
  /-- A member with another key may be taken out. -/
  | removed {front back : List (String × Shape)} {key : String} {value : Shape} :
    (∀ field : Field, key ≠ field.key) → Restates settings (.object (front ++ (key, value) :: back))
      (.object (front ++ back))
  /-- A member may be taken out whose setting has its default. -/
  | omitted {front back : List (String × Shape)} {field : Field} {value : Shape} :
    settings.get field = default.get field →
      Restates settings (.object (front ++ (field.key, value) :: back))
      (.object (front ++ back))
  /--
  A list may give the values in their order, where the last ones may be left out
  if they are the defaults.
  -/
  | listed {members : List (String × Shape)} {items : List Shape} :
    items.length ≤ Field.all.length →
      (∀ pair ∈ Field.all.zip items, pair.1.Denotes pair.2 (settings.get pair.1)) →
      (∀ field ∈ Field.all.drop items.length, settings.get field = default.get field) →
        Restates settings (.object members) (.list items)

/-- A member with another key does not matter for what is told about a setting. -/
theorem Field.tells_other {field : Field} {front back : List (String × Shape)} {key : String}
    {shape : Shape} {value : field.Kind} (apart : key ≠ field.key) :
    field.Tells (front ++ (key, shape) :: back) value ↔ field.Tells (front ++ back) value := by
  rw [Tells, Tells, found_append, found_append, found_other apart]

/--
A member of a setting tells it just if there is no other one, and its value
stands for that of the setting.
-/
theorem Field.tells_own {field : Field} {front back : List (String × Shape)} {shape : Shape}
    {value : field.Kind} :
    field.Tells (front ++ (field.key, shape) :: back) value ↔
      field.found (front ++ back) = [] ∧ field.Denotes shape value := by
  rw [Tells, found_append, found_append, found_key]
  constructor
  · -- Something is found under the key, and if it is the only thing,
    -- then nothing else is found there.
    rintro (⟨none, -⟩ | ⟨other, alone, denotes⟩)
    · simp at none
    · obtain ⟨before, same, after⟩ : field.found front = [] ∧ shape = other ∧
          field.found back = [] := by
        simpa [List.append_eq_singleton_iff] using alone
      exact ⟨by rw [before, after]; rfl, same ▸ denotes⟩
  · rintro ⟨none, denotes⟩
    obtain ⟨before, after⟩ := List.append_eq_nil_iff.mp none
    exact .inr ⟨shape, by rw [before, after]; rfl, denotes⟩

/-- What is told about a setting does not depend on the order of members. -/
theorem Field.Tells.perm {field : Field} {members others : List (String × Shape)}
    {value : field.Kind} (tells : field.Tells members value) (same : others.Perm members) :
    field.Tells others value := by
  -- What is found under a key is only reordered, which does nothing to one value or none.
  have found : (field.found others).Perm (field.found members) := (same.filter _).map _
  rcases tells with ⟨none, unchanged⟩ | ⟨shape, alone, denotes⟩
  · rw [none] at found
    exact .inl ⟨found.eq_nil, unchanged⟩
  · rw [alone] at found
    exact .inr ⟨shape, List.perm_singleton.mp found, denotes⟩

/-- What an object stands for does not depend on the order of its members. -/
theorem Field.Denotes.perm {field : Field} {parts others : List (List Nat × Shape)}
    {value : field.Kind} (denotes : field.Denotes (.object parts) value)
    (same : others.Perm parts) :
    field.Denotes (.object others) value := by
  -- A span is the only value that can be written as an object.
  have span {span : Span} (known : (Shape.object parts).IsSpan span) :
      (Shape.object others).IsSpan span := by
    obtain ⟨seconds, nanos, whole, part, one, two, long, ⟨members, pair, made⟩ | made⟩ := known
    · cases made
      exact ⟨seconds, nanos, whole, part, one, two, long, .inl ⟨others, same.trans pair, rfl⟩⟩
    · cases made
  cases field with
  | nameStem => cases denotes
  | drainTimeout => exact span denotes
  | pollInterval => exact span denotes
  | stackSize => rcases denotes with ⟨made, -⟩ | ⟨_, _, -, made, -⟩ <;> cases made

/-- Whatever restates a document gives the same settings. -/
theorem Restates.gives {settings : Settings} {document other : Document}
    (restates : Restates settings document other) (gives : document.Gives settings) :
    other.Gives settings := by
  -- Each way to restate a document changes what is found under one key at most.
  cases restates with
  | permuted same => exact fun field => (gives field).perm same
  | @turned front back key parts others same =>
    intro field
    by_cases own : key = field.key
    · subst own
      obtain ⟨alone, denotes⟩ := Field.tells_own.mp (gives field)
      exact Field.tells_own.mpr ⟨alone, denotes.perm same⟩
    · exact (Field.tells_other own).mpr ((Field.tells_other own).mp (gives field))
  | inserted value apart => exact fun field => (Field.tells_other (apart field)).mpr (gives field)
  | removed apart => exact fun field => (Field.tells_other (apart field)).mp (gives field)
  | @omitted front back first value unchanged =>
    intro field
    by_cases own : field = first
    · subst own
      exact .inl ⟨(Field.tells_own.mp (gives field)).1, unchanged⟩
    · exact (Field.tells_other fun same => own (Field.key_injective same).symm).mp (gives field)
  | listed few denote left => exact ⟨few, denote, left⟩

/-- However often a document is restated, it gives the same settings. -/
theorem gives_of_restated {settings : Settings} {document other : Document}
    (restated : Relation.ReflTransGen (Restates settings) document other)
    (gives : document.Gives settings) :
    other.Gives settings := by
  induction restated with
  | refl => exact gives
  | tail _ step ih => exact step.gives ih

/--
A text that is parsed is written for one document, and is parsed alike in whatever other
way that document is put.

The document is the text without its blanks and the spelling of its strings.
Members may be reordered, also those of a span, members with other keys may come and go,
those with a default value may go, and a list may take their place.
-/
theorem restated_settings_are_parsed_alike {text : String} {settings : Settings}
    (parsed : parse text = .ok settings) :
    (∃! document : Document, document.Fits text.toList) ∧
      ∀ document other : Document, document.Fits text.toList →
        Relation.ReflTransGen (Restates settings) document other →
          ∀ again : String, other.Fits again.toList → parse again = .ok settings := by
  constructor
  · obtain ⟨document, fits, -⟩ := exists_document (parse_eq_ok.mp parsed)
    exact ⟨document, fits, fun other again => Document.fits_unique again fits⟩
  · -- The first document gives the settings, and so does the last one,
    -- which its text is written for.
    intro document other fits restated again written
    have gives : document.Gives settings := (parse_iff_gives fits).mp parsed
    exact (parse_iff_gives written).mpr (gives_of_restated restated gives)

/--
A span is given in another order, with an escape in its key and among other members, or in a list.
-/
theorem restated_drain_timeout :
    parse "\x7b\"drain_timeout\":\x7b\"secs\":2,\"nanos\":0\x7d,\"stack_size\":null\x7d" =
        .ok { default with drainTimeout := ⟨2, 0⟩ } ∧
      parse "\x7b\"x\":[],\"\\u0064rain_timeout\":\x7b\"nanos\":0,\n\"secs\":2\x7d\x7d" =
        .ok { default with drainTimeout := ⟨2, 0⟩ } ∧
      parse "[\"Worker \",[2,0]]" = .ok { default with drainTimeout := ⟨2, 0⟩ } := by
  have empty : Gap [] := List.forall_mem_nil _
  have comma : IsLead false [','] := ⟨[], [], empty, empty, rfl⟩
  have line : IsLead false ",\n".toList := ⟨[], ['\n'], empty, by simp [Gap, isBlank], rfl⟩
  have isTwo : IsDecimal 10 ['2'] 2 := ⟨by decide, rfl⟩
  have isZero : IsDecimal 10 ['0'] 0 := ⟨by decide, rfl⟩
  have two : (Shape.scalar ['2']).Fits ['2'] := Shape.fits_decimal isTwo
  have zero : (Shape.scalar ['0']).Fits ['0'] := Shape.fits_decimal isZero
  have null : (Shape.scalar "null".toList).Fits "null".toList := ⟨.inl (by decide), rfl⟩
  have secs : Codes "secs".toList (units "secs") := codes_plain (by simp [IsPlain])
  have nanos : Codes "nanos".toList (units "nanos") := codes_plain (by simp [IsPlain])
  have timeout : Codes "drain_timeout".toList (units "drain_timeout") :=
    codes_plain (by simp [IsPlain])
  have escaped : Codes "\\u0064rain_timeout".toList (units "drain_timeout") := by
    have digits : IsUnit ['0', '0', '6', '4'] 100 :=
      ⟨'0', '0', '6', '4', 0, 0, 6, 4, rfl, .inl rfl, .inl rfl, .inl rfl, .inl rfl, rfl⟩
    have letters : Codes "rain_timeout".toList ("rain_timeout".toList.flatMap utf16) :=
      codes_plain (by simp [IsPlain])
    exact .code digits letters
  have size : Codes "stack_size".toList (units "stack_size") := codes_plain (by simp [IsPlain])
  have other : Codes "x".toList (units "x") := codes_plain (by simp [IsPlain])
  have stem : Codes "Worker ".toList (units "Worker ") := codes_plain (by simp [IsPlain])
  have span : (Shape.object [(units "secs", .scalar ['2']), (units "nanos", .scalar ['0'])]).Fits
      "\x7b\"secs\":2,\"nanos\":0\x7d".toList :=
    ⟨"\"secs\":2,\"nanos\":0".toList, ⟨[], _, [], [], _, _, empty, secs, empty, empty, two,
      ⟨[','], _, [], [], _, [], comma, nanos, empty, empty, zero, empty, rfl⟩, by simp⟩, by simp⟩
  have turned : (Shape.object [(units "nanos", .scalar ['0']), (units "secs", .scalar ['2'])]).Fits
      "\x7b\"nanos\":0,\n\"secs\":2\x7d".toList :=
    ⟨"\"nanos\":0,\n\"secs\":2".toList, ⟨[], _, [], [], _, _, empty, nanos, empty, empty, zero,
      ⟨_, _, [], [], _, [], line, secs, empty, empty, two, empty, rfl⟩, by simp⟩, by simp⟩
  have pair : (Shape.list [.scalar ['2'], .scalar ['0']]).Fits "[2,0]".toList :=
    ⟨"2,0".toList,
      ⟨[], _, _, empty, two, ⟨[','], _, [], comma, zero, empty, rfl⟩, by simp⟩, by simp⟩
  have fits : (Document.object
      [("drain_timeout", .object [(units "secs", .scalar ['2']), (units "nanos", .scalar ['0'])]),
        ("stack_size", .scalar "null".toList)]).Fits
        "\x7b\"drain_timeout\":\x7b\"secs\":2,\"nanos\":0\x7d,\"stack_size\":null\x7d".toList :=
    Document.fits_of_shape
      ⟨"\"drain_timeout\":\x7b\"secs\":2,\"nanos\":0\x7d,\"stack_size\":null".toList,
      ⟨[], _, [], [], _, _, empty, timeout, empty, empty, span,
        ⟨[','], _, [], [], _, [], comma, size, empty, empty, null, empty, rfl⟩, by simp⟩, by simp⟩
  have fitsTurned : (Document.object [("x", .list []),
      ("drain_timeout", .object [(units "nanos", .scalar ['0']),
        (units "secs", .scalar ['2'])])]).Fits
        "\x7b\"x\":[],\"\\u0064rain_timeout\":\x7b\"nanos\":0,\n\"secs\":2\x7d\x7d".toList :=
    Document.fits_of_shape
      ⟨"\"x\":[],\"\\u0064rain_timeout\":\x7b\"nanos\":0,\n\"secs\":2\x7d".toList,
        ⟨[], _, [], [], "[]".toList, _, empty, other, empty, empty, ⟨[], empty, rfl⟩,
          ⟨[','], _, [], [], _, [], comma, escaped, empty, empty, turned, empty, rfl⟩,
          by simp⟩, by simp⟩
  have fitsListed :
    (Document.list [.string (units "Worker "), .list [.scalar ['2'], .scalar ['0']]]).Fits
      "[\"Worker \",[2,0]]".toList :=
    Document.fits_of_shape ⟨"\"Worker \",[2,0]".toList, ⟨[], "\"Worker \"".toList, _, empty,
      ⟨_, stem, rfl⟩, ⟨[','], _, [], comma, pair, empty, rfl⟩, by simp⟩, by simp⟩
  -- The settings that the first document gives.
  have parts : (Shape.object
      [(units "secs", .scalar ['2']), (units "nanos", .scalar ['0'])]).IsSpan ⟨2, 0⟩ :=
    ⟨2, 0, ['2'], ['0'], ⟨by decide, rfl⟩, ⟨by decide, rfl⟩, rfl, .inl ⟨_, .refl _, rfl⟩⟩
  have listedParts : (Shape.list [.scalar ['2'], .scalar ['0']]).IsSpan ⟨2, 0⟩ :=
    ⟨2, 0, ['2'], ['0'], ⟨by decide, rfl⟩, ⟨by decide, rfl⟩, rfl, .inr rfl⟩
  have parsed :
    parse "\x7b\"drain_timeout\":\x7b\"secs\":2,\"nanos\":0\x7d,\"stack_size\":null\x7d" =
      .ok { default with drainTimeout := ⟨2, 0⟩ } := (parse_iff_gives fits).mpr fun field => by
    cases field with
    | nameStem => exact .inl ⟨rfl, rfl⟩
    | drainTimeout => exact .inr ⟨_, rfl, parts⟩
    | pollInterval => exact .inl ⟨rfl, rfl⟩
    | stackSize => exact .inr ⟨_, rfl, .inl ⟨rfl, rfl⟩⟩
  refine ⟨parsed, (restated_settings_are_parsed_alike parsed).2 _ _ fits ?_ _ fitsTurned,
    (restated_settings_are_parsed_alike parsed).2 _ _ fits
      (.single (.listed ?_ ?_ ?_)) _ fitsListed⟩
  · have omitted := @Restates.omitted { default with drainTimeout := ⟨2, 0⟩ }
      [("drain_timeout", .object [(units "secs", .scalar ['2']), (units "nanos", .scalar ['0'])])]
        [] .stackSize
      (.scalar "null".toList) rfl
    have other (field : Field) : "x" ≠ field.key := by cases field <;> decide
    exact ((Relation.ReflTransGen.single omitted).tail
      (@Restates.turned _ [] _ _ _ _ (.swap ..))).tail
      (@Restates.inserted _ [] _ _ (.list []) other)
  · decide
  · intro pair inside
    obtain rfl | rfl : pair = (.nameStem, .string (units "Worker ")) ∨
        pair = (.drainTimeout, .list [.scalar ['2'], .scalar ['0']]) := by
      simpa [Field.all] using inside
    · exact rfl
    · exact listedParts
  · intro field inside
    obtain rfl | rfl : field = .pollInterval ∨ field = .stackSize := by
      simpa [Field.all] using inside
    · rfl
    · rfl

end Settings

end TaskPool
