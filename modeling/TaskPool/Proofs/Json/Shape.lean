import TaskPool.Proofs.Json.Walking

/-!
The shape of a text: what is left of it without its blanks and without the spelling of its strings.

A value has just one shape. Where half a pair may stand alone, a string is known by its units only.
-/

namespace TaskPool.Json

/-! Units of strings. -/

/-- The units of a character: its code, or two halves where the code is too large for one unit. -/
def utf16 (c : Char) : List Nat :=
  if c.toNat < 0x10000 then [c.toNat]
  else [0xD800 + (c.toNat - 0x10000) / 0x400, 0xDC00 + (c.toNat - 0x10000) % 0x400]

/-- The units of a string. -/
def units (value : String) : List Nat := value.toList.flatMap utf16

/-- Which units some text between quotes stands for. -/
inductive Codes : List Char → List Nat → Prop where
  | nil : Codes [] []
  | plain {c : Char} {text : List Char} {units : List Nat} :
      IsPlain c → Codes text units → Codes (c :: text) (utf16 c ++ units)
  | letter {letter c : Char} {text : List Char} {units : List Nat} :
      (letter, c) ∈ escapes → Codes text units → Codes ('\\' :: letter :: text) (utf16 c ++ units)
  | code {digits text : List Char} {unit : Nat} {units : List Nat} :
      IsUnit digits unit → Codes text units →
      Codes ('\\' :: 'u' :: (digits ++ text)) (unit :: units)

/-- The code of a character is that of no half. -/
theorem toNat_cases (c : Char) : c.toNat < 0xD800 ∨ (0xE000 ≤ c.toNat ∧ c.toNat < 0x110000) := by
  rcases c.valid with small | ⟨large, bound⟩
  · exact .inl small
  · exact .inr ⟨Nat.succ_le_of_lt large, bound⟩

/-- A code that is valid is that of its character. -/
theorem toNat_ofNat {code : Nat} (valid : code.isValidChar) : (Char.ofNat code).toNat = code := by
  rw [Char.ofNat, dif_pos valid]
  rfl

/-- No character begins with a second half. -/
theorem utf16_head (c : Char) :
    ∃ unit units, utf16 c = unit :: units ∧ (unit < 0xDC00 ∨ 0xE000 ≤ unit) := by
  have range := toNat_cases c
  unfold utf16
  -- A character is its own unit, or begins with a first half,
  -- and no character lies among the halves.
  split
  · exact ⟨_, _, rfl, by omega⟩
  · exact ⟨_, _, rfl, by omega⟩

/-- Units that begin with those of a character begin with no other character. -/
theorem utf16_append {c d : Char} {units others : List Nat}
    (same : utf16 c ++ units = utf16 d ++ others) :
    c = d ∧ units = others := by
  have first := toNat_cases c
  have second := toNat_cases d
  unfold utf16 at same
  -- Only two characters of the same kind can agree, since no unit of a character is a half.
  split at same <;> split at same <;>
    simp only [List.cons_append, List.nil_append, List.cons.injEq] at same
  · exact ⟨Char.toNat_inj.mp same.1, same.2⟩
  · omega
  · omega
  · obtain ⟨high, low, rest⟩ := same
    exact ⟨Char.toNat_inj.mp (by omega), rest⟩

/-- Strings are known by their units. -/
theorem units_injective : Function.Injective units := by
  intro value other same
  -- The induction takes off the units of one character after the other.
  have chars : ∀ content others : List Char, content.flatMap utf16 = others.flatMap utf16 →
      content = others := by
    intro content
    induction content with
    | nil =>
      intro others same
      cases others with
      | nil => rfl
      | cons d others =>
        obtain ⟨_, _, head, -⟩ := utf16_head d
        simp [head] at same
    | cons c content ih =>
      intro others same
      cases others with
      | nil =>
        obtain ⟨_, _, head, -⟩ := utf16_head c
        simp [head] at same
      | cons d others =>
        obtain ⟨rfl, rest⟩ := utf16_append same
        rw [ih others rest]
  exact String.toList_inj.mp (chars _ _ same)

/-- Four digits stand for a unit of sixteen bits. -/
theorem IsUnit.lt {digits : List Char} {unit : Nat} (known : IsUnit digits unit) :
    unit < 0x10000 := by
  obtain ⟨a, b, c, d, w, x, y, z, -, first, second, third, fourth, rfl⟩ := known
  -- Each of the four digits is below sixteen, since it has a place in a table of sixteen.
  have small {c : Char} {value : Nat} (digit : IsHex c value) : value < 16 := by
    rcases digit with lower | upper
    · exact (List.getElem?_eq_some_iff.mp lower).1
    · exact (List.getElem?_eq_some_iff.mp upper).1
  have := small first
  have := small second
  have := small third
  have := small fourth
  omega

/-- Nothing stands for no units. -/
theorem Codes.of_nil {text : List Char} (codes : Codes text []) : text = [] := by
  generalize none : [] = all at codes
  -- Every other way to begin stands for one unit at least.
  cases codes with
  | nil => rfl
  | @plain c =>
    obtain ⟨_, _, head, -⟩ := utf16_head c
    simp [head] at none
  | @letter _ c =>
    obtain ⟨_, _, head, -⟩ := utf16_head c
    simp [head] at none
  | code => cases none

/--
What stands for some units begins with what spells a single character, or with a code
for the first of the units.

In both cases the rest stands for the rest of the units.
-/
theorem Codes.uncons {text : List Char} {unit : Nat} {units : List Nat}
    (codes : Codes text (unit :: units)) :
    (∃ c letters rest more, text = letters ++ rest ∧ unit :: units = utf16 c ++ more ∧
      Codes rest more ∧
      ∀ content, Spelled rest content → Spelled (letters ++ rest) (c :: content)) ∨
    ∃ digits rest, text = '\\' :: 'u' :: (digits ++ rest) ∧ IsUnit digits unit ∧
      Codes rest units := by
  generalize split : unit :: units = all at codes
  -- A plain character and a letter spell a character; only a code need not spell one by itself.
  cases codes with
  | nil => cases split
  | @plain c rest more plain codes =>
    exact .inl ⟨c, [c], rest, more, rfl, rfl, codes, fun content => .plain plain⟩
  | @letter letter c rest more member codes =>
    exact .inl ⟨c, ['\\', letter], rest, more, rfl, rfl, codes, fun content =>
      .escape (.inl ⟨letter, member, rfl⟩)⟩
  | @code digits rest unit more known codes =>
    cases split
    exact .inr ⟨digits, rest, rfl, known, codes⟩

/--
What stands for the units of a character and others spells that character,
and then stands for the others.
-/
theorem Codes.of_char {text : List Char} {c : Char} {units : List Nat}
    (codes : Codes text (utf16 c ++ units)) :
    ∃ letters rest, text = letters ++ rest ∧ Codes rest units ∧
      ∀ content, Spelled rest content → Spelled (letters ++ rest) (c :: content) := by
  have range := toNat_cases c
  -- A character has one unit or two halves, and either may be spelled by codes.
  by_cases small : c.toNat < 0x10000
  · have one : utf16 c = [c.toNat] := if_pos small
    rw [one] at codes
    rcases codes.uncons with
      ⟨d, letters, rest, more, rfl, split, codes, spells⟩ | ⟨digits, rest, rfl, known, codes⟩
    · obtain ⟨rfl, rfl⟩ :=
        utf16_append (show utf16 c ++ units = utf16 d ++ more by rw [one]; exact split)
      exact ⟨letters, rest, rfl, codes, spells⟩
    · refine ⟨'\\' :: 'u' :: digits, rest, rfl, codes, fun content => ?_⟩
      exact .escape (.inr (.inl ⟨digits, _, known, by omega, (Char.ofNat_toNat c).symm, rfl⟩))
  · -- The code of the second half cannot be that of a character.
    have two : utf16 c =
      [0xD800 + (c.toNat - 0x10000) / 0x400, 0xDC00 + (c.toNat - 0x10000) % 0x400] := if_neg small
    rw [two] at codes
    rcases codes.uncons with
      ⟨d, letters, rest, more, rfl, split, codes, spells⟩ | ⟨digits, rest, rfl, known, codes⟩
    · obtain ⟨rfl, rfl⟩ :=
        utf16_append (show utf16 c ++ units = utf16 d ++ more by rw [two]; exact split)
      exact ⟨letters, rest, rfl, codes, spells⟩
    · rcases codes.uncons with ⟨d, -, -, more, -, split, -⟩ | ⟨others, rest, rfl, other, codes⟩
      · obtain ⟨_, _, head, apart⟩ := utf16_head d
        rw [head, List.cons_append, List.cons.injEq] at split
        omega
      · refine ⟨'\\' :: ('u' :: (digits ++ '\\' :: 'u' :: others)), rest, by simp, codes,
          fun content spelled => ?_⟩
        have whole : 0x10000 + (c.toNat - 0x10000) / 0x400 * 0x400 + (c.toNat - 0x10000) % 0x400 =
          c.toNat := by omega
        exact .escape (.inr (.inr ⟨digits, others, _, _, known, by omega, other, by omega,
          by rw [whole, Char.ofNat_toNat], rfl⟩)) spelled

/-- A text spells some content just if it stands for the units of that content. -/
theorem spelled_iff_codes {text content : List Char} :
    Spelled text content ↔ Codes text (content.flatMap utf16) := by
  constructor
  · intro spelled
    induction spelled with
    | nil => exact .nil
    | plain plain _ ih => exact .plain plain ih
    | @escape letters text content c known _ ih =>
      rw [List.flatMap_cons]
      -- A letter, the code of a character, or the codes of its two halves.
      rcases known with ⟨letter, member, rfl⟩ | ⟨digits, unit, known, whole, rfl, rfl⟩ |
        ⟨digits, more, high, low, known, above, other, below, rfl, rfl⟩
      · exact .letter member ih
      · have code : utf16 (Char.ofNat unit) = [unit] := by
          have bound := known.lt
          have valid : unit.isValidChar := by
            rcases whole with small | large
            · exact .inl small
            · exact .inr ⟨by omega, by omega⟩
          rw [utf16, toNat_ofNat valid, if_pos bound]
        rw [code]
        exact .code known ih
      · have halves : utf16 (Char.ofNat (0x10000 + high * 0x400 + low)) =
            [0xD800 + high, 0xDC00 + low] := by
          have valid : (0x10000 + high * 0x400 + low).isValidChar := .inr ⟨by omega, by omega⟩
          rw [utf16, toNat_ofNat valid, if_neg (by omega)]
          simp only [List.cons.injEq, and_true]
          omega
        rw [halves]
        simpa using Codes.code known (.code other ih)
  · intro codes
    -- The induction takes the first character off, which two escapes may spell together.
    induction content generalizing text with
    | nil =>
      obtain rfl := codes.of_nil
      exact .nil
    | cons c content ih =>
      rw [List.flatMap_cons] at codes
      obtain ⟨letters, rest, rfl, more, spells⟩ := codes.of_char
      exact spells content (ih more)

/-- Characters that stand for themselves stand for their units. -/
theorem codes_plain {content : List Char} (plain : ∀ c ∈ content, IsPlain c) :
    Codes content (content.flatMap utf16) := by
  -- Each character is a plain one in front of the others.
  induction content with
  | nil => exact .nil
  | cons c content ih =>
    obtain ⟨first, others⟩ := List.forall_mem_cons.mp plain
    exact .plain first (ih others)

/-- A literal for a string is a text for its units between quotes. -/
theorem isLiteral_iff_codes {text : List Char} {value : String} :
    IsLiteral text value ↔ ∃ spelling, Codes spelling (units value) ∧
      text = '"' :: (spelling ++ ['"']) := by
  simp only [IsLiteral, units, spelled_iff_codes]

/-- What stands for units may stand between quotes. -/
theorem Codes.isQuoted {text : List Char} {units : List Nat} (codes : Codes text units) :
    IsQuoted text := by
  -- Whatever stands for units, read without regard to which ones, may stand between quotes.
  induction codes with
  | nil => exact .nil
  | plain plain _ ih => exact .plain plain ih
  | @letter letter c _ _ member _ ih =>
    have loose : IsLooseEscape [letter] := .inl ⟨letter, c, member, rfl⟩
    exact .escape loose ih
  | @code digits _ unit _ known _ ih =>
    have loose : IsLooseEscape ('u' :: digits) := .inr ⟨digits, unit, known, rfl⟩
    exact .escape loose ih

/-- Whatever may stand between quotes stands for some units. -/
theorem exists_codes {text : List Char} (quoted : IsQuoted text) : ∃ units, Codes text units := by
  -- A letter has its character and a code its unit, so nothing between quotes stands for no units.
  induction quoted with
  | nil => exact ⟨[], .nil⟩
  | plain plain _ ih =>
    obtain ⟨units, codes⟩ := ih
    exact ⟨_, .plain plain codes⟩
  | escape known _ ih =>
    obtain ⟨units, codes⟩ := ih
    rcases known with ⟨letter, c, member, rfl⟩ | ⟨digits, unit, known, rfl⟩
    · exact ⟨_, .letter member codes⟩
    · exact ⟨_, .code known codes⟩

/-- A text between quotes stands for its units only. -/
theorem Codes.unique {text : List Char} {units others : List Nat} (codes : Codes text units)
    (again : Codes text others) : units = others := by
  -- A letter of the table is no mark of a code, and a backslash does not stand for itself.
  have marked {c : Char} : ('u', c) ∉ escapes := by
    intro member
    simp [escapes] at member
  induction codes generalizing others with
  | nil =>
    cases again
    rfl
  | plain plain _ ih =>
    cases again with
    | plain _ again => rw [ih again]
    | letter => exact absurd rfl plain.2.1
    | code => exact absurd rfl plain.2.1
  | letter member _ ih =>
    cases again with
    | plain plain => exact absurd rfl plain.2.1
    | letter other again =>
      have same := (simpleEscape?_eq_some.mpr member).symm.trans (simpleEscape?_eq_some.mpr other)
      rw [Option.some.inj same, ih again]
    | code => exact absurd member marked
  | code known _ ih =>
    generalize written : '\\' :: 'u' :: (_ ++ _) = text at again
    cases again with
    | nil => cases written
    | plain plain =>
      cases written
      exact absurd rfl plain.2.1
    | letter other =>
      cases written
      exact absurd other marked
    | code other again =>
      have same := (readUnit_eq_ok.mpr ⟨_, known, rfl⟩).symm.trans
        (readUnit_eq_ok.mpr ⟨_, other, (List.cons.inj (List.cons.inj written).2).2⟩)
      cases same
      rw [ih again]

/-! Shapes. -/

/--
The shape of a text: a word or a number as it stands there, the units of a string,
or the parts of a bracket.
-/
inductive Shape where
  | scalar (text : List Char)
  | string (units : List Nat)
  | list (items : List Shape)
  | object (members : List (List Nat × Shape))

namespace Shape

mutual

/-- Whether a text has a shape. -/
def Fits : Shape → List Char → Prop
  | .scalar written, text => (written ∈ words ∨ IsNumber written) ∧ text = written
  | .string units, text => ∃ spelling, Codes spelling units ∧ text = '"' :: (spelling ++ ['"'])
  | .list items, text => ∃ inner, ItemsFit true items inner ∧ text = '[' :: (inner ++ [']'])
  | .object members, text => ∃ inner, MembersFit true members inner ∧
      text = '\x7b' :: (inner ++ ['\x7d'])

/-- Whether a text lists items of some shapes, up to the closing bracket. -/
def ItemsFit (first : Bool) : List Shape → List Char → Prop
  | [], text => Gap text
  | item :: items, text =>
    ∃ lead written rest, IsLead first lead ∧ Fits item written ∧ ItemsFit false items rest ∧
      text = lead ++ (written ++ rest)

/-- Whether a text lists members of some keys and shapes, up to the closing bracket. -/
def MembersFit (first : Bool) : List (List Nat × Shape) → List Char → Prop
  | [], text => Gap text
  | (key, value) :: members, text =>
    ∃ lead spelling before after written rest, IsLead first lead ∧ Codes spelling key ∧
      Gap before ∧ Gap after ∧
      Fits value written ∧ MembersFit false members rest ∧
      text = lead ++ ('"' :: (spelling ++ '"' :: (before ++ ':' :: (after ++ written))) ++ rest)

end

mutual

/-- What has a shape is a value. -/
theorem isValue_of_fits : ∀ {shape : Shape} {text : List Char}, shape.Fits text → IsValue text
  | .scalar _, _, ⟨.inl word, same⟩ => same ▸ .word word
  | .scalar _, _, ⟨.inr number, same⟩ => same ▸ .number number
  | .string _, _, ⟨_, codes, same⟩ => same ▸ .string codes.isQuoted
  | .list _, _, ⟨inner, fits, same⟩ => by
    obtain ⟨values, all, listed⟩ := listing_of_itemsFit fits
    exact same ▸ .bracket .list all listed
  | .object _, _, ⟨inner, fits, same⟩ => by
    obtain ⟨values, all, listed⟩ := listing_of_membersFit fits
    exact same ▸ .bracket .object all listed

/-- Items of some shapes are listed values. -/
theorem listing_of_itemsFit :
    ∀ {items : List Shape} {first : Bool} {inner : List Char}, ItemsFit first items inner →
    ∃ values, (∀ value ∈ values, IsValue value) ∧ Listing (IsEntry .list) first values inner
  | [], _, _, blank => ⟨[], List.forall_mem_nil _, blank⟩
  | _ :: _, _, _, ⟨lead, written, rest, front, fits, more, same⟩ => by
    obtain ⟨values, all, listed⟩ := listing_of_itemsFit more
    exact ⟨written :: values, List.forall_mem_cons.mpr ⟨isValue_of_fits fits, all⟩, lead, written,
      rest, front, rfl, listed, same⟩

/-- Members of some shapes are listed values behind their keys. -/
theorem listing_of_membersFit :
    ∀ {members : List (List Nat × Shape)} {first : Bool} {inner : List Char},
    MembersFit first members inner →
      ∃ values, (∀ value ∈ values, IsValue value) ∧ Listing (IsEntry .object) first values inner
  | [], _, _, blank => ⟨[], List.forall_mem_nil _, blank⟩
  | (_, _) :: _, _, _, ⟨lead, spelling, before, after, written, rest, front, codes, free, blank,
      fits, more, same⟩ => by
    -- Behind its key the value of the first member is an entry, in front of the others.
    obtain ⟨values, all, listed⟩ := listing_of_membersFit more
    exact ⟨written :: values, List.forall_mem_cons.mpr ⟨isValue_of_fits fits, all⟩, lead,
      _, rest, front, ⟨spelling, before, after, codes.isQuoted, free, blank, rfl⟩, listed, same⟩

end

/-- Listed values that have shapes are items of these shapes. -/
theorem exists_itemsFit {values : List (List Char)}
    (shaped : ∀ value ∈ values, ∃ shape : Shape, shape.Fits value) {first : Bool}
    {inner : List Char} (listed : Listing (IsEntry .list) first values inner) :
    ∃ items, ItemsFit first items inner := by
  -- The induction takes the first entry off the listing.
  induction values generalizing first inner with
  | nil => exact ⟨[], listed⟩
  | cons value values ih =>
    obtain ⟨⟨shape, fits⟩, shaped⟩ := List.forall_mem_cons.mp shaped
    obtain ⟨lead, written, rest, front, same, listed, rfl⟩ := listed
    obtain ⟨items, more⟩ := ih shaped listed
    exact ⟨shape :: items, lead, written, rest, front, same ▸ fits, more, rfl⟩

/-- Listed values behind their keys that have shapes are members of these shapes. -/
theorem exists_membersFit {values : List (List Char)}
    (shaped : ∀ value ∈ values, ∃ shape : Shape, shape.Fits value) {first : Bool}
    {inner : List Char} (listed : Listing (IsEntry .object) first values inner) :
    ∃ members, MembersFit first members inner := by
  -- The induction takes the first entry off, whose key stands for some units.
  induction values generalizing first inner with
  | nil => exact ⟨[], listed⟩
  | cons value values ih =>
    obtain ⟨⟨shape, fits⟩, shaped⟩ := List.forall_mem_cons.mp shaped
    obtain ⟨lead, _, rest, front, ⟨key, before, after, quoted, free, blank, rfl⟩, listed, rfl⟩ :=
      listed
    obtain ⟨units, codes⟩ := exists_codes quoted
    obtain ⟨members, more⟩ := ih shaped listed
    exact ⟨(units, shape) :: members, lead, key, before, after, value, rest, front, codes, free,
      blank, fits, more, rfl⟩

/-- Every value has a shape. -/
theorem exists_fits {text : List Char} (known : IsValue text) :
    ∃ shape : Shape, shape.Fits text := by
  -- A value is shaped as it is built, and the values inside a bracket are shaped already.
  induction known with
  | @word text member => exact ⟨.scalar text, .inl member, rfl⟩
  | @number text number => exact ⟨.scalar text, .inr number, rfl⟩
  | @string text quoted =>
    obtain ⟨units, codes⟩ := exists_codes quoted
    exact ⟨.string units, text, codes, rfl⟩
  | @bracket bracket values inner _ listed ih =>
    cases bracket with
    | list =>
      obtain ⟨items, fits⟩ := exists_itemsFit ih listed
      exact ⟨.list items, inner, fits, rfl⟩
    | object =>
      obtain ⟨members, fits⟩ := exists_membersFit ih listed
      exact ⟨.object members, inner, fits, rfl⟩

/-! Values have one shape only. -/

/-- A word or a number begins in no way in which a string, a list or an object begins. -/
theorem scalar_head {text : List Char} (known : text ∈ words ∨ IsNumber text) {c : Char}
    (rest : List Char) (other : c = '"' ∨ c = '[' ∨ c = '\x7b') : text ≠ c :: rest := by
  rintro rfl
  -- The words are three, and a number begins with a digit or a sign.
  rcases known with
    word | ⟨digits, ⟨whole, fraction, exponent, ⟨⟨some, all⟩, -⟩, -, -, rfl⟩, written⟩
  · rcases other with rfl | rfl | rfl <;> simp [words] at word
  · obtain ⟨d, more, rfl⟩ := List.exists_cons_of_ne_nil some
    have digit := all d List.mem_cons_self
    rcases written with same | same
    · obtain rfl : c = d := (List.cons.inj same).1
      rcases other with rfl | rfl | rfl <;> cases digit
    · obtain rfl : c = '-' := (List.cons.inj same).1
      rcases other with same | same | same <;> cases same

/-- In front of an entry, there is one way only to tell what leads to it. -/
theorem lead_unique {first : Bool} {lead other entry more : List Char} {c d : Char}
    (front : IsLead first lead) (again : IsLead first other) (visible : isBlank c = false ∧ c ≠ ']')
    (seen : isBlank d = false ∧ d ≠ ']') (same : lead ++ c :: entry = other ++ d :: more) :
    lead = other ∧ c :: entry = d :: more := by
  -- The reader that goes to the next entry stops in front of it,
  -- so it tells where the entry begins.
  have one := nextItem_eq_true.mpr ⟨lead, c, entry, front, visible.1, visible.2, rfl, rfl⟩
  have two := nextItem_eq_true.mpr ⟨other, d, more, again, seen.1, seen.2, rfl, rfl⟩
  rw [same, two] at one
  have rest : d :: more = c :: entry := by simpa using one
  rw [rest] at same
  exact ⟨List.append_cancel_right same, rest.symm⟩

/-- What stands between quotes ends at one place only. -/
theorem quoted_unique {key other rest more : List Char} (quoted : IsQuoted key)
    (again : IsQuoted other) (same : key ++ '"' :: rest = other ++ '"' :: more) :
    key = other ∧ rest = more := by
  -- The reader that passes over a string stops behind its closing quote.
  have one : skipString (key ++ '"' :: rest) = .ok rest := skipString_eq_ok.mpr ⟨key, quoted, rfl⟩
  have two : skipString (other ++ '"' :: more) = .ok more :=
    skipString_eq_ok.mpr ⟨other, again, rfl⟩
  rw [same, two] at one
  obtain rfl := Except.ok.inj one
  exact ⟨List.append_cancel_right same, rfl⟩

/-- The colon behind a key stands at one place only. -/
theorem colon_unique {gap other rest more : List Char} (blank : Gap gap) (again : Gap other)
    (same : gap ++ ':' :: rest = other ++ ':' :: more) : rest = more := by
  -- The reader that passes the colon stops behind it.
  have one : readColon (gap ++ ':' :: rest) = .ok rest := readColon_eq_ok.mpr ⟨gap, blank, rfl⟩
  have two : readColon (other ++ ':' :: more) = .ok more := readColon_eq_ok.mpr ⟨other, again, rfl⟩
  rw [same, two] at one
  exact (Except.ok.inj one).symm

/-- A value ends at one place only. -/
theorem value_unique {value other rest more : List Char} (known : IsValue value)
    (again : IsValue other) (ends : EndsNumber rest) (stops : EndsNumber more)
    (same : value ++ rest = other ++ more) :
    value = other ∧ rest = more := by
  -- The reader that passes over a value stops behind it, if the value can end there.
  have one := skipValue_complete (List.forall_mem_nil _) known ends
  have two := skipValue_complete (List.forall_mem_nil _) again stops
  rw [List.nil_append] at one two
  rw [same, two] at one
  obtain rfl := Except.ok.inj one
  exact ⟨List.append_cancel_right same, rfl⟩

/-- A number ends in front of whatever may follow an item. -/
theorem endsNumber_of_itemsFit {items : List Shape} {inner : List Char}
    (fits : ItemsFit false items inner) :
    EndsNumber (inner ++ [']']) := by
  obtain ⟨values, -, listed⟩ := listing_of_itemsFit fits
  exact listed.endsNumber .list []

/-- A number ends in front of whatever may follow a member. -/
theorem endsNumber_of_membersFit {members : List (List Nat × Shape)} {inner : List Char}
    (fits : MembersFit false members inner) : EndsNumber (inner ++ ['\x7d']) := by
  obtain ⟨values, -, listed⟩ := listing_of_membersFit fits
  exact listed.endsNumber .object []

/-- What leads to something visible is not all there is before a closing bracket. -/
theorem not_gap {lead rest : List Char} {c : Char} (visible : isBlank c = false) :
    ¬Gap (lead ++ c :: rest) := by
  intro blank
  have shown := blank c (by simp)
  rw [visible] at shown
  cases shown

/--
In front of what follows an item, there is one way only to tell where the item begins and ends.
-/
theorem item_unique {first : Bool} {lead item rest lead' item' rest' : List Char}
    (front : IsLead first lead) (front' : IsLead first lead') (known : IsValue item)
    (known' : IsValue item') (ends : EndsNumber (rest ++ [']']))
    (ends' : EndsNumber (rest' ++ [']']))
    (same : lead ++ (item ++ rest) = lead' ++ (item' ++ rest')) :
    item = item' ∧ rest = rest' := by
  -- An item begins visibly, so what leads to it ends there, and then the item
  -- ends before what follows.
  obtain ⟨c, after, rfl, visible, opens⟩ := known.head
  obtain ⟨d, after', rfl, visible', opens'⟩ := known'.head
  obtain ⟨-, behind⟩ :=
    lead_unique front front' ⟨visible, opens .list⟩ ⟨visible', opens' .list⟩ same
  have closed : c :: after ++ (rest ++ [']']) = d :: after' ++ (rest' ++ [']']) := by
    rw [← List.append_assoc, ← List.append_assoc]
    exact congrArg (· ++ [']']) behind
  obtain ⟨items, rests⟩ := value_unique known known' ends ends' closed
  exact ⟨items, List.append_cancel_right rests⟩

/--
In front of what follows a member, there is one way only to tell where its key
and its value begin and end.
-/
theorem member_unique {first : Bool} {lead key before after value rest : List Char}
    {lead' key' before' after' value' rest' : List Char} (front : IsLead first lead)
    (front' : IsLead first lead') (quoted : IsQuoted key) (quoted' : IsQuoted key')
    (free : Gap before) (free' : Gap before') (blank : Gap after) (blank' : Gap after')
    (known : IsValue value) (known' : IsValue value') (ends : EndsNumber (rest ++ ['\x7d']))
    (ends' : EndsNumber (rest' ++ ['\x7d']))
    (same : lead ++ ('"' :: (key ++ '"' :: (before ++ ':' :: (after ++ value))) ++ rest) =
      lead' ++ ('"' :: (key' ++ '"' :: (before' ++ ':' :: (after' ++ value'))) ++ rest')) :
    key = key' ∧ value = value' ∧ rest = rest' := by
  -- The pieces are taken off one after the other, each by the reader that passes over it.
  have keyed : key ++ '"' :: (before ++ ':' :: (after ++ (value ++ rest))) =
      key' ++ '"' :: (before' ++ ':' :: (after' ++ (value' ++ rest'))) := by
    have behind := (lead_unique front front' ⟨rfl, by decide⟩ ⟨rfl, by decide⟩ same).2
    simpa using behind
  obtain ⟨keys, colon⟩ := quoted_unique quoted quoted' keyed
  have valued := colon_unique free free' colon
  obtain ⟨c, more, rfl, visible, opens⟩ := known.head
  obtain ⟨d, more', rfl, visible', opens'⟩ := known'.head
  obtain ⟨-, behind⟩ :=
    @lead_unique true _ _ _ _ _ _ blank blank' ⟨visible, opens .list⟩
      ⟨visible', opens' .list⟩ valued
  have closed : c :: more ++ (rest ++ ['\x7d']) = d :: more' ++ (rest' ++ ['\x7d']) := by
    rw [← List.append_assoc, ← List.append_assoc]
    exact congrArg (· ++ ['\x7d']) behind
  obtain ⟨values, rests⟩ := value_unique known known' ends ends' closed
  exact ⟨keys, values, List.append_cancel_right rests⟩

/-- What has the shape of a word or a number has no other shape. -/
theorem scalar_unique {written text : List Char} {other : Shape}
    (fits : (Shape.scalar written).Fits text) (again : other.Fits text) :
    Shape.scalar written = other := by
  obtain ⟨known, rfl⟩ := fits
  -- The other shapes begin with a quote or a bracket.
  cases other with
  | scalar =>
    obtain ⟨-, rfl⟩ := again
    rfl
  | string =>
    obtain ⟨_, -, same⟩ := again
    exact absurd same (scalar_head known _ (.inl rfl))
  | list =>
    obtain ⟨_, -, same⟩ := again
    exact absurd same (scalar_head known _ (.inr (.inl rfl)))
  | object =>
    obtain ⟨_, -, same⟩ := again
    exact absurd same (scalar_head known _ (.inr (.inr rfl)))

mutual

/-- A text has one shape at most. -/
theorem fits_unique :
    ∀ {shape other : Shape} {text : List Char}, shape.Fits text → other.Fits text → shape = other
  | .scalar _, _, _, fits, again => scalar_unique fits again
  | .string _, .scalar _, _, again, fits
  | .list _, .scalar _, _, again, fits
  | .object _, .scalar _, _, again, fits => (scalar_unique fits again).symm
  | .string _, .string _, _, ⟨_, codes, same⟩, ⟨_, others, again⟩ => by
    have spelling := List.append_cancel_right (List.cons.inj (same.symm.trans again)).2
    rw [codes.unique (spelling ▸ others)]
  | .list _, .list _, _, ⟨_, fits, same⟩, ⟨_, others, again⟩ => by
    have inner := List.append_cancel_right (List.cons.inj (same.symm.trans again)).2
    rw [itemsFit_unique fits (inner ▸ others)]
  | .object _, .object _, _, ⟨_, fits, same⟩, ⟨_, others, again⟩ => by
    have inner := List.append_cancel_right (List.cons.inj (same.symm.trans again)).2
    rw [membersFit_unique fits (inner ▸ others)]
  -- The other shapes begin with different characters.
  | .string _, .list _, _, ⟨_, _, same⟩, ⟨_, _, again⟩
  | .string _, .object _, _, ⟨_, _, same⟩, ⟨_, _, again⟩
  | .list _, .string _, _, ⟨_, _, same⟩, ⟨_, _, again⟩
  | .list _, .object _, _, ⟨_, _, same⟩, ⟨_, _, again⟩
  | .object _, .string _, _, ⟨_, _, same⟩, ⟨_, _, again⟩
  | .object _, .list _, _, ⟨_, _, same⟩, ⟨_, _, again⟩ => by cases same.symm.trans again

/-- A text lists items of one kind of shapes at most. -/
theorem itemsFit_unique : ∀ {items others : List Shape} {first : Bool} {inner : List Char},
    ItemsFit first items inner → ItemsFit first others inner → items = others
  | [], [], _, _, _, _ => rfl
  | [], _ :: _, _, _, blank, ⟨lead, written, rest, _, fits, _, same⟩
  | _ :: _, [], _, _, ⟨lead, written, rest, _, fits, _, same⟩, blank => by
    -- Blanks alone are no item, so both listings end together.
    obtain ⟨c, after, rfl, visible, -⟩ := (isValue_of_fits fits).head
    exact absurd (same ▸ blank) (not_gap visible)
  | _ :: _, _ :: _, _, _, ⟨lead, item, rest, front, fits, more, same⟩,
      ⟨_, _, _, front', fits', more', again⟩ => by
    -- Both begin with the same item, and behind it the rest is the same.
    obtain ⟨rfl, rfl⟩ := item_unique front front' (isValue_of_fits fits) (isValue_of_fits fits')
      (endsNumber_of_itemsFit more) (endsNumber_of_itemsFit more') (same.symm.trans again)
    rw [fits_unique fits fits', itemsFit_unique more more']

/-- A text lists members of one kind of shapes at most. -/
theorem membersFit_unique :
    ∀ {members others : List (List Nat × Shape)} {first : Bool} {inner : List Char},
    MembersFit first members inner → MembersFit first others inner → members = others
  | [], [], _, _, _, _ => rfl
  | [], (_, _) :: _, _, _, blank, ⟨_, _, _, _, _, _, _, _, _, _, _, _, same⟩
  | (_, _) :: _, [], _, _, ⟨_, _, _, _, _, _, _, _, _, _, _, _, same⟩, blank =>
    -- Blanks alone are no member either.
    absurd (same ▸ blank) (not_gap rfl)
  | (_, _) :: _, (_, _) :: _, _, _, ⟨_, _, _, _, _, _, front, codes, free, blank, fits, more, same⟩,
      ⟨_, _, _, _, _, _, front', codes', free', blank', fits', more', again⟩ => by
    -- Both begin with the same key and the same value.
    obtain ⟨rfl, rfl, rfl⟩ :=
      member_unique front front' codes.isQuoted codes'.isQuoted free free' blank blank'
      (isValue_of_fits fits) (isValue_of_fits fits') (endsNumber_of_membersFit more)
        (endsNumber_of_membersFit more')
      (same.symm.trans again)
    rw [codes.unique codes', fits_unique fits fits', membersFit_unique more more']

end

end Shape

end TaskPool.Json
