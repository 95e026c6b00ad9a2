import TaskPool.Json.Skip

/-!
The grammar of JSON texts without any reader: what a text may look like,
and what its pieces stand for.
-/

namespace TaskPool.Json

/-- Whether a text consists of blanks only. -/
def Gap (text : List Char) : Prop := ∀ c ∈ text, isBlank c = true

/-- It can be told whether there are blanks only. -/
instance (text : List Char) : Decidable (Gap text) := inferInstanceAs (Decidable (∀ c ∈ text, _))

/-! Strings. -/

/-- Whether a character is the hexadecimal digit with a value, in either case. -/
def IsHex (c : Char) (value : Nat) : Prop :=
  "0123456789abcdef".toList[value]? = some c ∨ "0123456789ABCDEF".toList[value]? = some c

/-- Whether a text consists of four hexadecimal digits that stand for a unit. -/
def IsUnit (text : List Char) (unit : Nat) : Prop :=
  ∃ a b c d w x y z, text = [a, b, c, d] ∧ IsHex a w ∧ IsHex b x ∧ IsHex c y ∧ IsHex d z ∧
    unit = ((w * 16 + x) * 16 + y) * 16 + z

/-- The characters that may follow a backslash, each with what the two stand for. -/
def escapes : List (Char × Char) :=
  [('"', '"'), ('\\', '\\'), ('/', '/'), ('b', '\x08'), ('f', '\x0c'), ('n', '\n'),
    ('r', '\r'), ('t', '\t')]

/-- Whether a character may stand for itself inside a string. -/
def IsPlain (c : Char) : Prop := c ≠ '"' ∧ c ≠ '\\' ∧ 0x20 ≤ c.toNat

/-- It can be told whether a character may stand for itself. -/
instance (c : Char) : Decidable (IsPlain c) := inferInstanceAs (Decidable (_ ∧ _ ∧ _))

/--
Whether a text is, behind a backslash, an escape for a character.

It is a letter of the table, or the code of a character, or the codes of two halves
that make up a character.
-/
def IsEscape (text : List Char) (c : Char) : Prop :=
  (∃ letter, (letter, c) ∈ escapes ∧ text = [letter]) ∨
  (∃ digits unit, IsUnit digits unit ∧ (unit < 0xD800 ∨ 0xE000 ≤ unit) ∧ c = Char.ofNat unit ∧
    text = 'u' :: digits) ∨
  ∃ digits more high low, IsUnit digits (0xD800 + high) ∧ high < 0x400 ∧
    IsUnit more (0xDC00 + low) ∧ low < 0x400 ∧
    c = Char.ofNat (0x10000 + high * 0x400 + low) ∧ text = 'u' :: (digits ++ '\\' :: 'u' :: more)

/-- How some content is spelled between quotes. -/
inductive Spelled : List Char → List Char → Prop where
  | nil : Spelled [] []
  | plain {c : Char} {text content : List Char} :
      IsPlain c → Spelled text content → Spelled (c :: text) (c :: content)
  | escape {letters text content : List Char} {c : Char} :
      IsEscape letters c → Spelled text content → Spelled ('\\' :: (letters ++ text)) (c :: content)

/-- Whether a text is a literal for a string. -/
def IsLiteral (text : List Char) (value : String) : Prop :=
  ∃ spelling, Spelled spelling value.toList ∧ text = '"' :: (spelling ++ ['"'])

/--
Whether a text is, behind a backslash, an escape where a code may be half of a
pair without the other half.
-/
def IsLooseEscape (text : List Char) : Prop :=
  (∃ letter c, (letter, c) ∈ escapes ∧ text = [letter]) ∨ ∃ digits unit, IsUnit digits unit ∧
    text = 'u' :: digits

/-- Whether something may stand between quotes where nobody asks what it stands for. -/
inductive IsQuoted : List Char → Prop where
  | nil : IsQuoted []
  | plain {c : Char} {text : List Char} : IsPlain c → IsQuoted text → IsQuoted (c :: text)
  | escape {letters text : List Char} :
      IsLooseEscape letters → IsQuoted text → IsQuoted ('\\' :: (letters ++ text))

/-! Numbers. -/

/-- Whether a text consists of digits, of which there is one at least. -/
def IsDigits (text : List Char) : Prop := text ≠ [] ∧ ∀ c ∈ text, isDigit c = true

/--
Whether a text is a number without sign, point and exponent: a zero, or digits
that begin with another one.
-/
def IsWhole (text : List Char) : Prop := IsDigits text ∧ (text.head? = some '0' → text = ['0'])

/-- Whether a text is nothing, or a point and digits. -/
def IsFraction (text : List Char) : Prop :=
  text = [] ∨ ∃ digits, IsDigits digits ∧ text = '.' :: digits

/-- Whether a text is nothing, or the letter of an exponent, perhaps a sign, and digits. -/
def IsExponent (text : List Char) : Prop :=
  text = [] ∨ ∃ letter sign digits, (letter = 'e' ∨ letter = 'E') ∧
    (sign = [] ∨ sign = ['+'] ∨ sign = ['-']) ∧
    IsDigits digits ∧ text = letter :: (sign ++ digits)

/-- Whether a text is a number behind its sign, whatever its size. -/
def IsUnsigned (text : List Char) : Prop :=
  ∃ whole fraction exponent, IsWhole whole ∧ IsFraction fraction ∧ IsExponent exponent ∧
    text = whole ++ (fraction ++ exponent)

/-- Whether a text is a number. -/
def IsNumber (text : List Char) : Prop :=
  ∃ digits, IsUnsigned digits ∧ (text = digits ∨ text = '-' :: digits)

/-! Lists and objects. -/

/--
Whether a text may stand in front of an entry: blanks, and a comma unless
the entry is the first one.
-/
def IsLead (first : Bool) (text : List Char) : Prop :=
  if first then Gap text else ∃ before after, Gap before ∧ Gap after ∧ text = before ++ ',' :: after

/-- Whether a text lists some entries, each written in a given way, up to the closing bracket. -/
def Listing {α : Type} (Written : α → List Char → Prop) : Bool → List α → List Char → Prop
  | _, [], text => Gap text
  | first, entry :: entries, text =>
    ∃ lead written rest, IsLead first lead ∧ Written entry written ∧
      Listing Written false entries rest ∧
      text = lead ++ (written ++ rest)

/-- The character that opens a bracket. -/
def Bracket.opening : Bracket → Char
  | .list => '['
  | .object => '\x7b'

/--
Whether a text stands for a value inside a bracket: just the value in a list,
and a key more in an object.
-/
def IsEntry : Bracket → List Char → List Char → Prop
  | .list, value, text => text = value
  | .object, value, text =>
    ∃ key before after, IsQuoted key ∧ Gap before ∧ Gap after ∧
      text = '"' :: (key ++ '"' :: (before ++ ':' :: (after ++ value)))

/-- The words that are values. -/
def words : List (List Char) := ["null".toList, "true".toList, "false".toList]

/-- Whether a text is a value, of which nobody asks what it stands for. -/
inductive IsValue : List Char → Prop where
  | word {text : List Char} : text ∈ words → IsValue text
  | number {text : List Char} : IsNumber text → IsValue text
  | string {text : List Char} : IsQuoted text → IsValue ('"' :: (text ++ ['"']))
  | bracket (bracket : Bracket) {values : List (List Char)} {text : List Char} :
      (∀ value ∈ values, IsValue value) → Listing (IsEntry bracket) true values text →
        IsValue (bracket.opening :: (text ++ [bracket.closing]))

/-- Whether a text is a member with a key and the text of a value. -/
def IsMember (member : String × List Char) (text : List Char) : Prop :=
  ∃ key before after, IsLiteral key member.1 ∧ Gap before ∧ Gap after ∧
    text = key ++ (before ++ ':' :: (after ++ member.2))

/--
Whether a text is an object with some members, each given by its key and the text of its value.
-/
def IsObject (members : List (String × List Char)) (text : List Char) : Prop :=
  ∃ inner, Listing IsMember true members inner ∧ text = '\x7b' :: (inner ++ ['\x7d'])

/-- Whether a text is a list of some items, each given by its text. -/
def IsList (items : List (List Char)) (text : List Char) : Prop :=
  ∃ inner, Listing (fun item written => written = item) true items inner ∧
    text = '[' :: (inner ++ [']'])

end TaskPool.Json
