import TaskPool.Json.Value

/-! What can be wrong with a JSON text, and at which line and column it shows. -/

namespace TaskPool.Json

/-- What a reader wanted to find at some place. -/
inductive Wanted where
  /-- The whole settings of a pool. -/
  | settings
  /-- A span of time. -/
  | span
  /-- A string. -/
  | text
  /-- A count of seconds. -/
  | seconds
  /-- A count of nanoseconds. -/
  | nanos
  /-- A count of bytes. -/
  | bytes
deriving DecidableEq, Repr

/-- How a reader names what it wanted. -/
def Wanted.describe : Wanted → String
  | .settings => "struct WorkerPoolConfig"
  | .span => "struct Duration"
  | .text => "a string"
  | .seconds => "u64"
  | .nanos => "u32"
  | .bytes => "usize"

/-- A value that was found where another kind of value was wanted. -/
inductive Found where
  | null
  | truth (value : Bool)
  | integer (value : Int)
  | float (value : Float)
  | text (value : String)
  | list
  | object

/-- How a reader names what it found. -/
def Found.describe : Found → String
  | .null => "null"
  | .truth value => "boolean \x60" ++ (if value then "true" else "false") ++ "\x60"
  | .integer value => "integer \x60" ++ toString value ++ "\x60"
  | .float value => "floating point \x60" ++ floatText value ++ "\x60"
  | .text value => "string " ++ Text.quoted value
  | .list => "sequence"
  | .object => "map"

/-- What is wrong with a text. -/
inductive Cause where
  /-- The text ends where a value is due or unfinished. -/
  | valueCut
  /-- The text ends inside a string. -/
  | textCut
  /-- The text ends inside a list. -/
  | listCut
  /-- The text ends inside an object. -/
  | objectCut
  /-- No value begins like this. -/
  | noValue
  /-- A word that is none of the three known ones. -/
  | badWord
  /-- A number that breaks off or goes on in a wrong way. -/
  | badNumber
  /-- A number beyond the largest finite one. -/
  | numberTooLarge
  /-- A basic control inside a string. -/
  | controlInText
  /-- An escape that does not exist. -/
  | badEscape
  /-- An escape that stands for one half of a pair without the other. -/
  | loneSurrogate
  /-- An escape for the first half of a pair that no second escape follows. -/
  | unfinishedPair
  /-- A key that is no string. -/
  | badKey
  /-- A comma in front of the closing bracket. -/
  | trailingComma
  /-- Something behind the end. -/
  | trailingText
  /-- Neither a comma nor the end behind an item. -/
  | noListComma
  /-- Neither a comma nor the end behind a member. -/
  | noObjectComma
  /-- No colon behind a key. -/
  | noColon
  /-- A value of the wrong kind. -/
  | wrongKind (found : Found) (wanted : Wanted)
  /-- A whole number outside the wanted range. -/
  | wrongInteger (value : Int) (wanted : Wanted)
  /-- A field that is given twice. -/
  | repeatedField (name : String)
  /-- A member of a span that spans do not have. -/
  | unknownField (name : String)
  /-- A field of a span that is not given. -/
  | missingField (name : String)
  /-- A list for a span with too few items. -/
  | shortSpan (length : Nat)
  /-- A span whose seconds do not fit their word. -/
  | spanTooLong

/-- The wording of each cause. -/
def Cause.describe : Cause → String
  | .valueCut => "EOF while parsing a value"
  | .textCut => "EOF while parsing a string"
  | .listCut => "EOF while parsing a list"
  | .objectCut => "EOF while parsing an object"
  | .noValue => "expected value"
  | .badWord => "expected ident"
  | .badNumber => "invalid number"
  | .numberTooLarge => "number out of range"
  | .controlInText => "control character (\\u0000-\\u001F) found while parsing a string"
  | .badEscape => "invalid escape"
  | .loneSurrogate => "lone leading surrogate in hex escape"
  | .unfinishedPair => "unexpected end of hex escape"
  | .badKey => "key must be a string"
  | .trailingComma => "trailing comma"
  | .trailingText => "trailing characters"
  | .noListComma => "expected \x60,\x60 or \x60]\x60"
  | .noObjectComma => "expected \x60,\x60 or \x60\x7d\x60"
  | .noColon => "expected \x60:\x60"
  | .wrongKind found wanted => "invalid type: " ++ found.describe ++ ", expected " ++
      wanted.describe
  | .wrongInteger value wanted =>
    "invalid value: " ++ (Found.integer value).describe ++ ", expected " ++ wanted.describe
  | .repeatedField name => "duplicate field \x60" ++ name ++ "\x60"
  | .unknownField name =>
    "unknown field \x60" ++ name ++ "\x60, expected \x60secs\x60 or \x60nanos\x60"
  | .missingField name => "missing field \x60" ++ name ++ "\x60"
  | .shortSpan length => "invalid length " ++ toString length ++ ", expected struct Duration"
  | .spanTooLong => "overflow deserializing Duration"

/-- The number of bytes that a text takes when it is stored. -/
def byteLength (text : List Char) : Nat := text.foldr (fun c length => c.utf8Size + length) 0

/-- A fault in a text: its cause, and where the reader stood when it found it. -/
structure Fault where
  /-- What is wrong. -/
  cause : Cause
  /-- The text that was not read yet. -/
  rest : List Char
  /--
  How many bytes of that text are counted as read for the place of the
  fault, as far as there are any.
  -/
  ahead : Nat

namespace Fault

/-- A fault noticed in what was already read. -/
def behind (cause : Cause) (rest : List Char) : Fault := ⟨cause, rest, 0⟩

/-- A fault noticed in the byte that comes next, or in its absence. -/
def here (cause : Cause) (rest : List Char) : Fault := ⟨cause, rest, 1⟩

/-- The number of bytes in front of the place of a fault. -/
def index (input : List Char) (fault : Fault) : Nat :=
  byteLength input - byteLength fault.rest + min fault.ahead (byteLength fault.rest)

end Fault

/-- The line, counted from one, and the column at which so many bytes of a text have passed. -/
def lineColumn (line column : Nat) : List Char → Nat → Nat × Nat
  | [], passed => (line, column + passed)
  | c :: rest, passed =>
    -- A character counts once all its bytes have passed.
    if passed < c.utf8Size then (line, column + passed)
    else if c = '\n' then lineColumn (line + 1) 0 rest (passed - 1)
    else lineColumn line (column + c.utf8Size) rest (passed - c.utf8Size)

/-- The wording of a fault in a text, with the place where it shows. -/
def Fault.describe (input : List Char) (fault : Fault) : String :=
  let place := lineColumn 1 0 input (fault.index input)
  fault.cause.describe ++ " at line " ++ toString place.1 ++ " column " ++ toString place.2

end TaskPool.Json
