import TaskPool.Number.Shortest
import TaskPool.Text.Quoted

/-! JSON values and their two written forms, on one line and indented. -/

namespace TaskPool.Json

/-- A JSON value whose numbers are either whole or double precision. -/
inductive Value where
  | null
  | truth (value : Bool)
  | integer (value : Int)
  | float (value : Float)
  | text (value : String)
  | list (items : List Value)
  | object (members : List (String × Value))

/-- A value that nothing is known about is null. -/
instance : Inhabited Value := ⟨.null⟩

/-- A natural number as a value. -/
def Value.natural (n : Nat) : Value := .integer n

/--
How one character stands in a string literal: only quotes, backslashes and the
basic controls are escaped.
-/
def escapedChar (c : Char) : List Char :=
  if c = '"' then ['\\', '"']
  else if c = '\\' then ['\\', '\\']
  else if c = '\x08' then ['\\', 'b']
  else if c = '\x0c' then ['\\', 'f']
  else if c = '\n' then ['\\', 'n']
  else if c = '\r' then ['\\', 'r']
  else if c = '\t' then ['\\', 't']
  else if c.toNat < 0x20 then
    ['\\', 'u', '0', '0', Text.hexDigit (c.toNat / 16), Text.hexDigit (c.toNat % 16)]
  else [c]

/-- A string literal. -/
def literal (s : String) : String :=
  String.ofList ('"' :: (s.toList.flatMap escapedChar ++ ['"']))

/--
Floating numbers keep a point up to sixteen digits before it, and have
a signed exponent beyond that.
-/
def floatStyle : Number.DecimalStyle := ⟨-5, 15, 1⟩

/-- The text of a floating number. -/
def floatText (x : Float) : String := floatStyle.writeFloat x

namespace Value

/-- The text of a value without parts. -/
def scalarText : Value → String
  | .null => "null"
  | .truth value => if value then "true" else "false"
  | .integer value => toString value
  | .float value => floatText value
  | .text value => literal value
  | .list _ => "[]"
  | .object _ => "\x7b\x7d"

mutual

/-- A value on one line, without any blank outside its strings. -/
def compact : Value → String
  | .list items => "[" ++ compactItems items ++ "]"
  | .object members => "\x7b" ++ compactMembers members ++ "\x7d"
  | value => value.scalarText

/-- Items on one line, with commas between them. -/
def compactItems : List Value → String
  | [] => ""
  | [value] => compact value
  | value :: rest => compact value ++ "," ++ compactItems rest

/-- Members on one line, with commas between them. -/
def compactMembers : List (String × Value) → String
  | [] => ""
  | [(key, value)] => literal key ++ ":" ++ compact value
  | (key, value) :: rest => literal key ++ ":" ++ compact value ++ "," ++ compactMembers rest

end

/-- A new line and the blanks in front of it, two for each level. -/
def lineAt (depth : Nat) : String := String.ofList ('\n' :: List.replicate (2 * depth) ' ')

mutual

/--
A value with each part on a line of its own, where the value itself stands at the given depth.
-/
def prettyAt (depth : Nat) : Value → String
  | .list (first :: rest) =>
    "[" ++ lineAt (depth + 1) ++ prettyItems (depth + 1) (first :: rest) ++ lineAt depth ++ "]"
  | .object (first :: rest) =>
    "\x7b" ++ lineAt (depth + 1) ++ prettyMembers (depth + 1) (first :: rest) ++
    lineAt depth ++ "\x7d"
  | value => value.scalarText

/-- Items on lines of their own, with commas between them. -/
def prettyItems (depth : Nat) : List Value → String
  | [] => ""
  | [value] => prettyAt depth value
  | value :: rest => prettyAt depth value ++ "," ++ lineAt depth ++ prettyItems depth rest

/-- Members on lines of their own, with commas between them. -/
def prettyMembers (depth : Nat) : List (String × Value) → String
  | [] => ""
  | [(key, value)] => literal key ++ ": " ++ prettyAt depth value
  | (key, value) :: rest =>
    literal key ++ ": " ++ prettyAt depth value ++ "," ++ lineAt depth ++ prettyMembers depth rest

end

/-- A value with each part on a line of its own. -/
def pretty (value : Value) : String := prettyAt 0 value

end Value

end TaskPool.Json
