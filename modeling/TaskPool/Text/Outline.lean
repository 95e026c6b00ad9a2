import TaskPool.Text.Quoted

/-! Outlines: the text of a labelled value, on one line or with one part a line. -/

namespace TaskPool.Text

/--
A labelled value: a finished text, a record of named parts, or a label applied to unnamed parts.
-/
inductive Outline where
  /-- A text that is shown as it is. -/
  | atom (text : String)
  /-- A label with named parts between braces. -/
  | record (label : String) (parts : List (String × Outline))
  /-- A label with unnamed parts between parentheses. -/
  | apply (label : String) (parts : List Outline)

namespace Outline

/-- A number is its decimal digits. -/
def number (n : Nat) : Outline := .atom (toString n)

/-- A truth value is its English name. -/
def truth (b : Bool) : Outline := .atom (if b then "true" else "false")

/-- A string is quoted. -/
def text (s : String) : Outline := .atom (quoted s)

/-- An optional value is labelled by whether it is there. -/
def optional (shape : α → Outline) : Option α → Outline
  | none => .atom "None"
  | some value => .apply "Some" [shape value]

mutual

/-- The whole value on one line. -/
def compact : Outline → String
  | .atom text => text
  | .record label parts => label ++ " \x7b " ++ compactFields parts ++ " \x7d"
  | .apply label parts => label ++ "(" ++ compactItems parts ++ ")"

/-- Named parts on one line, with commas between them. -/
def compactFields : List (String × Outline) → String
  | [] => ""
  | [(name, value)] => name ++ ": " ++ compact value
  | (name, value) :: rest => name ++ ": " ++ compact value ++ ", " ++ compactFields rest

/-- Unnamed parts on one line, with commas between them. -/
def compactItems : List Outline → String
  | [] => ""
  | [value] => compact value
  | value :: rest => compact value ++ ", " ++ compactItems rest

end

/-- The blanks in front of a line at a depth of nesting, four for each level. -/
def margin (depth : Nat) : String := String.ofList (List.replicate (4 * depth) ' ')

mutual

/-- The value with one part a line, where the surrounding text stands at the given depth. -/
def prettyAt (depth : Nat) : Outline → String
  | .atom text => text
  | .record label parts =>
    label ++ " \x7b\n" ++ prettyFields (depth + 1) parts ++ margin depth ++ "\x7d"
  | .apply label parts => label ++ "(\n" ++ prettyItems (depth + 1) parts ++ margin depth ++ ")"

/-- Named parts, each on lines of its own and with a comma behind it. -/
def prettyFields (depth : Nat) : List (String × Outline) → String
  | [] => ""
  | (name, value) :: rest =>
    margin depth ++ name ++ ": " ++ prettyAt depth value ++ ",\n" ++ prettyFields depth rest

/-- Unnamed parts, each on lines of its own and with a comma behind it. -/
def prettyItems (depth : Nat) : List Outline → String
  | [] => ""
  | value :: rest => margin depth ++ prettyAt depth value ++ ",\n" ++ prettyItems depth rest

end

/-- The value with one part a line. -/
def pretty (value : Outline) : String := prettyAt 0 value

end Outline

end TaskPool.Text
