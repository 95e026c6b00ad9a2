import TaskPool.Json.Typed

/-!
Reading any value.

The containers that are part way read are held in a list, so a value may nest to any depth.
The members of an object come out in the order of their keys, and of two members with one
key the later one counts.
-/

namespace TaskPool.Json

/-- A number as a value. -/
def Numeral.toValue : Numeral → Value
  | .whole value => .integer value
  | .float value => .float value

/--
Puts a member among others that stand in the order of their keys, in place of one with the same key.
-/
def insertMember (key : String) (value : Value) : List (String × Value) → List (String × Value)
  | [] => [(key, value)]
  | (other, present) :: rest =>
    if key < other then (key, value) :: (other, present) :: rest
    else if key = other then (key, value) :: rest
    else (other, present) :: insertMember key value rest

/-- A container that is part way read. -/
inductive Frame where
  /-- A list, with the items so far from the last to the first. -/
  | list (items : List Value)
  /-- An object, with the members so far in order, and the key of the value that is due. -/
  | object (members : List (String × Value)) (key : String)

/-- Reads a value without parts, behind its first character. -/
def readScalar (first : Char) (rest : List Char) : Except Fault (Value × List Char) :=
  match first with
  | 'n' => (readWord ['u', 'l', 'l'] rest).map fun rest => (.null, rest)
  | 't' => (readWord ['r', 'u', 'e'] rest).map fun rest => (.truth true, rest)
  | 'f' => (readWord ['a', 'l', 's', 'e'] rest).map fun rest => (.truth false, rest)
  | '-' => mapRead Numeral.toValue (readNumeral true rest)
  | '"' => mapRead (fun content => .text (String.ofList content)) (readString rest)
  | c =>
    if isDigit c then mapRead Numeral.toValue (readNumeral false (c :: rest))
    else .error (.here .noValue (c :: rest))

/-- A word that was read leaves no more than it had, whatever it stands for. -/
theorem readWord_map_length {word text rest : List Char} {meant value : Value}
    (read : (readWord word text).map (fun rest => (meant, rest)) = .ok (value, rest)) :
    rest.length ≤ text.length := by
  -- The word alone decides what is left.
  cases found : readWord word text with
  | error fault => simp [found, Except.map] at read
  | ok left =>
    simp [found, Except.map] at read
    exact read.2 ▸ readWord_length found

/-- A value without parts leaves no more than it had. -/
theorem readScalar_length {first : Char} {text rest : List Char} {value : Value}
    (read : readScalar first text = .ok (value, rest)) : rest.length ≤ text.length := by
  -- The first character tells which kind of value it is.
  unfold readScalar at read
  split at read
  · exact readWord_map_length read
  · exact readWord_map_length read
  · exact readWord_map_length read
  · obtain ⟨_, found, _⟩ := mapRead_eq_ok.mp read
    exact Nat.le_of_lt (readNumeral_length found)
  · obtain ⟨_, found, _⟩ := mapRead_eq_ok.mp read
    exact Nat.le_of_lt (readString_length found)
  · split at read
    · obtain ⟨_, found, _⟩ := mapRead_eq_ok.mp read
      have := readNumeral_length found
      simp at this
      omega
    · simp at read

/-- Reads the key of the next member with its colon, or no key at the end of the object. -/
def nextMember (first : Bool) (text : List Char) : Except Fault (Option String × List Char) :=
  match nextKey first text with
  | .error fault => .error fault
  | .ok (none, rest) => .ok (none, rest)
  | .ok (some key, rest) => (readColon rest).map fun rest => (some key, rest)

/-- A key or an end that was read is gone from the text. -/
theorem nextMember_length {first : Bool} {text rest : List Char} {key : Option String}
    (read : nextMember first text = .ok (key, rest)) : rest.length < text.length := by
  -- The key goes first, and then its colon.
  unfold nextMember at read
  split at read
  · simp at read
  · rename_i found
    have := nextKey_length found
    simp at read
    exact read.2 ▸ this
  · rename_i after found
    have := nextKey_length found
    cases colon : readColon after with
    | error fault => simp [colon, Except.map] at read
    | ok left =>
      have := readColon_length colon
      simp [colon, Except.map] at read
      rw [← read.2]
      omega

/--
Goes on with a value that is part way read, whose containers are listed from the inside.

Either a value is due, or one has just been read and belongs to the innermost container.
-/
def readOpen (last : Option Value) (frames : List Frame) (text : List Char) :
    Except Fault (Value × List Char) :=
  match last, frames with
  | none, frames =>
    match _ : skipBlanks text with
    | [] => .error (.here .valueCut [])
    | '[' :: rest =>
      match _ : nextItem true rest with
      | .error fault => .error fault
      | .ok (false, rest) => readOpen (some (.list [])) frames rest
      | .ok (true, rest) => readOpen none (.list [] :: frames) rest
    | '\x7b' :: rest =>
      match _ : nextMember true rest with
      | .error fault => .error fault
      | .ok (none, rest) => readOpen (some (.object [])) frames rest
      | .ok (some key, rest) => readOpen none (.object [] key :: frames) rest
    | c :: rest =>
      match _ : readScalar c rest with
      | .error fault => .error fault
      | .ok (value, rest) => readOpen (some value) frames rest
  | some value, [] => .ok (value, text)
  | some value, .list items :: frames =>
    match _ : nextItem false text with
    | .error fault => .error fault
    | .ok (false, rest) => readOpen (some (.list (value :: items).reverse)) frames rest
    | .ok (true, rest) => readOpen none (.list (value :: items) :: frames) rest
  | some value, .object members key :: frames =>
    match _ : nextMember false text with
    | .error fault => .error fault
    | .ok (none, rest) => readOpen (some (.object (insertMember key value members))) frames rest
    | .ok (some next, rest) =>
      readOpen none (.object (insertMember key value members) next :: frames) rest
termination_by (text.length, if last.isNone then 0 else 1, frames.length)
decreasing_by
  all_goals
    have blanks := skipBlanks_length text
    try rw [‹skipBlanks text = _›] at blanks
    try have := readScalar_length ‹readScalar _ _ = _›
    try have := nextItem_length ‹nextItem _ _ = _›
    try have := nextMember_length ‹nextMember _ _ = _›
    simp [Prod.lex_def] at *
    omega

/-- Reads one value in front of any blanks. -/
def readValue (text : List Char) : Except Fault (Value × List Char) := readOpen none [] text

/-- The value that a whole text stands for. -/
def Value.parse (text : String) : Except Fault Value :=
  match readValue text.toList with
  | .error fault => .error fault
  | .ok (value, rest) =>
    match skipBlanks rest with
    | [] => .ok value
    | rest => .error (.here .trailingText rest)

end TaskPool.Json
