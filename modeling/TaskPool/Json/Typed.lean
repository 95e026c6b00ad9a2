import TaskPool.Json.Skip

/-!
Reading values of a wanted kind, and walking over the items of a list and the members of an object.
-/

namespace TaskPool.Json

/-- What kind of value a number is. -/
def Numeral.found : Numeral → Found
  | .whole value => .integer value
  | .float value => .float value

/--
The fault when a value begins with this character but another kind was wanted;
the value itself is read first.
-/
def wrongKindAt (wanted : Wanted) (first : Char) (rest : List Char) : Fault :=
  let word := fun (word : List Char) (found : Found) =>
    match readWord word rest with
    | .error fault => fault
    | .ok rest => .behind (.wrongKind found wanted) rest
  let number := fun (negative : Bool) (text : List Char) =>
    match readNumeral negative text with
    | .error fault => fault
    | .ok (value, rest) => .behind (.wrongKind value.found wanted) rest
  match first with
  | 'n' => word ['u', 'l', 'l'] .null
  | 't' => word ['r', 'u', 'e'] (.truth true)
  | 'f' => word ['a', 'l', 's', 'e'] (.truth false)
  | '-' => number true rest
  | '"' =>
    match readString rest with
    | .error fault => fault
    | .ok (content, rest) => .behind (.wrongKind (.text (String.ofList content)) wanted) rest
  | '[' => .behind (.wrongKind .list wanted) (first :: rest)
  | '\x7b' => .behind (.wrongKind .object wanted) (first :: rest)
  | _ => if isDigit first then number false (first :: rest) else .here .noValue (first :: rest)

/-- Reads a string. -/
def readText (text : List Char) : Except Fault (String × List Char) :=
  match skipBlanks text with
  | [] => .error (.here .valueCut [])
  | c :: rest =>
    if c = '"' then mapRead String.ofList (readString rest)
    else .error (wrongKindAt .text c rest)

/-- A number of the wanted kind: whole, not negative and below the limit. -/
def Numeral.below (limit : Nat) (wanted : Wanted) (rest : List Char) :
    Numeral → Except Fault (Nat × List Char)
  | .whole value =>
    if 0 ≤ value && value < limit then .ok (value.toNat, rest)
    else .error (.behind (.wrongInteger value wanted) rest)
  | .float value => .error (.behind (.wrongKind (.float value) wanted) rest)

/-- Reads a natural number below a limit. -/
def readBelow (limit : Nat) (wanted : Wanted) (text : List Char) : Except Fault (Nat × List Char) :=
  match skipBlanks text with
  | [] => .error (.here .valueCut [])
  | c :: rest =>
    if c = '-' then
      match readNumeral true rest with
      | .error fault => .error fault
      | .ok (value, rest) => value.below limit wanted rest
    else if isDigit c then
      match readNumeral false (c :: rest) with
      | .error fault => .error fault
      | .ok (value, rest) => value.below limit wanted rest
    else .error (wrongKindAt wanted c rest)

/-- Reads a list or an object behind any blanks, each in its own way behind its opening bracket. -/
def readBracketed {α : Type} (wanted : Wanted)
    (items members : List Char → Except Fault (α × List Char)) (text : List Char) :
    Except Fault (α × List Char) :=
  match skipBlanks text with
  | [] => .error (.here .valueCut [])
  | c :: rest =>
    if c = '[' then items rest
    else if c = '\x7b' then members rest
    else .error (wrongKindAt wanted c rest)

/-- Reads the colon behind a key. -/
def readColon (text : List Char) : Except Fault (List Char) :=
  match skipBlanks text with
  | [] => .error (.here .objectCut [])
  | c :: rest => if c = ':' then .ok rest else .error (.here .noColon (c :: rest))

/-- Reads a key, where the text begins with it. -/
def readKey : List Char → Except Fault (Option String × List Char)
  | [] => .error (.here .valueCut [])
  | c :: rest =>
    if c = '"' then mapRead (some ∘ String.ofList) (readString rest)
    else .error (.here .badKey (c :: rest))

/-- Reads the key of the next member, or no key at the end of the object. -/
def nextKey (first : Bool) (text : List Char) : Except Fault (Option String × List Char) :=
  match skipBlanks text with
  | [] => .error (.here .objectCut [])
  | c :: rest =>
    if c = '\x7d' then .ok (none, rest)
    else if first then readKey (c :: rest)
    else if c = ',' then
      let after := skipBlanks rest
      if after.head? = some '\x7d' then .error (.here .trailingComma after) else readKey after
    else .error (.here .noObjectComma (c :: rest))

/-- Goes to the next item and says that there is one, or passes the end of the list. -/
def nextItem (first : Bool) (text : List Char) : Except Fault (Bool × List Char) :=
  match skipBlanks text with
  | [] => .error (.here .listCut [])
  | c :: rest =>
    if c = ']' then .ok (false, rest)
    else if first then .ok (true, c :: rest)
    else if c = ',' then
      match skipBlanks rest with
      | [] => .error (.here .valueCut [])
      | c :: rest => if c = ']' then .error (.here .trailingComma (c :: rest))
          else .ok (true, c :: rest)
    else .error (.here .noListComma (c :: rest))

/-- Reads the end of a list of which no more items are wanted. -/
def closeList (text : List Char) : Except Fault (List Char) :=
  match skipBlanks text with
  | [] => .error (.here .listCut [])
  | c :: rest =>
    if c = ']' then .ok rest
    else if c = ',' then
      let after := skipBlanks rest
      .error (.here (if after.head? = some ']' then .trailingComma else .trailingText) after)
    else .error (.here .trailingText (c :: rest))

/--
A fault in the meaning of an object, which shows where the reader stops after trying to close it.
-/
def faultInObject (cause : Cause) (text : List Char) : Fault :=
  match skipBlanks text with
  | '\x7d' :: rest => .behind cause rest
  | rest => .behind cause rest

/--
A fault in the meaning of a list, which shows where the reader stops after trying to close it.
-/
def faultInList (cause : Cause) (text : List Char) : Fault :=
  match skipBlanks text with
  | ']' :: rest => .behind cause rest
  | ',' :: rest => .behind cause (skipBlanks rest)
  | rest => .behind cause rest

/-- A string that was read is gone from the text. -/
theorem readText_length {text rest : List Char} {value : String}
    (read : readText text = .ok (value, rest)) :
    rest.length < text.length := by
  -- Blanks go first, then the quote, and then the string.
  have blanks := skipBlanks_length text
  unfold readText at read
  split at read
  · simp at read
  · rename_i after skipped
    rw [skipped] at blanks
    simp at blanks
    split at read
    · obtain ⟨_, found, _⟩ := mapRead_eq_ok.mp read
      have := readString_length found
      omega
    · simp at read

/-- A number that is kept leaves the text behind it. -/
theorem Numeral.below_rest {limit : Nat} {wanted : Wanted} {text rest : List Char}
    {numeral : Numeral} {value : Nat} (read : numeral.below limit wanted text = .ok (value, rest)) :
    rest = text := by
  -- The limit does not look at the text.
  unfold Numeral.below at read
  split at read
  · split at read <;> simp at read
    exact read.2.symm
  · simp at read

/-- A natural number that was read is gone from the text. -/
theorem readBelow_length {limit : Nat} {wanted : Wanted} {text rest : List Char} {value : Nat}
    (read : readBelow limit wanted text = .ok (value, rest)) : rest.length < text.length := by
  -- Blanks go first, and then the number.
  have blanks := skipBlanks_length text
  unfold readBelow at read
  split at read
  · simp at read
  · rename_i skipped
    rw [skipped] at blanks
    simp at blanks
    split at read
    · split at read
      · simp at read
      · rename_i found
        have := readNumeral_length found
        rw [Numeral.below_rest read]
        omega
    · split at read
      · split at read
        · simp at read
        · rename_i found
          have := readNumeral_length found
          simp at this
          rw [Numeral.below_rest read]
          omega
      · simp at read

/-- A list or an object that was read is gone from the text, if what is behind its bracket is. -/
theorem readBracketed_length {α : Type} {wanted : Wanted}
    {items members : List Char → Except Fault (α × List Char)} {text rest : List Char} {value : α}
    (list : ∀ {text}, items text = .ok (value, rest) → rest.length < text.length)
    (object : ∀ {text}, members text = .ok (value, rest) → rest.length < text.length)
    (read : readBracketed wanted items members text = .ok (value, rest)) :
    rest.length < text.length := by
  -- Blanks go first, then a bracket, and then what it opens.
  have blanks := skipBlanks_length text
  unfold readBracketed at read
  split at read
  · simp at read
  · rename_i skipped
    rw [skipped] at blanks
    simp at blanks
    split at read
    · have := list read
      omega
    · split at read
      · have := object read
        omega
      · simp at read

/-- A colon that was read is gone from the text. -/
theorem readColon_length {text rest : List Char} (read : readColon text = .ok rest) :
    rest.length < text.length := by
  -- Blanks go first, and then the colon.
  have blanks := skipBlanks_length text
  unfold readColon at read
  split at read
  · simp at read
  · rename_i skipped
    rw [skipped] at blanks
    split at read <;> simp at read
    simp at blanks
    simp [← read]
    omega

/-- A key that was read is gone from the text. -/
theorem readKey_length {text rest : List Char} {key : Option String}
    (read : readKey text = .ok (key, rest)) :
    rest.length < text.length := by
  -- The quote goes first, and then the string.
  unfold readKey at read
  split at read
  · simp at read
  · rename_i after
    split at read
    · obtain ⟨_, found, _⟩ := mapRead_eq_ok.mp read
      have := readString_length found
      simp
      omega
    · simp at read

/-- A key or an end that was read is gone from the text. -/
theorem nextKey_length {first : Bool} {text rest : List Char} {key : Option String}
    (read : nextKey first text = .ok (key, rest)) : rest.length < text.length := by
  -- Blanks go first, then the end or a comma with more blanks, and then the key.
  have blanks := skipBlanks_length text
  unfold nextKey at read
  split at read
  · simp at read
  · rename_i after skipped
    have more := skipBlanks_length after
    rw [skipped] at blanks
    simp at blanks
    split at read
    · simp at read
      simp [← read.2]
      omega
    · split at read
      · have := readKey_length read
        simp at this
        omega
      · split at read
        · simp only at read
          split at read
          · simp at read
          · have := readKey_length read
            omega
        · simp at read

/-- Going to an item never makes a text longer. -/
theorem nextItem_length {first there : Bool} {text rest : List Char}
    (read : nextItem first text = .ok (there, rest)) : rest.length ≤ text.length := by
  -- Blanks go first, and then the end of the list, or a comma, or nothing more.
  have blanks := skipBlanks_length text
  unfold nextItem at read
  split at read
  · simp at read
  · rename_i after skipped
    have more := skipBlanks_length after
    rw [skipped] at blanks
    simp at blanks
    split at read
    · simp at read
      simp [← read.2]
      omega
    · split at read
      · simp at read
        simp [← read.2]
        omega
      · split at read
        · split at read
          · simp at read
          · rename_i second
            rw [second] at more
            simp at more
            split at read <;> simp at read
            simp [← read.2]
            omega
        · simp at read

/-- The end of a list that was read is gone from the text. -/
theorem closeList_length {text rest : List Char} (read : closeList text = .ok rest) :
    rest.length < text.length := by
  -- Blanks go first, and then the bracket.
  have blanks := skipBlanks_length text
  unfold closeList at read
  split at read
  · simp at read
  · rename_i skipped
    rw [skipped] at blanks
    simp at blanks
    split at read
    · simp at read
      simp [← read]
      omega
    · split at read <;> simp at read

end TaskPool.Json
