import TaskPool.Json.Fault

/-! The smallest pieces of a JSON text: blanks, words, and strings with their escapes. -/

namespace TaskPool.Json

/-- The result of a reader, with what it read changed by a function and the text left over kept. -/
def mapRead (f : α → β) : Except Fault (α × List Char) → Except Fault (β × List Char)
  | .error fault => .error fault
  | .ok (value, rest) => .ok (f value, rest)

/-- A changed result comes from a result with the same text left over. -/
theorem mapRead_eq_ok {f : α → β} {result : Except Fault (α × List Char)} {value : β}
    {rest : List Char} :
    mapRead f result = .ok (value, rest) ↔ ∃ first, result = .ok (first, rest) ∧
      f first = value := by
  -- A fault is passed on, and a value is replaced by what is made of it.
  match result with
  | .error _ => simp [mapRead]
  | .ok (first, left) =>
    simp only [mapRead, Except.ok.injEq, Prod.mk.injEq]
    constructor
    · intro ⟨same, ends⟩
      exact ⟨first, ⟨rfl, ends⟩, same⟩
    · intro ⟨_, ⟨here, ends⟩, same⟩
      exact ⟨here ▸ same, ends⟩

/-- The four blanks that may stand between pieces. -/
def isBlank (c : Char) : Bool := c = ' ' || c = '\n' || c = '\t' || c = '\r'

/-- The text behind any blanks. -/
def skipBlanks (text : List Char) : List Char := text.dropWhile isBlank

/-- Reads the rest of a known word, character by character. -/
def readWord : List Char → List Char → Except Fault (List Char)
  | [], text => .ok text
  | _ :: _, [] => .error (.behind .valueCut [])
  | wanted :: word, c :: text =>
    if c = wanted then readWord word text else .error (.here .badWord (c :: text))

/-- The value of a hexadecimal digit in either case. -/
def hexValue? (c : Char) : Option Nat :=
  if '0' ≤ c && c ≤ '9' then some (c.toNat - 48)
  else if 'a' ≤ c && c ≤ 'f' then some (c.toNat - 87)
  else if 'A' ≤ c && c ≤ 'F' then some (c.toNat - 55)
  else none

/-- The number that four hexadecimal digits stand for. -/
def hexNumber? (a b c d : Char) : Option Nat := do
  let a ← hexValue? a
  let b ← hexValue? b
  let c ← hexValue? c
  let d ← hexValue? d
  return ((a * 16 + b) * 16 + c) * 16 + d

/--
The fault in a text that does not begin with four hexadecimal digits: it is too
short, or some byte is wrong.
-/
def unitFault (text : List Char) : Fault :=
  -- Either way the four bytes are counted as read, as far as they are there.
  ⟨if byteLength (text.take 4) < 4 then .textCut else .badEscape, text, 4⟩

/-- Reads four hexadecimal digits. -/
def readUnit : List Char → Except Fault (Nat × List Char)
  | a :: b :: c :: d :: rest =>
    match hexNumber? a b c d with
    | some value => .ok (value, rest)
    | none => .error (unitFault (a :: b :: c :: d :: rest))
  | text => .error (unitFault text)

/-- The character behind a backslash that stands for itself or for a control. -/
def simpleEscape? : Char → Option Char
  | '"' => some '"'
  | '\\' => some '\\'
  | '/' => some '/'
  | 'b' => some '\x08'
  | 'f' => some '\x0c'
  | 'n' => some '\n'
  | 'r' => some '\r'
  | 't' => some '\t'
  | _ => none

/-- Whether a unit is the first half of a pair. -/
def isLeading (unit : Nat) : Bool := 0xD800 ≤ unit && unit ≤ 0xDBFF

/-- Whether a unit is the second half of a pair. -/
def isTrailing (unit : Nat) : Bool := 0xDC00 ≤ unit && unit ≤ 0xDFFF

/-- The character that two halves stand for. -/
def pairChar (leading trailing : Nat) : Char :=
  Char.ofNat (0x10000 + (leading - 0xD800) * 0x400 + (trailing - 0xDC00))

/-- Reads the second half of a pair, with the backslash and the letter in front of it. -/
def readTrailing : List Char → Except Fault (Nat × List Char)
  | '\\' :: 'u' :: rest =>
    match readUnit rest with
    | .error fault => .error fault
    | .ok (unit, rest) =>
      if isTrailing unit then .ok (unit, rest) else .error (.behind .loneSurrogate rest)
  | [] => .error (.behind .textCut [])
  | ['\\'] => .error (.behind .textCut [])
  | '\\' :: rest => .error (.here .unfinishedPair rest)
  | text => .error (.here .unfinishedPair text)

/-- Reads an escape by code, behind its backslash and letter. -/
def readCodeEscape (text : List Char) : Except Fault (Char × List Char) :=
  match readUnit text with
  | .error fault => .error fault
  | .ok (unit, rest) =>
    if isTrailing unit then .error (.behind .loneSurrogate rest)
    else if isLeading unit then
      match readTrailing rest with
      | .error fault => .error fault
      | .ok (trailing, rest) => .ok (pairChar unit trailing, rest)
    else .ok (Char.ofNat unit, rest)

/-- Reads an escape behind its backslash. -/
def readEscape : List Char → Except Fault (Char × List Char)
  | [] => .error (.behind .textCut [])
  | 'u' :: rest => readCodeEscape rest
  | c :: rest =>
    match simpleEscape? c with
    | some escaped => .ok (escaped, rest)
    | none => .error (.here .badEscape (c :: rest))

/-- Four digits that were read are gone from the text. -/
theorem readUnit_length {text rest : List Char} {unit : Nat}
    (read : readUnit text = .ok (unit, rest)) :
    rest.length < text.length := by
  -- Four digits are needed, and no fewer are taken.
  unfold readUnit at read
  split at read
  · split at read <;> simp_all
    omega
  · simp at read

/-- A second half that was read is gone from the text. -/
theorem readTrailing_length {text rest : List Char} {unit : Nat}
    (read : readTrailing text = .ok (unit, rest)) :
    rest.length < text.length := by
  -- The mark in front of the second half is gone, and its digits are as well.
  unfold readTrailing at read
  split at read
  · split at read
    · simp at read
    · rename_i found
      split at read <;> simp at read
      have := readUnit_length found
      simp [← read.2]
      omega
  all_goals simp at read

/-- An escape by code that was read is gone from the text. -/
theorem readCodeEscape_length {text rest : List Char} {c : Char}
    (read : readCodeEscape text = .ok (c, rest)) : rest.length < text.length := by
  -- Either the first half is all there is, or the second one follows it.
  unfold readCodeEscape at read
  split at read
  · simp at read
  · rename_i found
    have first := readUnit_length found
    split at read
    · simp at read
    · split at read
      · split at read
        · simp at read
        · rename_i second
          have := readTrailing_length second
          simp at read
          simp [← read.2]
          omega
      · simp at read
        simp [← read.2, first]

/-- An escape that was read is gone from the text. -/
theorem readEscape_length {text rest : List Char} {c : Char}
    (read : readEscape text = .ok (c, rest)) :
    rest.length < text.length := by
  -- An escape is one letter, or a letter with a code behind it.
  unfold readEscape at read
  split at read
  · simp at read
  · have := readCodeEscape_length read
    simp
    omega
  · split at read <;> simp at read
    simp [← read.2]

/-- Reads a string behind its opening quote, up to and with its closing one. -/
def readString (text : List Char) : Except Fault (List Char × List Char) :=
  match text with
  | [] => .error (.behind .textCut [])
  | '"' :: rest => .ok ([], rest)
  | '\\' :: rest =>
    match _ : readEscape rest with
    | .error fault => .error fault
    | .ok (c, rest) => mapRead (c :: ·) (readString rest)
  | c :: rest =>
    if c.toNat < 0x20 then .error (.here .controlInText (c :: rest))
    else mapRead (c :: ·) (readString rest)
termination_by text.length
decreasing_by
  · have := readEscape_length ‹_›
    simp
    omega
  · simp

/-- A string that was read is gone from the text. -/
theorem readString_length {text content rest : List Char}
    (read : readString text = .ok (content, rest)) : rest.length < text.length := by
  -- One step takes a character or an escape, and the rest is shorter still.
  fun_induction readString text generalizing content with
  | case1 => simp at read
  | case2 => simp_all
  | case3 => simp at read
  | case4 _ _ _ found ih =>
    obtain ⟨_, inner, _⟩ := mapRead_eq_ok.mp read
    have := ih inner
    have := readEscape_length found
    simp
    omega
  | case5 => simp at read
  | case6 _ _ _ _ _ ih =>
    obtain ⟨_, inner, _⟩ := mapRead_eq_ok.mp read
    have := ih inner
    simp
    omega

/-- Passes over the blanks at the front, which never makes a text longer. -/
theorem skipBlanks_length (text : List Char) : (skipBlanks text).length ≤ text.length :=
  (List.dropWhile_suffix _).length_le

end TaskPool.Json
