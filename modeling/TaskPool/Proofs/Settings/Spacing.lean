import Mathlib.Data.List.Basic
import Mathlib.Tactic.SplitIfs
import TaskPool.Proofs.Json.Layout
import TaskPool.Settings.Document

/-!
The two written forms of a document differ only in blanks and line breaks that stand
outside its string literals.
-/

namespace TaskPool

namespace Json

/-! A scan along a document that knows where its string literals begin and end. -/

/--
Where a scan of a document stands: between string literals, in one of them,
or behind a backslash in one.
-/
inductive Place where
  | between
  | inside
  | escaped
deriving DecidableEq

/--
Where a scan stands behind a character: a quote begins a literal, or ends it unless
a backslash is before it.
-/
def Place.behind : Place → Char → Place
  | .between, c => if c = '"' then .inside else .between
  | .inside, c => if c = '"' then .between else if c = '\\' then .escaped else .inside
  | .escaped, _ => .inside

/--
The characters of a text from some place on, each with whether it belongs to a
literal, as its quotes do.
-/
def marked (place : Place) : List Char → List (Char × Bool)
  | [] => []
  | c :: rest => (c, place ≠ .between || c = '"') :: marked (place.behind c) rest

/-- A text without the blanks and the line breaks that do not belong to a literal. -/
def squeezed (text : List Char) : List Char :=
  ((marked .between text).filter fun mark => mark.2 || (mark.1 ≠ ' ' && mark.1 ≠ '\n')).map (·.1)

/-- What belongs to the literals of a text, one literal behind the other. -/
def literalsIn (text : List Char) : List Char := ((marked .between text).filter (·.2)).map (·.1)

/-- An escaped quote does not end its literal, so the blanks around it stay. -/
example : squeezed "[ \"a \\\" b\", 1 ]".toList = "[\"a \\\" b\",1]".toList := by decide

/--
Whether a scan goes over a text from between literals to between literals, and marks it in some way.
-/
def Marks (text : List Char) (marks : List (Char × Bool)) : Prop :=
  ∀ rest, marked .between (text ++ rest) = marks ++ marked .between rest

/-- A digit of a code in a literal neither ends the literal nor escapes anything. -/
theorem hexDigit_plain :
    ∀ {value : Nat}, value < 16 → Text.hexDigit value ≠ '"' ∧ Text.hexDigit value ≠ '\\' := by
  decide

/-- However a character is written in a literal, the scan stays in this literal. -/
theorem marked_escapedChar (c : Char) (rest : List Char) :
    marked .inside (escapedChar c ++ rest) = (escapedChar c).map (·, true) ++
    marked .inside rest := by
  unfold escapedChar
  -- The first seven ways are a backslash and a letter, the eighth is a code,
  -- and the last is the character itself.
  split_ifs with quote backslash backspace feed line carriage tab control
  iterate 7 · simp [marked, Place.behind]
  · obtain ⟨high, high'⟩ := hexDigit_plain (by omega : c.toNat / 16 < 16)
    obtain ⟨low, low'⟩ := hexDigit_plain (by omega : c.toNat % 16 < 16)
    simp [marked, Place.behind, high, high', low, low']
  · simp [marked, Place.behind, quote, backslash]

/-- All of a literal belongs to it, and the scan is between literals behind it. -/
theorem marks_literal (s : String) :
    Marks (literal s).toList ((literal s).toList.map (·, true)) := by
  have content (chars rest : List Char) : marked .inside (chars.flatMap escapedChar ++
    '"' :: rest) =
      (chars.flatMap escapedChar).map (·, true) ++ ('"', true) :: marked .between rest := by
    -- The induction takes one character with its way of writing off the front.
    induction chars with
    | nil => simp [marked, Place.behind]
    | cons c chars ih => rw [List.flatMap_cons, List.append_assoc, marked_escapedChar, ih]; simp
  intro rest
  simp [literal, marked, Place.behind, content]

/-- Nothing belongs to a literal where there is no quote. -/
theorem marks_unquoted {text : List Char} (unquoted : '"' ∉ text) :
    Marks text (text.map (·, false)) := by
  intro rest
  -- The induction takes the first character off.
  induction text with
  | nil => rfl
  | cons c text ih =>
    obtain ⟨other, others⟩ := not_or.mp (List.mem_cons.not.mp unquoted)
    simp [marked, Place.behind, Ne.symm other, ih others]

/--
Whether a piece of a document is scanned so that one text is left of it, and another
one belongs to its literals.
-/
def Scans (text kept literals : List Char) : Prop :=
  ∀ rest, squeezed (text ++ rest) = kept ++ squeezed rest ∧
    literalsIn (text ++ rest) = literals ++ literalsIn rest

/-- A literal is left as it is. -/
theorem Scans.literal (s : String) :
    Scans (literal s).toList (Json.literal s).toList (Json.literal s).toList := by
  intro rest
  simp [squeezed, literalsIn, marks_literal s rest, List.filter_map, Function.comp_def]

/-- Without a quote, all is left but blanks and line breaks. -/
theorem Scans.unquoted {text : List Char} (unquoted : '"' ∉ text) :
    Scans text (text.filter fun c => c ≠ ' ' && c ≠ '\n') [] := by
  intro rest
  simp [squeezed, literalsIn, marks_unquoted unquoted rest, List.filter_map, Function.comp_def]

/-- Whether a text has neither quotes nor blanks or line breaks. -/
def IsBare (text : List Char) : Prop := ∀ c ∈ text, c ≠ '"' ∧ c ≠ ' ' ∧ c ≠ '\n'

/-- A bare text is left as it is. -/
theorem Scans.bare {text : List Char} (bare : IsBare text) : Scans text text [] := by
  have scanned := Scans.unquoted fun inside => (bare '"' inside).1 rfl
  rwa [List.filter_eq_self.mpr fun c inside => by simpa using (bare c inside).2] at scanned

/-- Nothing is left of blanks and line breaks. -/
theorem Scans.blank {text : List Char} (blank : ∀ c ∈ text, c = ' ' ∨ c = '\n') :
    Scans text [] [] := by
  have scanned := Scans.unquoted fun inside => by simpa using blank '"' inside
  rwa [List.filter_eq_nil_iff.mpr fun c inside =>
    by rcases blank c inside with rfl | rfl <;> decide] at scanned

/-- Pieces that stand one behind the other are scanned one after the other. -/
theorem Scans.append {text kept literals more left others : List Char}
    (first : Scans text kept literals) (second : Scans more left others) :
    Scans (text ++ more) (kept ++ left) (literals ++ others) := by
  intro rest
  obtain ⟨one, two⟩ := first (more ++ rest)
  obtain ⟨three, four⟩ := second rest
  simp [one, two, three, four]

/-! Numbers are bare. -/

/-- Bare texts one behind the other are bare. -/
@[simp] theorem isBare_append (text more : List Char) :
    IsBare (text ++ more) ↔ IsBare text ∧ IsBare more :=
  List.forall_mem_append

/-- A text is bare if its first character is and the others are. -/
@[simp] theorem isBare_cons (c : Char) (text : List Char) :
    IsBare (c :: text) ↔ (c ≠ '"' ∧ c ≠ ' ' ∧ c ≠ '\n') ∧ IsBare text :=
  List.forall_mem_cons

/-- No text is bare. -/
@[simp] theorem isBare_nil : IsBare [] := List.forall_mem_nil _

/-- What is left of a bare text is bare. -/
theorem IsBare.sublist {text part : List Char} (bare : IsBare text)
    (sub : part.Sublist text) : IsBare part :=
  fun c inside => bare c (sub.subset inside)

/-- The digits of a natural number are bare. -/
@[simp] theorem isBare_toDigits (n : Nat) : IsBare (Nat.toDigits 10 n) := by
  intro c inside
  have digit : c.isDigit = true := Nat.isDigit_of_mem_toDigits (by decide) (by decide) inside
  refine ⟨?_, ?_, ?_⟩ <;> rintro rfl <;> cases digit

/-- A whole number is bare, with or without a sign. -/
theorem isBare_integer (n : Int) : IsBare (toString n).toList := by
  cases n with
  | ofNat n => exact Nat.toList_repr ▸ isBare_toDigits n
  | negSucc n =>
    show IsBare ("-" ++ toString (n + 1)).toList
    simp

/-- A positive decimal is bare, wherever its point is written. -/
theorem isBare_decimal (style : Number.DecimalStyle) (value : Number.Decimal) :
    IsBare (style.write value).toList := by
  have digits : IsBare (Number.DecimalStyle.trimmed (Nat.toDigits 10 value.digits)) := by
    have sub :=
      (List.dropWhile_sublist (· = '0') (l := (Nat.toDigits 10 value.digits).reverse)).reverse
    rw [List.reverse_reverse] at sub
    exact (isBare_toDigits value.digits).sublist sub
  have zeros (count : Nat) : IsBare (List.replicate count '0') := by
    intro c inside
    rw [List.eq_of_mem_replicate inside]
    decide
  have front (count : Nat) := digits.sublist (List.take_sublist count _)
  have back (count : Nat) := digits.sublist (List.drop_sublist count _)
  simp only [Number.DecimalStyle.write, String.toList_ofList, Nat.toString_eq_repr, Nat.toList_repr]
  -- The point is in place, or there is an exponent.
  split_ifs <;>
    simp only [isBare_append, isBare_cons, isBare_nil, isBare_toDigits, digits, zeros,
      front, back] <;>
    decide

/-- A floating number is bare. -/
theorem isBare_float (x : Float) : IsBare (floatText x).toList := by
  simp only [floatText, Number.DecimalStyle.writeFloat]
  split_ifs <;> simp [isBare_decimal]

/-! Values, whose parts are scanned one after the other. -/

namespace Value

mutual

/-- The strings of a value, keys among them, in the order in which they are written. -/
def strings : Value → List String
  | .text value => [value]
  | .list items => stringsOfItems items
  | .object members => stringsOfMembers members
  | _ => []

/-- The strings of some items. -/
def stringsOfItems : List Value → List String
  | [] => []
  | value :: rest => strings value ++ stringsOfItems rest

/-- The strings of some members, each key in front of those of its value. -/
def stringsOfMembers : List (String × Value) → List String
  | [] => []
  | (key, value) :: rest => key :: (strings value ++ stringsOfMembers rest)

end

end Value

/-- The literals of some strings, one behind the other. -/
def literals (strings : List String) : List Char := strings.flatMap fun s => (literal s).toList

/-- Literals of more strings stand behind those of the others. -/
@[simp] theorem literals_append (strings more : List String) :
    literals (strings ++ more) = literals strings ++ literals more :=
  List.flatMap_append

namespace Layout

/-- Whether a layout has no other blanks than spaces and line breaks. -/
structure IsSpaced (layout : Layout) : Prop where
  line : ∀ depth, ∀ c ∈ layout.line depth, c = ' ' ∨ c = '\n'
  space : ∀ c ∈ layout.space, c = ' ' ∨ c = '\n'

/-- No blanks at all are no other blanks. -/
theorem isSpaced_tight : tight.IsSpaced := ⟨fun _ => List.forall_mem_nil _, List.forall_mem_nil _⟩

/-- A line for each part has a line break and spaces only. -/
theorem isSpaced_spread : spread.IsSpaced where
  line depth c inside := by
    rcases List.mem_cons.mp inside with rfl | blank
    · exact .inr rfl
    · exact .inl (List.eq_of_mem_replicate blank)
  space c inside := .inl (List.mem_singleton.mp inside)

variable {layout : Layout}

/-- Of what stands in front of a part, only the comma is left. -/
theorem IsSpaced.separator (spaced : layout.IsSpaced) (depth : Nat) (first : Bool) :
    Scans (layout.separator depth first) (tight.separator depth first) [] := by
  have comma : Scans (if first then [] else [',']) (if first then [] else [',']) [] :=
    .bare (by cases first <;> simp [IsBare])
  exact comma.append (.blank (spaced.line depth))

/-- Brackets around some parts are left, and the line in front of the last one is not. -/
theorem IsSpaced.enclosed (spaced : layout.IsSpaced) (depth : Nat) {opening closing : Char}
    {text kept strings : List Char} (scanned : Scans text kept strings)
    (bare : IsBare [opening, closing]) :
    Scans (opening :: (text ++ layout.line depth ++ [closing]))
      (opening :: (kept ++ [closing])) strings := by
  simp only [isBare_cons] at bare
  have front : Scans [opening] [opening] [] := .bare (by simp [bare])
  have back : Scans [closing] [closing] [] := .bare (by simp [bare])
  simpa using ((front.append scanned).append (.blank (spaced.line depth))).append back

mutual

/-- Of a value, its text without blanks is left, and its strings belong to literals. -/
theorem scans_write (spaced : layout.IsSpaced) (depth : Nat) :
    ∀ value, Scans (layout.write depth value) (tight.write depth value) (literals value.strings)
  | .text value => by
    simpa [write, Value.scalarText, Value.strings, literals] using Scans.literal value
  | .null => .bare (by simp [write, Value.scalarText, IsBare])
  | .truth value => .bare (by cases value <;> simp [write, Value.scalarText, IsBare])
  | .integer value => .bare (isBare_integer value)
  | .float value => .bare (isBare_float value)
  | .list [] => .bare (by simp [write, IsBare])
  | .list (value :: rest) => by
    -- Between its brackets a list is as its items are, and so is an object.
    have items := scans_writeItems spaced (depth + 1) true (value :: rest)
    simpa [write, Value.strings] using spaced.enclosed depth items (by simp)
  | .object [] => .bare (by simp [write, IsBare])
  | .object (member :: rest) => by
    have members := scans_writeMembers spaced (depth + 1) true (member :: rest)
    simpa [write, Value.strings] using spaced.enclosed depth members (by simp)

/-- Of items, their text without blanks is left, and their strings belong to literals. -/
theorem scans_writeItems (spaced : layout.IsSpaced) (depth : Nat) (first : Bool) : ∀ items,
    Scans (layout.writeItems depth first items) (tight.writeItems depth first items)
      (literals (Value.stringsOfItems items))
  | [] => .bare (List.forall_mem_nil _)
  | value :: rest => by
    have here := ((spaced.separator depth first).append (scans_write spaced depth value)).append
      (scans_writeItems spaced depth false rest)
    simpa [writeItems, Value.stringsOfItems] using here

/-- Of members, their text without blanks is left, and keys and strings belong to literals. -/
theorem scans_writeMembers (spaced : layout.IsSpaced) (depth : Nat) (first : Bool) : ∀ members,
    Scans (layout.writeMembers depth first members) (tight.writeMembers depth first members)
      (literals (Value.stringsOfMembers members))
  | [] => .bare (List.forall_mem_nil _)
  | (key, value) :: rest => by
    have colon : Scans [':'] [':'] [] := .bare (by simp)
    have here := (((((spaced.separator depth first).append (.literal key)).append colon).append
      (.blank spaced.space)).append (scans_write spaced depth value)).append
      (scans_writeMembers spaced depth false rest)
    simpa [writeMembers, Value.stringsOfMembers, literals] using here

end

/--
The whole text of a value, laid out with spaces and line breaks only,
is squeezed to its text without any.
-/
theorem squeezed_write (spaced : layout.IsSpaced) (value : Value) :
    squeezed (layout.write 0 value) = tight.write 0 value ∧
      literalsIn (layout.write 0 value) = literals value.strings := by
  obtain ⟨kept, strings⟩ := scans_write spaced 0 value []
  simp only [List.append_nil] at kept strings
  exact ⟨kept.trans (List.append_nil _), strings.trans (List.append_nil _)⟩

end Layout

end Json

open Json

/--
The indented document of settings is the compact one with blanks and line breaks
outside of its string literals.

Where these are taken out, exactly the compact document is left. What belongs to the literals
is the same in both documents, character by character: it is the keys and the name stem,
each written as a literal, in their order.
-/
theorem Settings.documents_differ_in_spacing (settings : Settings) :
    squeezed settings.toPrettyJson.toList = settings.toJson.toList ∧
    literalsIn settings.toPrettyJson.toList = literalsIn settings.toJson.toList ∧
    literalsIn settings.toPrettyJson.toList =
      literals ["worker_name_prefix", settings.nameStem, "drain_timeout", "secs", "nanos",
        "drain_poll_interval", "secs", "nanos", "stack_size"] := by
  have strings : settings.document.strings =
      ["worker_name_prefix", settings.nameStem, "drain_timeout", "secs", "nanos",
        "drain_poll_interval", "secs", "nanos", "stack_size"] := by
    cases size : settings.stackSize <;>
      simp [document, Span.document, Value.natural, Value.strings, Value.stringsOfMembers, size]
  -- Both texts are written from one document, in two layouts of which each one is spaced.
  have pretty := Layout.squeezed_write Layout.isSpaced_spread settings.document
  have compact := Layout.squeezed_write Layout.isSpaced_tight settings.document
  rw [Layout.write_spread, Layout.write_tight, strings] at pretty
  rw [Layout.write_tight, strings] at compact
  exact ⟨pretty.1, pretty.2.trans compact.2.symm, pretty.2⟩

end TaskPool
