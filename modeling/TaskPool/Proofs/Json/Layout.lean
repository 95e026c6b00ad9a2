import TaskPool.Json.Lexeme

/-! Both written forms of a value are the same text, up to the blanks around its parts. -/

namespace TaskPool.Json

/-- The blanks with which the parts of a value are laid out. -/
structure Layout where
  /--
  What stands in front of each part at a depth, and in front of the bracket behind the last one.
  -/
  line : Nat → List Char
  /-- What stands behind a colon. -/
  space : List Char
  line_blank : ∀ depth, ∀ c ∈ line depth, isBlank c = true
  space_blank : ∀ c ∈ space, isBlank c = true

namespace Layout

/-- No blanks at all. -/
def tight : Layout := ⟨fun _ => [], [], by simp, by simp⟩

/-- A line for each part, two blanks in front of it for each level, and one blank behind a colon. -/
def spread : Layout where
  line depth := '\n' :: List.replicate (2 * depth) ' '
  space := [' ']
  line_blank depth c member := by
    -- A line break, and then blanks only.
    rcases List.mem_cons.mp member with rfl | inside
    · rfl
    · rw [List.eq_of_mem_replicate inside]
      rfl
  space_blank := by simp [isBlank]

variable (layout : Layout)

/-- What stands in front of a part at a depth: a comma unless it is the first one, and blanks. -/
def separator (depth : Nat) (first : Bool) :
    List Char := (if first then [] else [',']) ++ layout.line depth

mutual

/-- The text of a value at a depth. -/
def write (depth : Nat) : Value → List Char
  | .list [] => ['[', ']']
  -- A list or an object without parts has no lines either.
  | .list (value :: rest) => '[' :: (writeItems (depth + 1) true (value :: rest) ++
      layout.line depth ++ [']'])
  | .object [] => ['\x7b', '\x7d']
  | .object (member :: rest) =>
    '\x7b' :: (writeMembers (depth + 1) true (member :: rest) ++ layout.line depth ++ ['\x7d'])
  | value => value.scalarText.toList

/-- The text of items at a depth, behind an opening bracket or behind other items. -/
def writeItems (depth : Nat) (first : Bool) : List Value → List Char
  | [] => []
  | value :: rest => layout.separator depth first ++ write depth value ++
      writeItems depth false rest

/-- The text of members at a depth, behind an opening bracket or behind other members. -/
def writeMembers (depth : Nat) (first : Bool) : List (String × Value) → List Char
  | [] => []
  | (key, value) :: rest =>
    layout.separator depth first ++ (literal key).toList ++ ':' ::
      (layout.space ++ write depth value) ++
      writeMembers depth false rest

end

/-- Without blanks, lines are empty. -/
@[simp] theorem tight_line (depth : Nat) : tight.line depth = [] := rfl

/-- Without blanks, nothing stands behind a colon. -/
@[simp] theorem tight_space : tight.space = [] := rfl

/-- A line begins in the same way wherever it is written. -/
@[simp] theorem spread_line (depth : Nat) : spread.line depth = (Value.lineAt depth).toList := by
  -- Both are the same line break with the same blanks.
  simp [spread, Value.lineAt]

/-- One blank stands behind a colon. -/
@[simp] theorem spread_space : spread.space = [' '] := rfl

mutual

/-- Without blanks, a value is written on one line. -/
theorem write_tight (depth : Nat) : ∀ value : Value, tight.write depth value = value.compact.toList
  | .list [] => by simp [write, Value.compact, Value.compactItems]
  | .list (value :: rest) => by
    simp [write, Value.compact, writeItems_tight (depth + 1) true (value :: rest)
      (List.cons_ne_nil _ _)]
  | .object [] => by simp [write, Value.compact, Value.compactMembers]
  | .object (member :: rest) => by
    simp [write, Value.compact, writeMembers_tight (depth + 1) true (member :: rest)
      (List.cons_ne_nil _ _)]
  | .null | .truth _ | .integer _ | .float _ | .text _ => rfl

/-- Without blanks, items are written on one line. -/
theorem writeItems_tight (depth : Nat) (first : Bool) : ∀ items : List Value, items ≠ [] →
    tight.writeItems depth first items = (if first then [] else [',']) ++
    (Value.compactItems items).toList
  | [], filled => absurd rfl filled
  | [value], _ => by simp [writeItems, Value.compactItems, separator, write_tight depth value]
  | value :: next :: rest, _ => by
    -- The comma in front of the next item is the one behind this item.
    rw [writeItems, writeItems_tight depth false (next :: rest) (List.cons_ne_nil _ _)]
    simp [Value.compactItems, separator, write_tight depth value]

/-- Without blanks, members are written on one line. -/
theorem writeMembers_tight (depth : Nat) (first : Bool) :
    ∀ members : List (String × Value), members ≠ [] →
    tight.writeMembers depth first members =
      (if first then [] else [',']) ++ (Value.compactMembers members).toList
  | [], filled => absurd rfl filled
  | [(key, value)], _ => by simp [writeMembers, Value.compactMembers, separator,
      write_tight depth value]
  | (key, value) :: next :: rest, _ => by
    -- The comma in front of the next member is the one behind this member.
    rw [writeMembers, writeMembers_tight depth false (next :: rest) (List.cons_ne_nil _ _)]
    simp [Value.compactMembers, separator, write_tight depth value]

end

mutual

/-- With a line for each part, a value is written as it is at its depth. -/
theorem write_spread (depth : Nat) :
    ∀ value : Value, spread.write depth value = (value.prettyAt depth).toList
  | .list [] => by simp [write, Value.prettyAt, Value.scalarText]
  | .list (value :: rest) => by
    rw [write, writeItems_spread (depth + 1) true (value :: rest) (List.cons_ne_nil _ _)]
    simp [Value.prettyAt, separator]
  | .object [] => by simp [write, Value.prettyAt, Value.scalarText]
  | .object (member :: rest) => by
    rw [write, writeMembers_spread (depth + 1) true (member :: rest) (List.cons_ne_nil _ _)]
    simp [Value.prettyAt, separator]
  | .null | .truth _ | .integer _ | .float _ | .text _ => rfl

/-- With a line for each part, items are written as they are at their depth. -/
theorem writeItems_spread (depth : Nat) (first : Bool) : ∀ items : List Value, items ≠ [] →
    spread.writeItems depth first items =
      spread.separator depth first ++ (Value.prettyItems depth items).toList
  | [], filled => absurd rfl filled
  | [value], _ => by simp [writeItems, Value.prettyItems, write_spread depth value]
  | value :: next :: rest, _ => by
    -- The comma and the line in front of the next item are those behind this item.
    rw [writeItems, writeItems_spread depth false (next :: rest) (List.cons_ne_nil _ _)]
    simp [Value.prettyItems, separator, write_spread depth value]

/-- With a line for each part, members are written as they are at their depth. -/
theorem writeMembers_spread (depth : Nat) (first : Bool) :
    ∀ members : List (String × Value), members ≠ [] →
    spread.writeMembers depth first members =
      spread.separator depth first ++ (Value.prettyMembers depth members).toList
  | [], filled => absurd rfl filled
  | [(key, value)], _ => by simp [writeMembers, Value.prettyMembers, write_spread depth value]
  | (key, value) :: next :: rest, _ => by
    -- The comma and the line in front of the next member are those behind this member.
    rw [writeMembers, writeMembers_spread depth false (next :: rest) (List.cons_ne_nil _ _)]
    simp [Value.prettyMembers, separator, write_spread depth value]

end

end Layout

end TaskPool.Json
