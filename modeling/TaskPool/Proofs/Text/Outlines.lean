import TaskPool.Proofs.Text.Lexemes
import TaskPool.Text.Outline

/-!
The text of an outline, on one line or with one part a line, tells which outline it is.

Both texts are made of the same lexemes, and the lexemes can be put together to one outline only.
-/

namespace TaskPool.Text.Outline

mutual

/-- The lexemes of an outline, in their order. -/
def lexemes : Outline → List String
  | .atom text => [text]
  | .record label parts => label :: .singleton '\x7b' ::
      (lexemesOfFields parts ++ [.singleton '\x7d'])
  | .apply label parts => label :: .singleton '(' :: (lexemesOfItems parts ++ [.singleton ')'])

/-- The lexemes of named parts. -/
def lexemesOfFields : List (String × Outline) → List String
  | [] => []
  | (name, value) :: rest => name :: .singleton ':' :: (lexemes value ++ lexemesOfFields rest)

/-- The lexemes of unnamed parts. -/
def lexemesOfItems : List Outline → List String
  | [] => []
  | value :: rest => lexemes value ++ lexemesOfItems rest

end

mutual

/-- Whether labels and names of an outline are words, and its finished texts are words or quoted. -/
def IsPlain : Outline → Prop
  | .atom text => IsWord text ∨ ∃ s, text = quoted s
  | .record label parts => IsWord label ∧ ArePlainFields parts
  | .apply label parts => IsWord label ∧ ArePlainItems parts

/-- Whether named parts are plain, and their names are words. -/
def ArePlainFields : List (String × Outline) → Prop
  | [] => True
  | (name, value) :: rest => IsWord name ∧ IsPlain value ∧ ArePlainFields rest

/-- Whether unnamed parts are plain. -/
def ArePlainItems : List Outline → Prop
  | [] => True
  | value :: rest => IsPlain value ∧ ArePlainItems rest

end

/-! The lexemes are read from both texts. -/

section Reading

variable {text gap : List Char} {more : List String} {c : Char}

/-- What may stand between lexemes is passed over. -/
theorem reads_spacing (spacing : gap.all isSpacing = true) (reads : Reads text more) :
    Reads (gap ++ text) more := by
  induction gap with
  | nil => exact reads
  | cons c gap ih =>
    -- One character at a time, none of which belongs to a lexeme.
    simp only [List.all_cons, Bool.and_eq_true] at spacing
    exact .spacing spacing.1 (ih spacing.2)

/-- A mark is read, behind what may stand in front of it. -/
theorem reads_mark (spacing : gap.all isSpacing = true) (mark : isMark c = true)
    (reads : Reads text more) :
    Reads (gap ++ c :: text) (.singleton c :: more) := by
  have lexeme := Reads.lexeme (.mark mark) reads
  rw [String.toList_singleton] at lexeme
  exact reads_spacing spacing lexeme

/-- A word ends in front of what may stand between lexemes. -/
theorem endsRun_spacing (spacing : isSpacing c = true) : EndsRun isWordly (c :: text) := by
  intro d first
  obtain rfl : c = d := Option.some.inj first
  simp [isWordly, spacing]

/-- A word ends in front of a mark, and in front of what may stand between them. -/
theorem endsRun_mark (spacing : gap.all isSpacing = true) (mark : isMark c = true) :
    EndsRun isWordly (gap ++ c :: text) := by
  -- What comes first is the mark itself, or what stands in front of it.
  cases gap with
  | nil =>
    intro d first
    obtain rfl : c = d := Option.some.inj first
    exact (not_wordly_of_isMark mark).1
  | cons e gap =>
    simp only [List.all_cons, Bool.and_eq_true] at spacing
    exact endsRun_spacing spacing.1

/-- A word is read, and the mark behind it. -/
theorem reads_word {word : String} (isWord : IsWord word) (spacing : gap.all isSpacing = true)
    (mark : isMark c = true) (reads : Reads text more) :
    Reads (word.toList ++ (gap ++ c :: text)) (word :: .singleton c :: more) :=
  .lexeme (.word isWord (endsRun_mark spacing mark)) (reads_mark spacing mark reads)

/-- The name of a part is read, and the colon behind it. -/
theorem reads_name {name : String} (isWord : IsWord name) (reads : Reads text more) :
    Reads (name.toList ++ (": ".toList ++ text)) (name :: .singleton ':' :: more) :=
  reads_word isWord List.all_nil (by decide) (.spacing (by decide) reads)

end Reading

mutual

/-- On one line, an outline is made of its lexemes. -/
theorem reads_compact {text : List Char} {more : List String} (ends : EndsRun isWordly text)
    (reads : Reads text more) :
    ∀ {value : Outline}, value.IsPlain →
    Reads (value.compact.toList ++ text) (value.lexemes ++ more)
  | .atom _, .inl isWord => .lexeme (.word isWord ends) reads
  | .atom _, .inr ⟨s, rfl⟩ => .lexeme (.quote s) reads
  | .record label parts, ⟨isWord, plain⟩ => by
    have blank : [' '].all isSpacing = true := by decide
    -- The last part ends in front of the blank and the brace.
    have closed : isMark '\x7d' = true := by decide
    have fields :=
      reads_compactFields (endsRun_mark blank closed) (reads_mark blank closed reads) plain
    have opened :=
      reads_word isWord blank (by decide : isMark '\x7b' = true) (reads_spacing blank fields)
    simp only [compact, lexemes, String.toList_append, List.append_assoc, List.cons_append]
    exact opened
  | .apply label parts, ⟨isWord, plain⟩ => by
    have empty : [].all isSpacing = true := List.all_nil
    have closed : isMark ')' = true := by decide
    have items :=
      reads_compactItems (endsRun_mark empty closed) (reads_mark empty closed reads) plain
    have opened := reads_word isWord empty (by decide : isMark '(' = true) items
    simp only [compact, lexemes, String.toList_append, List.append_assoc, List.cons_append]
    exact opened

/-- On one line, named parts are made of their lexemes. -/
theorem reads_compactFields {text : List Char} {more : List String} (ends : EndsRun isWordly text)
    (reads : Reads text more) : ∀ {parts : List (String × Outline)}, ArePlainFields parts →
      Reads ((compactFields parts).toList ++ text) (lexemesOfFields parts ++ more)
  | [], _ => reads
  | [(name, value)], ⟨isWord, plain, _⟩ => by
    have named := reads_name isWord (reads_compact ends reads plain)
    simp only [compactFields, lexemesOfFields, String.toList_append, List.append_assoc,
      List.cons_append]
    exact named
  | (name, value) :: next :: rest, ⟨isWord, plain, others⟩ => by
    have comma : [',', ' '].all isSpacing = true := by decide
    have behind := reads_spacing comma (reads_compactFields ends reads others)
    have named := reads_name isWord (reads_compact (endsRun_spacing (by decide)) behind plain)
    -- This equation holds of more than one part only, which is its second goal.
    rw [compactFields, lexemesOfFields]
    · simp only [String.toList_append, List.append_assoc, List.cons_append]
      exact named
    · exact nofun

/-- On one line, unnamed parts are made of their lexemes. -/
theorem reads_compactItems {text : List Char} {more : List String} (ends : EndsRun isWordly text)
    (reads : Reads text more) : ∀ {parts : List Outline}, ArePlainItems parts →
      Reads ((compactItems parts).toList ++ text) (lexemesOfItems parts ++ more)
  | [], _ => reads
  | [value], ⟨plain, _⟩ => by
    rw [compactItems, lexemesOfItems, lexemesOfItems, List.append_nil]
    exact reads_compact ends reads plain
  | value :: next :: rest, ⟨plain, others⟩ => by
    -- Behind its comma the rest is read, and the comma ends the part in front of it.
    have comma : [',', ' '].all isSpacing = true := by decide
    have behind := reads_spacing comma (reads_compactItems ends reads others)
    have first := reads_compact (endsRun_spacing (by decide)) behind plain
    rw [compactItems, lexemesOfItems]
    · simp only [String.toList_append, List.append_assoc]
      exact first
    · exact nofun

end

/-- A margin is nothing but blanks. -/
theorem spacing_margin (depth : Nat) : (margin depth).toList.all isSpacing = true := by
  rw [margin, String.toList_ofList, List.all_eq_true]
  intro c inside
  rw [List.eq_of_mem_replicate inside]
  rfl

mutual

/-- With one part a line, an outline is made of its lexemes too. -/
theorem reads_pretty {text : List Char} {more : List String} (ends : EndsRun isWordly text)
    (reads : Reads text more) (depth : Nat) : ∀ {value : Outline}, value.IsPlain →
      Reads ((value.prettyAt depth).toList ++ text) (value.lexemes ++ more)
  | .atom _, .inl isWord => .lexeme (.word isWord ends) reads
  | .atom _, .inr ⟨s, rfl⟩ => .lexeme (.quote s) reads
  | .record label parts, ⟨isWord, plain⟩ => by
    have blank : [' '].all isSpacing = true := by decide
    have line : ['\n'].all isSpacing = true := by decide
    -- The last part ends in front of its comma, and only the margin stands before the brace.
    have fields := reads_prettyFields
      (reads_mark (spacing_margin depth) (by decide : isMark '\x7d' = true) reads) (depth + 1) plain
    have opened :=
      reads_word isWord blank (by decide : isMark '\x7b' = true) (reads_spacing line fields)
    simp only [prettyAt, lexemes, String.toList_append, List.append_assoc, List.cons_append]
    exact opened
  | .apply label parts, ⟨isWord, plain⟩ => by
    have empty : [].all isSpacing = true := List.all_nil
    have line : ['\n'].all isSpacing = true := by decide
    have items := reads_prettyItems
      (reads_mark (spacing_margin depth) (by decide : isMark ')' = true) reads) (depth + 1) plain
    have opened :=
      reads_word isWord empty (by decide : isMark '(' = true) (reads_spacing line items)
    simp only [prettyAt, lexemes, String.toList_append, List.append_assoc, List.cons_append]
    exact opened

/-- With one part a line, named parts are made of their lexemes too. -/
theorem reads_prettyFields {text : List Char} {more : List String} (reads : Reads text more)
    (depth : Nat) :
    ∀ {parts : List (String × Outline)}, ArePlainFields parts →
      Reads ((prettyFields depth parts).toList ++ text) (lexemesOfFields parts ++ more)
  | [], _ => reads
  | (name, value) :: rest, ⟨isWord, plain, others⟩ => by
    -- Every part has its comma here, the last one too, so this is one case and not two.
    have comma : [',', '\n'].all isSpacing = true := by decide
    have behind := reads_spacing comma (reads_prettyFields reads depth others)
    have named := reads_name isWord (reads_pretty (endsRun_spacing (by decide)) behind depth plain)
    simp only [prettyFields, lexemesOfFields, String.toList_append, List.append_assoc,
      List.cons_append]
    exact reads_spacing (spacing_margin depth) named

/-- With one part a line, unnamed parts are made of their lexemes too. -/
theorem reads_prettyItems {text : List Char} {more : List String} (reads : Reads text more)
    (depth : Nat) :
    ∀ {parts : List Outline}, ArePlainItems parts →
      Reads ((prettyItems depth parts).toList ++ text) (lexemesOfItems parts ++ more)
  | [], _ => reads
  | value :: rest, ⟨plain, others⟩ => by
    -- As with named parts, but for the name.
    have comma : [',', '\n'].all isSpacing = true := by decide
    have behind := reads_spacing comma (reads_prettyItems reads depth others)
    have first := reads_pretty (endsRun_spacing (by decide)) behind depth plain
    simp only [prettyItems, lexemesOfItems, String.toList_append, List.append_assoc]
    exact reads_spacing (spacing_margin depth) first

end

/-! The lexemes are put together to one outline only. -/

/-- A word is no mark. -/
theorem word_ne_mark {word : String} (isWord : IsWord word) {c : Char} (mark : isMark c = true) :
    word ≠ .singleton c := by
  rintro rfl
  have wordly := isWord.2 c (by rw [String.toList_singleton]; exact List.mem_singleton_self c)
  rw [(not_wordly_of_isMark mark).1] at wordly
  cases wordly

/-- A quoted text is no mark. -/
theorem quoted_ne_mark (s : String) {c : Char} (mark : isMark c = true) :
    quoted s ≠ .singleton c := by
  intro same
  -- A quoted text begins with a quote, which is no mark.
  obtain ⟨rest, front⟩ := quoted_head s
  have first := congrArg String.toList same
  rw [front, String.toList_singleton] at first
  rw [← (List.cons.inj first).1] at mark
  cases mark

/-- Whether some lexemes do not begin with a mark that opens something. -/
def OpensNothing (lexemes : List String) : Prop :=
  ∀ lexeme ∈ lexemes.head?, lexeme ≠ .singleton '\x7b' ∧ lexeme ≠ .singleton '('

/-- Nothing is opened by what is no mark. -/
theorem opensNothing_cons {first : String} (unmarked : ∀ c, isMark c = true → first ≠ .singleton c)
    (rest : List String) : OpensNothing (first :: rest) := by
  intro lexeme front
  obtain rfl : first = lexeme := Option.some.inj front
  exact ⟨unmarked _ (by decide), unmarked _ (by decide)⟩

/-- The lexemes of a plain outline begin with no mark. -/
theorem lexemes_head : ∀ {value : Outline}, value.IsPlain →
    ∃ first rest, value.lexemes = first :: rest ∧ ∀ c, isMark c = true → first ≠ .singleton c
  | .atom _, .inl isWord => ⟨_, [], by rw [lexemes], fun _ => word_ne_mark isWord⟩
  | .atom _, .inr ⟨s, rfl⟩ => ⟨_, [], by rw [lexemes], fun _ => quoted_ne_mark s⟩
  | .record _ _, ⟨isWord, _⟩ => ⟨_, _, by rw [lexemes], fun _ => word_ne_mark isWord⟩
  | .apply _ _, ⟨isWord, _⟩ => ⟨_, _, by rw [lexemes], fun _ => word_ne_mark isWord⟩

/-- Behind a named part there is a name, or the end of the record. -/
theorem opensNothing_fields {parts : List (String × Outline)} (plain : ArePlainFields parts)
    (more : List String) :
    OpensNothing (lexemesOfFields parts ++ .singleton '\x7d' :: more) := by
  match parts, plain with
  | [], _ =>
    -- Without a part it is the brace that comes next, and it closes the record.
    intro lexeme front
    obtain rfl : .singleton '\x7d' = lexeme := Option.some.inj front
    decide
  | (name, value) :: rest, ⟨isWord, _⟩ => exact opensNothing_cons (fun _ => word_ne_mark isWord) _

/-- Behind an unnamed part there is another one, or the end of the list. -/
theorem opensNothing_items {parts : List Outline} (plain : ArePlainItems parts)
    (more : List String) :
    OpensNothing (lexemesOfItems parts ++ .singleton ')' :: more) := by
  match parts, plain with
  | [], _ =>
    intro lexeme front
    obtain rfl : .singleton ')' = lexeme := Option.some.inj front
    decide
  | value :: rest, ⟨plain, _⟩ =>
    -- A part begins with its own first lexeme, which is a word or quoted.
    obtain ⟨first, others, front, unmarked⟩ := lexemes_head plain
    rw [lexemesOfItems, front]
    exact opensNothing_cons unmarked _

mutual

/--
Which outline stands in front of some lexemes, and what stands behind it, is seen from the lexemes.
-/
theorem lexemes_unique {more after : List String} (ends : OpensNothing more)
    (stops : OpensNothing after) :
    ∀ {value other : Outline}, value.IsPlain → other.IsPlain →
      value.lexemes ++ more = other.lexemes ++ after →
      value = other ∧ more = after
  | .atom _, .atom _, _, _, same => by
    obtain ⟨rfl, rests⟩ := List.cons.inj same
    exact ⟨rfl, rests⟩
  | .record label parts, .record _ others, plain, plain', same => by
    simp only [lexemes, List.cons_append, List.append_assoc, List.nil_append, List.cons.injEq,
      true_and] at same
    obtain ⟨rfl, inside⟩ := same
    obtain ⟨rfl, rests⟩ := fields_unique plain.2 plain'.2 inside
    exact ⟨rfl, rests⟩
  | .apply label parts, .apply _ others, plain, plain', same => by
    simp only [lexemes, List.cons_append, List.append_assoc, List.nil_append, List.cons.injEq,
      true_and] at same
    obtain ⟨rfl, inside⟩ := same
    obtain ⟨rfl, rests⟩ := items_unique plain.2 plain'.2 inside
    exact ⟨rfl, rests⟩
  -- What is no more than a text is followed by nothing that opens parts.
  | .atom _, .record _ _, _, _, same =>
    absurd rfl (ends _ (congrArg List.head? (List.cons.inj same).2)).1
  | .atom _, .apply _ _, _, _, same =>
    absurd rfl (ends _ (congrArg List.head? (List.cons.inj same).2)).2
  | .record _ _, .atom _, _, _, same =>
    absurd rfl (stops _ (congrArg List.head? (List.cons.inj same).2).symm).1
  | .apply _ _, .atom _, _, _, same =>
    absurd rfl (stops _ (congrArg List.head? (List.cons.inj same).2).symm).2
  -- Named and unnamed parts are opened by different marks.
  | .record _ _, .apply _ _, _, _, same =>
    absurd (List.cons.inj (List.cons.inj same).2).1 (by decide)
  | .apply _ _, .record _ _, _, _, same =>
    absurd (List.cons.inj (List.cons.inj same).2).1 (by decide)

/-- Which named parts stand in front of the end of their record is seen from the lexemes. -/
theorem fields_unique {more after : List String} : ∀ {parts others : List (String × Outline)},
    ArePlainFields parts → ArePlainFields others →
    lexemesOfFields parts ++ .singleton '\x7d' :: more = lexemesOfFields others ++
      .singleton '\x7d' :: after →
      parts = others ∧ more = after
  | [], [], _, _, same => ⟨rfl, (List.cons.inj same).2⟩
  | [], (_, _) :: _, _, plain, same =>
    absurd (List.cons.inj same).1.symm (word_ne_mark plain.1 (by decide))
  | (_, _) :: _, [], plain, _, same =>
    absurd (List.cons.inj same).1 (word_ne_mark plain.1 (by decide))
  | (name, value) :: parts, (_, _) :: others, plain, plain', same => by
    -- Names and colons agree one by one. What stands behind a value opens nothing,
    -- so the values agree as well.
    simp only [lexemesOfFields, List.cons_append, List.append_assoc, List.cons.injEq,
      true_and] at same
    obtain ⟨rfl, inside⟩ := same
    obtain ⟨rfl, behind⟩ :=
      lexemes_unique (opensNothing_fields plain.2.2 more) (opensNothing_fields plain'.2.2 after)
      plain.2.1 plain'.2.1 inside
    obtain ⟨rfl, rests⟩ := fields_unique plain.2.2 plain'.2.2 behind
    exact ⟨rfl, rests⟩

/-- Which unnamed parts stand in front of their end is seen from the lexemes. -/
theorem items_unique {more after : List String} : ∀ {parts others : List Outline},
    ArePlainItems parts → ArePlainItems others →
    lexemesOfItems parts ++ .singleton ')' :: more = lexemesOfItems others ++
      .singleton ')' :: after →
      parts = others ∧ more = after
  | [], [], _, _, same => ⟨rfl, (List.cons.inj same).2⟩
  | [], _ :: _, _, plain, same => by
    -- One list has ended where the other one has a part, but no part begins with a mark.
    obtain ⟨first, rest, front, unmarked⟩ := lexemes_head plain.1
    rw [lexemesOfItems, lexemesOfItems, front] at same
    exact absurd (List.cons.inj same).1.symm (unmarked _ (by decide))
  | _ :: _, [], plain, _, same => by
    obtain ⟨first, rest, front, unmarked⟩ := lexemes_head plain.1
    rw [lexemesOfItems, lexemesOfItems, front] at same
    exact absurd (List.cons.inj same).1 (unmarked _ (by decide))
  | value :: parts, other :: others, plain, plain', same => by
    simp only [lexemesOfItems, List.append_assoc] at same
    obtain ⟨rfl, behind⟩ :=
      lexemes_unique (opensNothing_items plain.2 more) (opensNothing_items plain'.2 after)
      plain.1 plain'.1 same
    obtain ⟨rfl, rests⟩ := items_unique plain.2 plain'.2 behind
    exact ⟨rfl, rests⟩

end

/-- Plain outlines with the same lexemes are the same. -/
theorem eq_of_lexemes {value other : Outline} (plain : value.IsPlain) (plain' : other.IsPlain)
    (same : value.lexemes = other.lexemes) : value = other := by
  have nothing : OpensNothing [] := fun _ none => nomatch none
  exact (lexemes_unique nothing nothing plain plain' (congrArg (· ++ []) same)).1

/-- Plain outlines are the same just if they are the same on one line. -/
theorem compact_inj {value other : Outline} (plain : value.IsPlain) (plain' : other.IsPlain) :
    value.compact = other.compact ↔ value = other := by
  refine ⟨fun same => eq_of_lexemes plain plain' ?_, congrArg compact⟩
  have nothing : EndsRun isWordly [] := fun _ none => nomatch none
  -- One text is made of the lexemes of both, and it is made of one list of lexemes only.
  have read := reads_compact nothing .nil plain
  rw [same] at read
  simpa using read.unique (reads_compact nothing .nil plain')

/-- Plain outlines are the same just if they are the same with one part a line. -/
theorem pretty_inj {value other : Outline} (plain : value.IsPlain) (plain' : other.IsPlain) :
    value.pretty = other.pretty ↔ value = other := by
  refine ⟨fun same => eq_of_lexemes plain plain' ?_, congrArg pretty⟩
  have nothing : EndsRun isWordly [] := fun _ none => nomatch none
  -- The same on several lines, where the depth is that of the outermost outline.
  have read := reads_pretty nothing .nil 0 plain
  rw [show value.prettyAt 0 = other.prettyAt 0 from same] at read
  simpa using read.unique (reads_pretty nothing .nil 0 plain')

end TaskPool.Text.Outline
