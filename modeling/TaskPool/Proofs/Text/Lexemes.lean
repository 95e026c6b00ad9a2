import Mathlib.Data.List.Basic
import Mathlib.Tactic.SplitIfs
import TaskPool.Text.Quoted

/-!
A text can be taken apart in one way only.

Between quotes, each character is read back from the way in which it stands there; and a text
that is made of lexemes, with blanks, line breaks and commas between them, is made of no others.
-/

namespace TaskPool.Text

/-! Characters of one kind in front of others. -/

/-- Whether characters of a kind end in front of a text. -/
def EndsRun (p : Char → Bool) (text : List Char) : Prop := ∀ c ∈ text.head?, p c = false

/-- How far characters of a kind reach is seen from the text. -/
theorem run_unique {p : Char → Bool} {run other text more : List Char} (all : ∀ c ∈ run, p c = true)
    (others : ∀ c ∈ other, p c = true) (ends : EndsRun p text) (stops : EndsRun p more)
    (same : run ++ text = other ++ more) : run = other ∧ text = more := by
  have none {rest : List Char} (ends : EndsRun p rest) : rest.takeWhile p = [] := by
    cases rest with
    | nil => rfl
    | cons c rest => exact List.takeWhile_cons_of_neg (by simp [ends c rfl])
  -- Both runs are what is taken from the front as long as the characters are of the kind.
  have front := congrArg (List.takeWhile p) same
  rw [List.takeWhile_append_of_pos all, List.takeWhile_append_of_pos others, none ends, none stops,
    List.append_nil, List.append_nil] at front
  subst front
  exact ⟨rfl, List.append_cancel_left same⟩

/-! Quoted text: each character is read back from the way in which it stands between quotes. -/

/-- The digits of a code are not the bracket behind it. -/
theorem hexDigit_ne_bracket : ∀ {value : Nat}, value < 16 → hexDigit value ≠ '\x7d' := by
  decide

/-- A digit stands for one value only. -/
theorem hexDigit_injective : ∀ {value : Nat}, value < 16 → ∀ {other : Nat}, other < 16 →
    hexDigit value = hexDigit other → value = other := by
  decide

/-- All digits of a number come in front of the bracket behind them. -/
theorem hexDigits_ne_bracket (value : Nat) : ∀ c ∈ hexDigits value, c ≠ '\x7d' := by
  -- The induction follows the digits, the lowest of which is added last.
  fun_induction hexDigits value with
  | case1 value low => simpa using hexDigit_ne_bracket low
  | case2 value high ih =>
    have last := hexDigit_ne_bracket (Nat.mod_lt value (by decide : 16 > 0))
    simpa [or_imp, forall_and, last] using ih

/-- A number is told by its digits. -/
theorem hexDigits_injective {value other : Nat} (same : hexDigits value = hexDigits other) :
    value = other := by
  have filled (n : Nat) : hexDigits n ≠ [] := by
    rw [hexDigits]
    split <;> simp
  induction value using Nat.strongRecOn generalizing other with
  | ind value ih =>
    rw [hexDigits, hexDigits.eq_def other] at same
    split_ifs at same with low low' low'
    · exact hexDigit_injective low low' (List.cons.inj same).1
    · -- One digit is not more than one.
      have short := congrArg List.length same
      have some := List.length_pos_of_ne_nil (filled (other / 16))
      simp only [List.length_append, List.length_singleton] at short
      omega
    · have short := congrArg List.length same
      have some := List.length_pos_of_ne_nil (filled (value / 16))
      simp only [List.length_append, List.length_singleton] at short
      omega
    · obtain ⟨front, last⟩ := List.append_inj' same rfl
      have high := ih (value / 16) (by omega) front
      have low :=
        hexDigit_injective (Nat.mod_lt value (by decide : 16 > 0))
          (Nat.mod_lt other (by decide : 16 > 0))
        (List.cons.inj last).1
      omega

/-- The letters that stand behind a backslash for characters that are not shown as they are. -/
def escapes :
    List (Char × Char) :=
      [('"', '"'), ('\\', '\\'), ('\n', 'n'), ('\r', 'r'), ('\t', 't'), ('\x00', '0')]

/--
The ways in which a character can stand between quotes: as it is, by a letter, or by its code.
-/
inductive Shown : Char → List Char → Prop where
  | plain {c : Char} (quote : c ≠ '"') (backslash : c ≠ '\\') : Shown c [c]
  | letter {c letter : Char} (known : (c, letter) ∈ escapes) : Shown c ['\\', letter]
  | code (c : Char) : Shown c ('\\' :: 'u' :: '\x7b' :: (hexDigits c.toNat ++ ['\x7d']))

/-- A character stands between quotes in one of these ways. -/
theorem shown_quotedChar (c : Char) : Shown c (quotedChar c) := by
  unfold quotedChar
  split_ifs with quote backslash line carriage tab null unpictured
  -- The first six have a letter of their own.
  iterate 6
    · subst_vars
      exact .letter (by decide)
  · exact .code c
  · exact .plain quote backslash

/-- No character of an escape is known by another letter. -/
theorem escapes_injective :
    ∀ entry ∈ escapes, ∀ other ∈ escapes, entry.2 = other.2 → entry.1 = other.1 := by
  decide

/-- No escape is begun like a code. -/
theorem code_not_escape : ∀ entry ∈ escapes, entry.2 ≠ 'u' := by
  decide

/-- Which character stands somewhere between quotes is seen from the text. -/
theorem Shown.unique {c d : Char} {spelling other text more : List Char} (shown : Shown c spelling)
    (again : Shown d other) (same : spelling ++ text = other ++ more) : c = d ∧ text = more := by
  cases shown with
  | plain quote backslash =>
    cases again with
    | plain => simpa using same
    | letter | code => exact absurd (List.cons.inj same).1 backslash
  | letter known =>
    cases again with
    | plain quote backslash => exact absurd (List.cons.inj same).1.symm backslash
    | letter known' =>
      obtain ⟨letters, rests⟩ := List.cons.inj (List.cons.inj same).2
      exact ⟨escapes_injective _ known _ known' letters, rests⟩
    | code =>
      have letters := (List.cons.inj (List.cons.inj same).2).1
      exact absurd letters (code_not_escape _ known)
  | code =>
    cases again with
    | plain quote backslash => exact absurd (List.cons.inj same).1.symm backslash
    | letter known =>
      have letters := (List.cons.inj (List.cons.inj same).2).1
      exact absurd letters.symm (code_not_escape _ known)
    | code =>
      -- The digits of both codes reach up to the bracket.
      simp only [List.cons_append, List.append_assoc, List.nil_append, List.cons.injEq,
        true_and] at same
      have stops (rest : List Char) : EndsRun (fun c => decide (c ≠ '\x7d')) ('\x7d' :: rest) := by
        simp [EndsRun]
      obtain ⟨digits, rests⟩ :=
        run_unique (fun d inside => decide_eq_true (hexDigits_ne_bracket _ d inside))
        (fun d inside => decide_eq_true (hexDigits_ne_bracket _ d inside)) (stops _) (stops _) same
      exact ⟨Char.toNat_inj.mp (hexDigits_injective digits), (List.cons.inj rests).2⟩

/-- What stands for a character between quotes does not begin with a quote. -/
theorem Shown.head {c : Char} {spelling : List Char} (shown : Shown c spelling) :
    ∃ d rest, spelling = d :: rest ∧ d ≠ '"' := by
  cases shown with
  | plain quote => exact ⟨c, [], rfl, quote⟩
  | letter | code => exact ⟨'\\', _, rfl, by decide⟩

/-- Where a quoted text ends, and what is quoted, is seen from the text. -/
theorem quoted_unique {s t : String} {text more : List Char}
    (same : (quoted s).toList ++ text = (quoted t).toList ++ more) : s = t ∧ text = more := by
  have content (chars others : List Char)
      (same : chars.flatMap quotedChar ++ '"' :: text = others.flatMap quotedChar ++ '"' :: more) :
      chars = others ∧ text = more := by
    -- The induction takes one character off both texts, unless one of them ends.
    induction chars generalizing others with
    | nil =>
      cases others with
      | nil => exact ⟨rfl, (List.cons.inj same).2⟩
      | cons d others =>
        obtain ⟨e, rest, front, visible⟩ := (shown_quotedChar d).head
        rw [List.flatMap_cons, front] at same
        exact absurd (List.cons.inj same).1.symm visible
    | cons c chars ih =>
      cases others with
      | nil =>
        obtain ⟨e, rest, front, visible⟩ := (shown_quotedChar c).head
        rw [List.flatMap_cons, front] at same
        exact absurd (List.cons.inj same).1 visible
      | cons d others =>
        rw [List.flatMap_cons, List.flatMap_cons, List.append_assoc, List.append_assoc] at same
        obtain ⟨rfl, behind⟩ := (shown_quotedChar c).unique (shown_quotedChar d) same
        obtain ⟨rfl, rests⟩ := ih others behind
        exact ⟨rfl, rests⟩
  simp only [quoted, String.toList_ofList, List.cons_append, List.append_assoc, List.nil_append,
    List.cons.injEq, true_and] at same
  obtain ⟨chars, rests⟩ := content _ _ same
  exact ⟨String.toList_inj.mp chars, rests⟩

/-- Texts are quoted alike just if they are the same. -/
@[simp] theorem quoted_inj {s t : String} : quoted s = quoted t ↔ s = t :=
  ⟨fun same => (quoted_unique (congrArg (·.toList ++ []) same)).1, congrArg quoted⟩

/-! Lexemes: words, quoted texts, and the marks that hold them together. -/

/-- Whether a character may stand between lexemes. -/
def isSpacing (c : Char) : Bool := c = ' ' || c = '\n' || c = ','

/-- Whether a character is a lexeme of its own. -/
def isMark (c : Char) : Bool := c = '\x7b' || c = '\x7d' || c = '(' || c = ')' || c = ':'

/-- Whether a character belongs to words. -/
def isWordly (c : Char) : Bool := c ≠ '"' && !isMark c && !isSpacing c

/-- Whether a text is a word. -/
def IsWord (word : String) : Prop := word.toList ≠ [] ∧ ∀ c ∈ word.toList, isWordly c = true

/-- It can be looked up, character by character, whether a text is a word. -/
instance (word : String) : Decidable (IsWord word) :=
  decidable_of_iff (word.toList ≠ [] ∧
    word.toList.all isWordly = true) (by rw [IsWord, List.all_eq_true])

/-- A mark is no character of words and does not stand between lexemes. -/
theorem not_wordly_of_isMark {c : Char} (mark : isMark c = true) :
    isWordly c = false ∧ isSpacing c = false := by
  simp only [isMark, Bool.or_eq_true, decide_eq_true_eq] at mark
  rcases mark with (((rfl | rfl) | rfl) | rfl) | rfl <;> decide

/-- Whether a text is a lexeme in front of another text, into which a word may not go on. -/
inductive IsLexeme (text : List Char) : String → Prop where
  | word {word : String} (isWord : IsWord word) (ends : EndsRun isWordly text) : IsLexeme text word
  | quote (s : String) : IsLexeme text (quoted s)
  | mark {c : Char} (mark : isMark c = true) : IsLexeme text (String.singleton c)

/-- A word begins with a character of words. -/
theorem IsWord.head {word : String} (isWord : IsWord word) :
    ∃ c rest, word.toList = c :: rest ∧ isWordly c = true := by
  obtain ⟨c, rest, front⟩ := List.exists_cons_of_ne_nil isWord.1
  exact ⟨c, rest, front, isWord.2 c (by rw [front]; exact List.mem_cons_self)⟩

/-- A quoted text begins with a quote. -/
theorem quoted_head (s : String) : ∃ rest, (quoted s).toList = '"' :: rest :=
  ⟨_, by rw [quoted, String.toList_ofList]⟩

/-- No lexeme begins with what may stand between lexemes. -/
theorem IsLexeme.head {text : List Char} {lexeme : String} (isLexeme : IsLexeme text lexeme) :
    ∃ c rest, lexeme.toList = c :: rest ∧ isSpacing c = false := by
  -- A word has no spacing in it, a quoted text begins with a quote, and a mark is no spacing.
  cases isLexeme with
  | word isWord =>
    obtain ⟨c, rest, front, wordly⟩ := isWord.head
    refine ⟨c, rest, front, ?_⟩
    simp only [isWordly, Bool.and_eq_true, Bool.not_eq_true'] at wordly
    exact wordly.2
  | quote s =>
    obtain ⟨rest, front⟩ := quoted_head s
    exact ⟨_, rest, front, by decide⟩
  | mark mark => exact ⟨_, [], String.toList_singleton _, (not_wordly_of_isMark mark).2⟩

/-- Words do not begin like quoted texts or marks. -/
theorem IsWord.ne {word : String} (isWord : IsWord word) {c : Char} (other : isWordly c = false)
    {text rest : List Char} : word.toList ++ text ≠ c :: rest := by
  obtain ⟨d, more, front, wordly⟩ := isWord.head
  intro same
  rw [front, List.cons_append] at same
  rw [(List.cons.inj same).1, other] at wordly
  cases wordly

/-- Which lexeme stands at the front of a text, and what stands behind it, is seen from the text. -/
theorem IsLexeme.unique {text more : List Char} {lexeme other : String}
    (isLexeme : IsLexeme text lexeme) (again : IsLexeme more other)
    (same : lexeme.toList ++ text = other.toList ++ more) :
    lexeme = other ∧ text = more := by
  have mark_ne_quoted {c : Char} (mark : isMark c = true) (s : String) {rest after : List Char} :
      (String.singleton c).toList ++ rest ≠ (quoted s).toList ++ after := by
    obtain ⟨more, front⟩ := quoted_head s
    rw [front, String.toList_singleton]
    intro same
    rw [(List.cons.inj same).1] at mark
    cases mark
  -- Lexemes of two kinds differ in their first character, and within a kind
  -- each tells where it ends.
  cases isLexeme with
  | word isWord ends =>
    cases again with
    | word isWord' ends' =>
      obtain ⟨words, rests⟩ := run_unique isWord.2 isWord'.2 ends ends' same
      exact ⟨String.toList_inj.mp words, rests⟩
    | quote s =>
      obtain ⟨rest, front⟩ := quoted_head s
      rw [front] at same
      exact absurd same (isWord.ne (by decide))
    | mark mark =>
      rw [String.toList_singleton] at same
      exact absurd same (isWord.ne (not_wordly_of_isMark mark).1)
  | quote s =>
    cases again with
    | word isWord' =>
      obtain ⟨rest, front⟩ := quoted_head s
      rw [front] at same
      exact absurd same.symm (isWord'.ne (by decide))
    | quote t =>
      obtain ⟨rfl, rests⟩ := quoted_unique same
      exact ⟨rfl, rests⟩
    | mark mark => exact absurd same.symm (mark_ne_quoted mark s)
  | mark mark =>
    cases again with
    | word isWord' =>
      rw [String.toList_singleton] at same
      exact absurd same.symm (isWord'.ne (not_wordly_of_isMark mark).1)
    | quote s => exact absurd same (mark_ne_quoted mark s)
    | mark mark' =>
      rw [String.toList_singleton, String.toList_singleton] at same
      obtain ⟨rfl, rests⟩ := List.cons.inj same
      exact ⟨rfl, rests⟩

/-- Whether a text is made of some lexemes, with characters between them that may stand there. -/
inductive Reads : List Char → List String → Prop where
  | nil : Reads [] []
  | spacing {c : Char} {text : List Char} {lexemes : List String} (spacing : isSpacing c = true)
    (reads : Reads text lexemes) : Reads (c :: text) lexemes
  | lexeme {lexeme : String} {text : List Char} {lexemes : List String}
      (isLexeme : IsLexeme text lexeme)
    (reads : Reads text lexemes) : Reads (lexeme.toList ++ text) (lexeme :: lexemes)

/-- A text is made of the same lexemes in whatever way it is read. -/
theorem Reads.unique {text : List Char} {lexemes others : List String} (reads : Reads text lexemes)
    (again : Reads text others) : lexemes = others := by
  -- The induction takes what stands in front off one reading, and the same thing
  -- stands in front in the other.
  induction reads generalizing others with
  | nil =>
    generalize whole : [] = text at again
    cases again with
    | nil => rfl
    | spacing => cases whole
    | lexeme isLexeme =>
      obtain ⟨c, rest, front, -⟩ := isLexeme.head
      rw [front] at whole
      cases whole
  | @spacing c text lexemes spacing _ ih =>
    generalize whole : c :: text = all at again
    cases again with
    | nil => cases whole
    | spacing _ reads =>
      obtain ⟨rfl, rfl⟩ := List.cons.inj whole
      exact ih reads
    | lexeme isLexeme =>
      obtain ⟨d, rest, front, visible⟩ := isLexeme.head
      rw [front] at whole
      rw [← (List.cons.inj whole).1, spacing] at visible
      cases visible
  | @lexeme lexeme text lexemes isLexeme _ ih =>
    generalize whole : lexeme.toList ++ text = all at again
    obtain ⟨d, rest, front, visible⟩ := isLexeme.head
    cases again with
    | nil =>
      rw [front] at whole
      cases whole
    | spacing spacing =>
      rw [front] at whole
      rw [(List.cons.inj whole).1, spacing] at visible
      cases visible
    | lexeme isLexeme' reads =>
      obtain ⟨rfl, rfl⟩ := isLexeme.unique isLexeme' whole
      rw [ih reads]

end TaskPool.Text
