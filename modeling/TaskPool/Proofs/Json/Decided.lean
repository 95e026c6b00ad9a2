import TaskPool.Proofs.Json.Recognition
import TaskPool.Proofs.Text.Bytes

/-!
How far a reader looks: its outcome is decided by what it has read and a few bytes more.

A reader that has brought something back has looked at one byte behind that at most,
which may be the end of the text. One that has found a fault has looked at as many bytes as count as
read for its place, and at one more.
-/

namespace TaskPool.Json

/--
Whether two texts begin with the same bytes, as far as so many; where one of them
ends before, the other does.
-/
def Sees (count : Nat) (text other : List Char) : Prop :=
  (bytes text).take count = (bytes other).take count

/-- Whether two characters are the same, or both are written with several bytes. -/
def Alike (c d : Char) : Prop := c = d ∨ 128 ≤ c.toNat ∧ 128 ≤ d.toNat

/-- Characters that are written with the same first byte are alike. -/
theorem alike_of_byte {c d : Char} {byte : UInt8} {after behind : List UInt8}
    (first : String.utf8EncodeChar c = byte :: after)
    (second : String.utf8EncodeChar d = byte :: behind) :
    Alike c d := by
  have single {e : Char} (ascii : e.toNat < 128) : String.utf8EncodeChar e =
    [UInt8.ofNat e.toNat] :=
    if_pos (Nat.le_of_lt_succ ascii)
  -- The byte of a character of one byte is no byte of any other.
  rcases Nat.lt_or_ge c.toNat 128 with ascii | long
  · rw [single ascii] at first
    have member : UInt8.ofNat c.toNat ∈ String.utf8EncodeChar d := by
      rw [second, (List.cons.inj first).1]
      exact List.mem_cons_self
    exact .inl ((ascii_mem_utf8EncodeChar ascii).mp member).symm
  · rcases Nat.lt_or_ge d.toNat 128 with ascii | also
    · rw [single ascii] at second
      have member : UInt8.ofNat d.toNat ∈ String.utf8EncodeChar c := by
        rw [first, (List.cons.inj second).1]
        exact List.mem_cons_self
      exact .inl ((ascii_mem_utf8EncodeChar ascii).mp member)
    · exact .inr ⟨long, also⟩

/-- A blank is written with one byte. -/
theorem ascii_of_isBlank (c : Char) (blank : isBlank c = true) : c.toNat < 128 := by
  obtain rfl | rfl | rfl | rfl : c = ' ' ∨ c = '\n' ∨ c = '\t' ∨ c = '\r' := by
    simpa [isBlank, or_assoc] using blank
  all_goals decide

namespace Alike

variable {c d e : Char}

/-- Only the same character is alike to one of one byte. -/
theorem eq (alike : Alike c d) (ascii : c.toNat < 128) : d = c := by
  rcases alike with same | ⟨long, -⟩
  · exact same.symm
  · omega

/-- What is not a character of one byte is not alike to it either. -/
theorem ne (alike : Alike c d) (other : c ≠ e) (ascii : e.toNat < 128) : d ≠ e := by
  rintro rfl
  rcases alike with same | ⟨-, long⟩
  · exact other same
  · omega

/-- What holds of no character of several bytes holds of both or of none. -/
theorem congr (alike : Alike c d) (holds : Char → Bool)
    (short : ∀ e, holds e = true → e.toNat < 128) :
    holds d = holds c := by
  -- Two characters of several bytes are both among those of which it does not hold.
  rcases alike with rfl | ⟨long, also⟩
  · rfl
  · have none (e : Char) (long : 128 ≤ e.toNat) : holds e = false := by
      rw [Bool.eq_false_iff]
      intro held
      exact absurd (short e held) (Nat.not_lt.mpr long)
    rw [none c long, none d also]

/-- What is alike to a visible character is visible. -/
theorem visible (alike : Alike c d) (visible : isBlank c = false) : isBlank d = false :=
  (alike.congr isBlank ascii_of_isBlank).trans visible

end Alike

namespace Sees

variable {count fewer : Nat} {text other : List Char}

/-- Texts that begin with the same bytes begin with fewer same bytes. -/
theorem mono (sees : Sees count text other) (less : fewer ≤ count) : Sees fewer text other := by
  have same := congrArg (List.take fewer) sees
  rwa [List.take_take, List.take_take, Nat.min_eq_left less] at same

/-- The same characters in front add to what is the same. -/
theorem append (sees : Sees count text other) (read : List Char) :
    Sees count (read ++ text) (read ++ other) := by
  have fewer := sees.mono (Nat.sub_le count (bytes read).length)
  rw [Sees, bytes_append, bytes_append, List.take_append, List.take_append]
  exact congrArg _ fewer

/-- What is seen behind what was read shows how the whole text begins. -/
theorem behind {read rest : List Char} (sees : Sees count rest other) (some : 0 < count)
    (split : text = read ++ rest) :
    Sees 1 text (read ++ other) := by
  rw [split]
  exact (sees.mono some).append read

/-- Behind the end of a text there is nothing to see. -/
theorem nil (sees : Sees count [] other) (some : 0 < count) : other = [] := by
  -- Any character has a first byte, which would be seen.
  cases other with
  | nil => rfl
  | cons d rest =>
    obtain ⟨byte, more, same⟩ := List.exists_cons_of_ne_nil (utf8EncodeChar_ne_nil d)
    obtain ⟨fewer, rfl⟩ := Nat.exists_eq_succ_of_ne_zero (Nat.ne_of_gt some)
    rw [Sees, bytes_cons, same] at sees
    cases sees

/-- The first characters that are seen are alike. -/
theorem cons {c : Char} {rest : List Char} (sees : Sees count (c :: rest) other)
    (some : 0 < count) :
    ∃ d tail, other = d :: tail ∧ Alike c d := by
  -- At least the first byte of both is seen, and that tells characters of one byte apart.
  obtain ⟨fewer, rfl⟩ := Nat.exists_eq_succ_of_ne_zero (Nat.ne_of_gt some)
  obtain ⟨byte, more, first⟩ := List.exists_cons_of_ne_nil (utf8EncodeChar_ne_nil c)
  cases other with
  | nil =>
    rw [Sees, bytes_cons, first] at sees
    cases sees
  | cons d tail =>
    obtain ⟨byte', more', second⟩ := List.exists_cons_of_ne_nil (utf8EncodeChar_ne_nil d)
    rw [Sees, bytes_cons, bytes_cons, first, second] at sees
    obtain ⟨rfl, -⟩ := List.cons.inj sees
    exact ⟨d, tail, rfl, alike_of_byte first second⟩

/-- Behind a character of one byte one byte less is seen. -/
theorem ascii {c : Char} {rest : List Char} (sees : Sees (count + 1) (c :: rest) other)
    (ascii : c.toNat < 128) :
    ∃ tail, other = c :: tail ∧ Sees count rest tail := by
  -- The first character is the same, and its one byte is one that is seen of both texts.
  obtain ⟨d, tail, rfl, alike⟩ := sees.cons (Nat.succ_pos count)
  obtain rfl := alike.eq ascii
  refine ⟨tail, rfl, ?_⟩
  have single : String.utf8EncodeChar d = [UInt8.ofNat d.toNat] := if_pos (Nat.le_of_lt_succ ascii)
  rw [Sees, bytes_cons, bytes_cons, single] at sees
  exact (List.cons.inj sees).2

/-- As many bytes are missing in both texts. -/
theorem length_lt_iff (sees : Sees count text other) (less : fewer ≤ count) :
    (bytes text).length < fewer ↔ (bytes other).length < fewer := by
  have lengths := congrArg List.length sees
  rw [List.length_take, List.length_take] at lengths
  omega

end Sees

/-- What a reader comes to: the text that it leaves over, and how many bytes of it matter. -/
class Outcome (ρ : Type) where
  left : ρ → List Char
  /-- The same with another text left over. -/
  leave : ρ → List Char → ρ
  sight : ρ → Nat
  sight_pos : ∀ outcome, 0 < sight outcome
  left_leave : ∀ outcome text, left (leave outcome text) = text
  leave_left : ∀ outcome, leave outcome (left outcome) = outcome
  leave_leave : ∀ outcome text other, leave (leave outcome text) other = leave outcome other

open Outcome

instance : Outcome (List Char) :=
  ⟨id, fun _ text => text, fun _ => 1, by simp, by simp, by simp, by simp⟩

instance {α : Type} : Outcome (α × List Char) :=
  ⟨Prod.snd, fun outcome text => (outcome.1, text), fun _ => 1, by simp, by simp, by simp, by simp⟩

instance : Outcome Fault :=
  ⟨Fault.rest, fun fault text => { fault with rest := text }, fun fault => fault.ahead + 1,
    by simp, by simp, by simp, by simp⟩

instance {ρ : Type} [Outcome ρ] : Outcome (Except Fault ρ) where
  left
    | .ok outcome => left outcome
    | .error fault => left fault
  leave
    | .ok outcome, text => .ok (leave outcome text)
    | .error fault, text => .error (leave fault text)
  sight
    | .ok _ => 1
    | .error fault => sight fault
  sight_pos outcome := by
    cases outcome with
    | ok => exact Nat.zero_lt_one
    | error fault => exact sight_pos fault
  left_leave outcome text := by cases outcome <;> exact left_leave _ text
  leave_left outcome := by cases outcome <;> exact congrArg _ (leave_left _)
  leave_leave outcome text other := by cases outcome <;> exact congrArg _ (leave_leave _ text other)

/--
Whether a reader comes to the same on every text that goes on like this one behind what it has read.
-/
def DecidedAt {ρ : Type} [Outcome ρ] (r : List Char → ρ) (text : List Char) : Prop :=
  ∃ read, text = read ++ left (r text) ∧
    ∀ other, Sees (sight (r text)) (left (r text)) other → r (read ++ other) = leave (r text) other

/-- Whether what a reader comes to is decided on every text. -/
def Decisive {ρ : Type} [Outcome ρ] (r : List Char → ρ) : Prop := ∀ text, DecidedAt r text

namespace DecidedAt

variable {ρ : Type} [Outcome ρ] {r s : List Char → ρ} {text rest : List Char} {c : Char}

/--
A reader that only looks at how a text begins is decided like another one
that comes to the same there.
-/
theorem near (decided : DecidedAt s text) (agree : ∀ other, Sees 1 text other → r other = s other) :
    DecidedAt r text := by
  obtain ⟨read, split, firm⟩ := decided
  -- The two readers come to the same here, and wherever the text is seen to begin alike.
  have here : r text = s text := agree text rfl
  rw [← here] at split firm
  refine ⟨read, split, fun other sees => ?_⟩
  rw [agree _ (sees.behind (sight_pos _) split), here]
  rw [here] at firm sees
  exact firm other sees

/-- A reader that reads nothing is decided by where it stands. -/
theorem stop (outcome : ρ) (same : ∀ other, Sees 1 text other → r other = leave outcome other) :
    DecidedAt r text := by
  -- It has read nothing, and leaves over whatever text there is.
  refine near (s := leave outcome) ?_ same
  refine ⟨[], ?_, fun other _ => ?_⟩
  · rw [left_leave]
    rfl
  · rw [leave_leave]
    rfl

/-- Where the text ends, a reader can only say so. -/
theorem nil (ends : left (r []) = []) : DecidedAt r [] := by
  -- A text that is seen to end there is the same text, so it leaves the same.
  refine ⟨[], ends.symm, fun other sees => ?_⟩
  rw [ends] at sees
  obtain rfl := sees.nil (sight_pos _)
  have same : r [] = leave (r []) [] := by
    conv => lhs; rw [← leave_left (r []), ends]
  exact same

/--
A reader is decided like another one that comes to the same in front of this
character and all that are alike.
-/
theorem like (decided : DecidedAt s (c :: rest))
    (same : ∀ d tail, Alike c d → r (d :: tail) = s (d :: tail)) :
    DecidedAt r (c :: rest) := by
  refine near decided fun other sees => ?_
  obtain ⟨d, tail, rfl, alike⟩ := sees.cons Nat.zero_lt_one
  exact same d tail alike

/-- A reader that stops in front of a character comes to the same in front of all that are alike. -/
theorem peek (outcome : ρ)
    (same : ∀ d tail, Alike c d → r (d :: tail) = leave outcome (d :: tail)) :
    DecidedAt r (c :: rest) :=
  like (stop outcome fun _ _ => rfl) same

/-- A reader that reads a character is decided like what it does behind that. -/
theorem cons (decided : DecidedAt (fun tail => r (c :: tail)) rest) : DecidedAt r (c :: rest) := by
  obtain ⟨read, split, firm⟩ := decided
  exact ⟨c :: read, congrArg _ split, firm⟩

/-- A reader that reads a character is decided like another one behind that. -/
theorem behind (same : ∀ tail, r (c :: tail) = s tail) (decided : DecidedAt s rest) :
    DecidedAt r (c :: rest) := by
  refine cons ?_
  rwa [show (fun tail => r (c :: tail)) = s from funext same]

/--
A reader that passes over some characters at the front is decided like what it does behind them.
-/
theorem pass {holds : Char → Bool} (short : ∀ e, holds e = true → e.toNat < 128)
    {k : List Char → List Char → ρ}
    (same : ∀ other, r other = k (other.takeWhile holds) (other.dropWhile holds))
    (decided : DecidedAt (k (text.takeWhile holds)) (text.dropWhile holds)) : DecidedAt r text := by
  obtain ⟨read, split, firm⟩ := decided
  have whole : text.takeWhile holds ++ text.dropWhile holds = text :=
    List.takeWhile_append_dropWhile
  rw [← same] at split firm
  refine ⟨text.takeWhile holds ++ read, ?_, fun other sees => ?_⟩
  · rw [List.append_assoc, ← split, whole]
  · -- What is seen behind those characters begins with none of them.
    have begins : Sees 1 (text.dropWhile holds) (read ++ other) := sees.behind (sight_pos _) split
    have ends : ∀ d ∈ (read ++ other).head?, holds d = false := by
      intro d first
      cases behind : text.dropWhile holds with
      | nil =>
        rw [behind] at begins
        rw [begins.nil Nat.zero_lt_one] at first
        cases first
      | cons c rest =>
        rw [behind] at begins
        obtain ⟨e, tail, same, alike⟩ := begins.cons Nat.zero_lt_one
        rw [same] at first
        obtain rfl : e = d := Option.some.inj first
        have last := List.head?_dropWhile_not holds text
        rw [behind] at last
        exact (alike.congr holds short).trans last
    have all : ∀ c ∈ text.takeWhile holds, holds c = true := fun _ => List.mem_takeWhile_imp
    obtain ⟨taken, dropped⟩ := span_append all ends
    rw [List.append_assoc, same, taken, dropped]
    exact firm other sees

/-- What is decided either way is decided, where the choice does not depend on the text. -/
theorem ite {p : Prop} [Decidable p] (yes : p → DecidedAt r text) (no : ¬p → DecidedAt s text) :
    DecidedAt (fun tail => if p then r tail else s tail) text := by
  by_cases holds : p
  · simpa only [if_pos holds] using yes holds
  · simpa only [if_neg holds] using no holds

/--
A reader that wants some characters at the front is decided like what it does
behind them, or where none are.
-/
theorem passSome {holds : Char → Bool} (short : ∀ e, holds e = true → e.toNat < 128)
    {k : List Char → List Char → ρ}
    (same : ∀ other, r other = if other.takeWhile holds = [] then s other
      else k (other.takeWhile holds) (other.dropWhile holds))
    (none : DecidedAt s (text.dropWhile holds))
    (some : DecidedAt (k (text.takeWhile holds)) (text.dropWhile holds)) :
    DecidedAt r text := by
  -- The reader passes over as many as there are, and then chooses by whether there were any.
  refine pass short (k := fun taken rest => if taken = [] then s rest else k taken rest)
    (fun other => ?_)
    (ite (fun _ => none) fun _ => some)
  rw [same]
  by_cases none : other.takeWhile holds = []
  · have whole : other.dropWhile holds = other :=
      List.dropWhile_eq_self_iff.mpr (List.takeWhile_eq_nil_iff.mp none)
    rw [if_pos none, if_pos none, whole]
  · rw [if_neg none, if_neg none]

/--
A reader that looks out for a mark is decided behind the mark, or like
another one where there is none.
-/
theorem mark {e : Char} (ascii : e.toNat < 128)
    (found : ∀ rest, DecidedAt (fun tail => r (e :: tail)) rest) (missing : DecidedAt s text)
    (same : ∀ other, (∀ rest, other = e :: rest → False) → r other = s other) :
    DecidedAt r text := by
  by_cases begins : ∃ rest, text = e :: rest
  · obtain ⟨rest, rfl⟩ := begins
    exact cons (found rest)
  · refine near missing fun other sees => same other ?_
    rintro after rfl
    -- A text that is seen to begin like one with the mark has the mark itself.
    obtain ⟨rest, split, -⟩ := Sees.ascii sees.symm ascii
    exact begins ⟨rest, split⟩

/-- A reader that goes on behind another one is decided if it is so from there. -/
theorem after {β γ : Type} [Outcome β] [Outcome γ] {first : List Char → Except Fault β}
    {whole : List Char → Except Fault γ} {k : β → Except Fault γ} (decided : DecidedAt first text)
    (same : ∀ text, whole text = (first text).bind k)
    (onward : ∀ outcome, first text = .ok outcome →
      DecidedAt (fun tail => k (leave outcome tail)) (left outcome)) :
    DecidedAt whole text := by
  obtain rfl : whole = fun text => (first text).bind k := funext same
  obtain ⟨read, split, firm⟩ := decided
  -- A fault of the first reader is that of the whole; otherwise the second one goes on from there.
  cases found : first text with
  | error fault =>
    rw [found] at split firm
    refine ⟨read, ?_, fun other sees => ?_⟩
    · beta_reduce
      rw [found]
      exact split
    · beta_reduce at sees ⊢
      rw [found] at sees ⊢
      rw [firm other sees]
      rfl
  | ok outcome =>
    obtain ⟨more, again, further⟩ := onward outcome found
    rw [found] at split firm
    beta_reduce at again further
    rw [leave_left] at again further
    have here : (first text).bind k = k outcome := by rw [found]; rfl
    refine ⟨read ++ more, ?_, fun other sees => ?_⟩
    · beta_reduce
      rw [here, List.append_assoc]
      exact split.trans (congrArg (read ++ ·) again)
    · beta_reduce at sees ⊢
      rw [here] at sees ⊢
      -- The first reader has looked at one byte at most behind what it has read.
      rw [List.append_assoc, firm _ (sees.behind (sight_pos _) again)]
      exact further other sees

/-- A reader that goes on with what another one brought is decided if it is so from there. -/
theorem afterValue {α γ : Type} [Outcome γ] {first : List Char → Except Fault (α × List Char)}
    {whole : List Char → Except Fault γ} {k : α → List Char → Except Fault γ}
    (decided : DecidedAt first text)
    (same : ∀ text, whole text = (first text).bind (Function.uncurry k))
    (onward : ∀ value rest, first text = .ok (value, rest) → DecidedAt (k value) rest) :
    DecidedAt whole text :=
  after decided same fun outcome found => onward outcome.1 outcome.2 found

/-- A reader that brings something back is decided by where it stands. -/
theorem brings {α : Type} (value : α) :
    DecidedAt (fun tail => (.ok (value, tail) : Except Fault (α × List Char))) text :=
  stop (.ok (value, [])) fun _ _ => rfl

/-- A reader that only passes over something is decided by where it stands. -/
theorem passes : DecidedAt (fun tail => (.ok tail : Except Fault (List Char))) text :=
  stop (.ok []) fun _ _ => rfl

/-- A reader that finds a fault where it stands is decided by that. -/
theorem finds {β : Type} [Outcome β] (cause : Cause) (ahead : Nat) :
    DecidedAt (fun tail => (.error ⟨cause, tail, ahead⟩ : Except Fault β)) text :=
  stop (.error ⟨cause, [], ahead⟩) fun _ _ => rfl

/-- What is decided either way is decided, where the choice depends on how the text begins. -/
theorem look {p : List Char → Prop} [DecidablePred p]
    (seen : ∀ other, Sees 1 text other → (p other ↔ p text)) (yes : p text → DecidedAt r text)
    (no : ¬p text → DecidedAt s text) :
    DecidedAt (fun tail => if p tail then r tail else s tail) text := by
  refine near (ite (p := p text) yes no) fun other sees => ?_
  simp only [seen other sees]

/-- What is made of a value does not matter for what is decided. -/
theorem mapRead {α β : Type} {first : List Char → Except Fault (α × List Char)} (f : α → β)
    (decided : DecidedAt first text) : DecidedAt (fun tail => Json.mapRead f (first tail)) text :=
  afterValue (k := fun value rest => .ok (f value, rest)) decided
    (fun tail => by cases first tail <;> rfl)
    fun value _ _ => brings (f value)

/-- A value that is brought back beside the text does not matter for what is decided. -/
theorem map {α : Type} {first : List Char → Except Fault (List Char)} (value : α)
    (decided : DecidedAt first text) :
    DecidedAt (fun tail => (first tail).map (value, ·)) text :=
  after (k := fun rest => .ok (value, rest)) decided (fun tail => by cases first tail <;> rfl)
    fun _ _ => brings value

/-- A reader that begins with passing over blanks is decided if it is so where none are left. -/
theorem blanks (same : ∀ other, r (skipBlanks other) = r other) (ends : left (r []) = [])
    (goes : ∀ c rest, isBlank c = false → skipBlanks text = c :: rest → DecidedAt r (c :: rest)) :
    DecidedAt r text := by
  refine pass ascii_of_isBlank (k := fun _ => r) (fun other => (same other).symm) ?_
  show DecidedAt r (skipBlanks text)
  -- The blanks are passed over, and behind them there is a visible character or the end.
  cases passed : skipBlanks text with
  | nil => exact nil ends
  | cons c rest => exact goes c rest (visible_of_skipBlanks passed) passed

/-- Readers are decided if they are so on a text whenever they are so on all shorter ones. -/
theorem of_shorter {ι : Type} {r : ι → List Char → ρ}
    (step : ∀ text : List Char, (∀ shorter : List Char, shorter.length < text.length →
      ∀ i, DecidedAt (r i) shorter) → ∀ i, DecidedAt (r i) text)
    (i : ι) : Decisive (r i) := by
  intro text
  induction length : text.length using Nat.strongRecOn generalizing text i with
  | ind n ih => exact step text (fun shorter less i =>
    ih shorter.length (length ▸ less) i shorter rfl) i

end DecidedAt

end TaskPool.Json
