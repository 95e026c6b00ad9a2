import Mathlib.Algebra.Ring.Nat
import TaskPool.Proofs.Text.Lexemes
import TaskPool.Span

/-! Numbers and spans of time are written as words, and no two of them as the same word. -/

namespace TaskPool

namespace Text

/-! Numbers: their digits tell which number it is. -/

/-- Digits belong to words. -/
theorem isWordly_of_isDigit {c : Char} (digit : c.isDigit = true) : isWordly c = true := by
  have other (d : Char) (none : d.isDigit = false) : c ≠ d := by
    rintro rfl
    rw [none] at digit
    cases digit
  simp [isWordly, isMark, isSpacing, other]

/-- The digits of a natural number. -/
theorem isDigit_natural (n : Nat) : ∀ c ∈ Nat.toDigits 10 n, c.isDigit = true :=
  fun _ inside => Nat.isDigit_of_mem_toDigits (by decide) (by decide) inside

/-- A natural number is told by its digits. -/
theorem toDigits_injective {n m : Nat} (same : Nat.toDigits 10 n = Nat.toDigits 10 m) : n = m := by
  have value := congrArg (Nat.ofDigitChars 10 · 0) same
  simpa using value

/-- Where the digits of a number end, and which number it is, is seen from the text. -/
theorem toDigits_unique {n m : Nat} {text more : List Char} (ends : EndsRun Char.isDigit text)
    (stops : EndsRun Char.isDigit more)
    (same : Nat.toDigits 10 n ++ text = Nat.toDigits 10 m ++ more) :
    n = m ∧ text = more := by
  obtain ⟨digits, rests⟩ := run_unique (isDigit_natural n) (isDigit_natural m) ends stops same
  exact ⟨toDigits_injective digits, rests⟩

/-- A word may go on with characters of words. -/
theorem isWord_append {word more : String} (isWord : IsWord word)
    (all : ∀ c ∈ more.toList, isWordly c = true) :
    IsWord (word ++ more) := by
  refine ⟨by simp [isWord.1], ?_⟩
  rw [String.toList_append]
  exact List.forall_mem_append.mpr ⟨isWord.2, all⟩

/-- A natural number is written as a word. -/
theorem isWord_natural (n : Nat) : IsWord (toString n) := by
  rw [Nat.toString_eq_repr]
  refine ⟨by simp, fun c inside => isWordly_of_isDigit (isDigit_natural n c ?_)⟩
  rwa [Nat.toList_repr] at inside

/-- Natural numbers are written alike just if they are the same. -/
theorem natural_injective {n m : Nat} (same : toString n = toString m) : n = m := by
  have digits := congrArg String.toList same
  simp only [Nat.toString_eq_repr, Nat.toList_repr] at digits
  exact toDigits_injective digits

/-- A whole number is written as a word. -/
theorem isWord_integer (n : Int) : IsWord (toString n) := by
  cases n with
  | ofNat n => exact isWord_natural n
  | negSucc n =>
    have sign : IsWord "-" := by decide
    exact isWord_append sign (isWord_natural (n + 1)).2

/-- Whole numbers are written alike just if they are the same. -/
theorem integer_injective {n m : Int} (same : toString n = toString m) : n = m := by
  -- Only a number below zero begins with a sign.
  have unsigned (n m : Nat) : toString n ≠ "-" ++ toString (m + 1) := by
    intro same
    have sign : '-' ∈ Nat.toDigits 10 n := by
      have written := congrArg String.toList same
      simp only [Nat.toString_eq_repr, Nat.toList_repr, String.toList_append] at written
      rw [written]
      exact List.mem_append_left _ (List.mem_singleton_self '-')
    exact absurd (isDigit_natural n _ sign) (by decide)
  cases n with
  | ofNat n =>
    cases m with
    | ofNat m => rw [natural_injective same]
    | negSucc m => exact absurd same (unsigned n m)
  | negSucc n =>
    cases m with
    | ofNat m => exact absurd same.symm (unsigned m n)
    | negSucc m => rw [Nat.succ_inj.mp (natural_injective ((String.append_right_inj "-").mp same))]

end Text

open Text

namespace Span

/-! Spans: a number of units with the digits of a fraction behind it. -/

/-- The units in which spans are shown, each with how many digits a fraction of it has at most. -/
def units : List (String × Nat) := [("s", 9), ("ms", 6), ("µs", 3), ("ns", 0)]

/--
A span is shown as a number of units and a fraction, which together are exactly as long as the span.
-/
theorem display_eq (span : Span) :
    ∃ whole width fraction unit, (unit, width) ∈ units ∧ fraction < 10 ^ width ∧
    span.toNanos = whole * 10 ^ width + fraction ∧
    span.display = unitText whole width fraction unit := by
  have below := span.nanos.isLt
  have short (none : ¬0 < span.seconds) : span.toNanos = span.nanos.val := by
    have zero : span.seconds.toNat = 0 := by simpa [UInt64.lt_iff_toNat_lt] using none
    rw [toNanos, zero, Nat.zero_mul, Nat.zero_add]
  -- Each of the four units is chosen where the span has a whole one of it,
  -- and no whole one of any before it.
  simp only [display]
  split_ifs with seconds milli micro
  · exact ⟨_, 9, _, "s", by decide, below, rfl, rfl⟩
  · exact ⟨_, 6, _, "ms", by decide, Nat.mod_lt _ (by decide), by rw [short seconds]; omega, rfl⟩
  · exact ⟨_, 3, _, "µs", by decide, Nat.mod_lt _ (by decide), by rw [short seconds]; omega, rfl⟩
  · exact ⟨_, 0, 0, "ns", by decide, by decide, by rw [short seconds]; omega, rfl⟩

/-- A unit has one number of digits. -/
theorem units_functional :
    ∀ entry ∈ units, ∀ other ∈ units, entry.1 = other.1 → entry.2 = other.2 := by
  decide

/-- A unit begins neither with a digit nor with a point. -/
theorem units_head :
    ∀ entry ∈ units, ∃ c rest, entry.1.toList = c :: rest ∧ c.isDigit = false ∧ c ≠ '.' := by
  simp only [units, List.forall_mem_cons]
  exact ⟨⟨_, _, rfl, by decide⟩, ⟨_, _, rfl, by decide⟩, ⟨_, _, rfl, by decide⟩,
    ⟨_, _, rfl, by decide⟩, List.forall_mem_nil _⟩

/-- All digits that a width has room for: zeros in front, and the digits of a number. -/
def paddedDigits (width value : Nat) : List Char :=
  List.replicate (width - (Nat.toDigits 10 value).length) '0' ++ Nat.toDigits 10 value

/-- The zeros at the end are left out of all digits. -/
theorem fractionDigits_eq (width value : Nat) :
    fractionDigits width value =
    ((paddedDigits width value).reverse.dropWhile (· = '0')).reverse := by
  simp only [fractionDigits, paddedDigits, Nat.toString_eq_repr, Nat.toList_repr]

/-- The digits behind the point are digits. -/
theorem isDigit_fractionDigits (width value : Nat) :
    ∀ c ∈ fractionDigits width value, c.isDigit = true := by
  intro c inside
  rw [fractionDigits_eq] at inside
  have kept := (List.dropWhile_sublist _).subset (List.mem_reverse.mp inside)
  -- What is kept of them is a digit of the number, or a zero that fills up its width.
  rcases List.mem_append.mp (List.mem_reverse.mp kept) with zero | digit
  · rw [List.eq_of_mem_replicate zero]
    rfl
  · exact isDigit_natural value c digit

/-- There are as many digits as the width says, if the number leaves them. -/
theorem length_paddedDigits {width value : Nat} (small : value < 10 ^ width) (some : 0 < width) :
    (paddedDigits width value).length = width := by
  have room : (Nat.toDigits 10 value).length ≤ width :=
    (Nat.length_toDigits_le_iff (by decide) some).mpr small
  rw [paddedDigits, List.length_append, List.length_replicate]
  omega

/-- Zeros in front of a number do not change it. -/
theorem ofDigitChars_paddedDigits (width value : Nat) :
    Nat.ofDigitChars 10 (paddedDigits width value) 0 = value := by
  simp [paddedDigits, Nat.ofDigitChars_append]

/-- All digits are those that are shown, and the zeros that were left out. -/
theorem fractionDigits_append_zeros {width value : Nat}
    (full : (paddedDigits width value).length = width) :
    fractionDigits width value ++ List.replicate (width - (fractionDigits width value).length) '0' =
      paddedDigits width value := by
  have unfolded := fractionDigits_eq width value
  generalize paddedDigits width value = all at full unfolded
  -- Read backwards, all digits are the zeros that were left out, and then those that were not.
  have apart : fractionDigits width value ++ (all.reverse.takeWhile (· = '0')).reverse = all := by
    rw [unfolded, ← List.reverse_append, List.takeWhile_append_dropWhile, List.reverse_reverse]
  have zeros : (all.reverse.takeWhile (· = '0')).reverse =
      List.replicate (width - (fractionDigits width value).length) '0' := by
    refine List.eq_replicate_iff.mpr ⟨?_, fun c inside => ?_⟩
    · have lengths := congrArg List.length apart
      rw [List.length_append, full] at lengths
      omega
    · simpa using List.all_eq_true.mp List.all_takeWhile c (List.mem_reverse.mp inside)
  rw [← zeros, apart]

/-- A fraction is told by its digits, also without the zeros at their end. -/
theorem fractionDigits_injective {width value other : Nat} (small : value < 10 ^ width)
    (small' : other < 10 ^ width) (same : fractionDigits width value = fractionDigits width other) :
    value = other := by
  rcases Nat.eq_zero_or_pos width with rfl | some
  · -- Without room for digits there is no fraction.
    simp only [Nat.pow_zero] at small small'
    omega
  · have digits := fractionDigits_append_zeros (length_paddedDigits small some)
    rw [same, fractionDigits_append_zeros (length_paddedDigits small' some)] at digits
    rw [← ofDigitChars_paddedDigits width value, ← digits, ofDigitChars_paddedDigits]

/-- The digits of a number of units end in front of the unit, and in front of the point. -/
theorem endsRun_unit {unit : String} {width : Nat} (known : (unit, width) ∈ units) :
    EndsRun Char.isDigit unit.toList := by
  obtain ⟨c, rest, front, noDigit, -⟩ := units_head _ known
  intro d first
  rw [front] at first
  obtain rfl : c = d := Option.some.inj first
  exact noDigit

/-- No unit begins with a point. -/
theorem unit_ne_point {unit : String} {width : Nat} (known : (unit, width) ∈ units)
    (text : List Char) :
    unit.toList ≠ '.' :: text := by
  obtain ⟨c, rest, front, -, noPoint⟩ := units_head _ known
  rw [front]
  exact fun same => noPoint (List.cons.inj same).1

/--
What stands behind the number of units: the unit, and the digits of a fraction in front of it.
-/
def behindUnits (width fraction : Nat) (unit : String) : List Char :=
  if fractionDigits width fraction = [] then unit.toList
  else '.' :: (fractionDigits width fraction ++ unit.toList)

/-- A number of units begins with its digits. -/
theorem toList_unitText (whole width fraction : Nat) (unit : String) :
    (unitText whole width fraction unit).toList = Nat.toDigits 10 whole ++
    behindUnits width fraction unit := by
  simp only [unitText, behindUnits, Nat.toString_eq_repr]
  split <;> simp

/-- The number of units, the digits of the fraction, and the unit are seen from the text. -/
theorem unitText_unique {whole width fraction whole' width' fraction' : Nat} {unit unit' : String}
    (known : (unit, width) ∈ units) (known' : (unit', width') ∈ units)
    (same : unitText whole width fraction unit = unitText whole' width' fraction' unit') :
    whole = whole' ∧ fractionDigits width fraction = fractionDigits width' fraction' ∧
    unit = unit' := by
  have ends {width fraction : Nat} {unit : String} (known : (unit, width) ∈ units) :
      EndsRun Char.isDigit (behindUnits width fraction unit) := by
    unfold behindUnits
    split
    · exact endsRun_unit known
    · intro c first
      obtain rfl : '.' = c := Option.some.inj first
      rfl
  have texts := congrArg String.toList same
  rw [toList_unitText, toList_unitText] at texts
  obtain ⟨rfl, tails⟩ := toDigits_unique (ends known) (ends known') texts
  refine ⟨rfl, ?_⟩
  -- Either there is a fraction in both texts, or in none of them.
  unfold behindUnits at tails
  split_ifs at tails with empty empty' empty'
  · exact ⟨empty.trans empty'.symm, String.toList_inj.mp tails⟩
  · exact absurd tails (unit_ne_point known _)
  · exact absurd tails.symm (unit_ne_point known' _)
  · obtain ⟨digits, rests⟩ := run_unique (isDigit_fractionDigits width fraction)
      (isDigit_fractionDigits width' fraction') (endsRun_unit known) (endsRun_unit known')
        (List.cons.inj tails).2
    exact ⟨digits, String.toList_inj.mp rests⟩

/-- Spans of the same length are the same. -/
theorem toNanos_injective {span other : Span} (same : span.toNanos = other.toNanos) :
    span = other := by
  obtain ⟨seconds, nanos⟩ := span
  obtain ⟨seconds', nanos'⟩ := other
  have below := nanos.isLt
  have below' := nanos'.isLt
  simp only [toNanos] at same
  -- Less than a second is left beside the whole seconds.
  have whole : seconds = seconds' := UInt64.toNat_inj.mp (by omega)
  have part : nanos = nanos' := Fin.ext (by omega)
  rw [whole, part]

/-- Spans are shown alike just if they are the same. -/
theorem display_injective {span other : Span} (same : span.display = other.display) :
    span = other := by
  obtain ⟨whole, width, fraction, unit, known, small, long, shown⟩ := span.display_eq
  obtain ⟨whole', width', fraction', unit', known', small', long', shown'⟩ := other.display_eq
  obtain ⟨rfl, digits, rfl⟩ := unitText_unique known known' (shown.symm.trans (same.trans shown'))
  obtain rfl : width = width' := units_functional _ known _ known' rfl
  rw [fractionDigits_injective small small' digits, ← long'] at long
  exact toNanos_injective long

/-- A unit is a word. -/
theorem isWord_unit : ∀ entry ∈ units, IsWord entry.1 := by
  decide

/-- A span is shown as a word. -/
theorem isWord_display (span : Span) : IsWord span.display := by
  obtain ⟨whole, width, fraction, unit, known, -, -, shown⟩ := span.display_eq
  have point : isWordly '.' = true := by decide
  -- Behind the whole number there is a point with digits, or the unit at once.
  have behind : ∀ c ∈ behindUnits width fraction unit, isWordly c = true := by
    unfold behindUnits
    split
    · exact (isWord_unit _ known).2
    · refine List.forall_mem_cons.mpr ⟨point, List.forall_mem_append.mpr
        ⟨fun c inside => ?_, (isWord_unit _ known).2⟩⟩
      exact isWordly_of_isDigit (isDigit_fractionDigits width fraction c inside)
  rw [shown]
  unfold IsWord
  rw [toList_unitText]
  refine ⟨by simp, List.forall_mem_append.mpr ⟨fun c inside => ?_, behind⟩⟩
  exact isWordly_of_isDigit (isDigit_natural whole c inside)

end Span

end TaskPool
