import TaskPool.Text.Outline

/-! Spans of time: whole seconds in a machine word, and the nanoseconds left over. -/

namespace TaskPool

/-- A span of time, in the one form where the nanoseconds stay below a second. -/
structure Span where
  /-- The whole seconds. -/
  seconds : UInt64
  /-- The nanoseconds beyond them. -/
  nanos : Fin 1000000000
deriving DecidableEq, Repr

namespace Span

/-- The length of a span in nanoseconds, without any bound. -/
def toNanos (span : Span) : Nat := span.seconds.toNat * 1000000000 + span.nanos.val

/-- The span of no time. -/
def zero : Span := ⟨0, 0⟩

/-- Whether a span is no time at all. -/
def isZero (span : Span) : Bool := span.seconds = 0 && span.nanos.val = 0

/--
Whether a span is shorter than another one: the seconds decide, and between
equal ones the nanoseconds.
-/
def isBelow (span other : Span) : Bool :=
  span.seconds < other.seconds || (span.seconds = other.seconds && span.nanos.val < other.nanos.val)

/-- A span is no time just if it has no length. -/
@[simp] theorem isZero_iff (span : Span) : span.isZero = true ↔ span.toNanos = 0 := by
  simp only [isZero, toNanos, Bool.and_eq_true, decide_eq_true_eq, ← UInt64.toNat_inj,
    UInt64.toNat_zero]
  omega

/-- A span is shorter just if it has the lesser length, since no nanoseconds make up a second. -/
@[simp] theorem isBelow_iff (span other : Span) :
    span.isBelow other = true ↔ span.toNanos < other.toNanos := by
  have part := span.nanos.isLt
  have otherPart := other.nanos.isLt
  simp only [isBelow, toNanos, Bool.or_eq_true, Bool.and_eq_true, decide_eq_true_eq,
    UInt64.lt_iff_toNat_lt, ← UInt64.toNat_inj]
  omega

/--
The span of so many seconds and so many nanoseconds more.

Nanoseconds beyond a second are carried over, and the span is missing when the
seconds then leave their word.
-/
def ofParts? (seconds nanos : Nat) : Option Span :=
  if seconds + nanos / 1000000000 < UInt64.size then
    some ⟨.ofNat (seconds + nanos / 1000000000), ⟨nanos % 1000000000, Nat.mod_lt _ (by decide)⟩⟩
  else none

/-- The digits behind the point, as many as the width says but without the zeros at their end. -/
def fractionDigits (width value : Nat) : List Char :=
  let digits := (toString value).toList
  let padded := List.replicate (width - digits.length) '0' ++ digits
  (padded.reverse.dropWhile (· = '0')).reverse

/-- A number of units with an exact fraction behind it, where the fraction has the given width. -/
def unitText (whole width fraction : Nat) (unit : String) : String :=
  let digits := fractionDigits width fraction
  toString whole ++ (if digits = [] then "" else "." ++ String.ofList digits) ++ unit

/-- The span in the largest unit of which it holds a whole one. -/
def display (span : Span) : String :=
  let nanos := span.nanos.val
  if 0 < span.seconds then unitText span.seconds.toNat 9 nanos "s"
  else if 1000000 ≤ nanos then unitText (nanos / 1000000) 6 (nanos % 1000000) "ms"
  else if 1000 ≤ nanos then unitText (nanos / 1000) 3 (nanos % 1000) "µs"
  else unitText nanos 0 0 "ns"

/-- A span as one part of an outline. -/
def outline (span : Span) : Text.Outline := .atom span.display

end Span

end TaskPool
