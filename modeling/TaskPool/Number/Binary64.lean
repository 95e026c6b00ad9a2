/-! Double precision numbers taken apart into an exact whole number times a power of two. -/

namespace TaskPool.Number

/-- A finite double precision number: its sign, and a whole number times a power of two. -/
structure Binary64 where
  /-- Whether the sign bit is set, which zero can have too. -/
  negative : Bool
  /-- The whole number in front of the power. -/
  significand : Nat
  /-- The power of two, which may be negative. -/
  exponent : Int
  /-- Whether the next smaller number is only half as far away as the next larger one. -/
  narrowBelow : Bool
deriving DecidableEq, Repr

namespace Binary64

/-- How many fractions there are between a power of two and the next. -/
def fractionCount : Nat := 4503599627370496

/-- How many exponents there are. -/
def exponentCount : Nat := 2048

/--
The parts of a number from its sixty-four bits: sign, eleven exponent bits, fifty-two fraction bits.
-/
def ofBits (bits : UInt64) : Binary64 :=
  let fraction : Nat := bits.toNat % fractionCount
  let power : Nat := bits.toNat / fractionCount % exponentCount
  { negative := bits.toNat / (fractionCount * exponentCount) = 1
    -- The lowest exponent has no hidden leading bit.
    significand := if power = 0 then fraction else fractionCount + fraction
    exponent := if power = 0 then -1074 else (power : Int) - 1075
    narrowBelow := fraction = 0 && 1 < power }

/-- The parts of a finite number. -/
def ofFloat (x : Float) : Binary64 := ofBits x.toBits

/-- The nearest whole number to the magnitude, where a half goes to the even neighbour. -/
def nearestWhole (x : Binary64) : Nat :=
  let unit := Nat.pow 2 (-x.exponent).toNat
  let scaled := x.significand * Nat.pow 2 x.exponent.toNat
  let whole := scaled / unit
  let left := scaled % unit
  if 2 * left < unit then whole
  else if unit < 2 * left then whole + 1
  else whole + whole % 2

end Binary64

end TaskPool.Number
