import TaskPool.Number.Binary64

/-!
The shortest decimal that reads back as a given double precision number, and how it is written.
-/

namespace TaskPool.Number

/-- A decimal: a whole number times a power of ten. -/
structure Decimal where
  /-- The whole number in front of the power. -/
  digits : Nat
  /-- The power of ten, which may be negative. -/
  exponent : Int
deriving DecidableEq, Repr

namespace Binary64

/-- The power of ten just below a positive fraction, or equal to it. -/
def decadeBelow (numerator denominator : Nat) : Int :=
  if denominator ≤ numerator then
    ((toString (numerator / denominator)).length : Int) - 1
  else
    -- The inverse has this many digits, so the fraction is at most one decade below that.
    let length := (toString (denominator / numerator)).length
    if denominator ≤ numerator * Nat.pow 10 (length - 1) then 1 - (length : Int)
      else -(length : Int)

/--
The decimal with this many digits that is nearest to the number and still
rounds to it, if there is one.
-/
def decimalOfLength (x : Binary64) (length : Nat) : Option Decimal :=
  -- Four units stand for one step between neighbours, so that every bound is whole.
  let unit := Nat.pow 2 x.exponent.toNat
  let denominator := 4 * Nat.pow 2 (-x.exponent).toNat
  let value := 4 * x.significand * unit
  let below := value - (if x.narrowBelow then unit else 2 * unit)
  let above := value + 2 * unit
  let exponent := decadeBelow value denominator + 1 - (length : Int)
  let raise := Nat.pow 10 (-exponent).toNat
  let grid := denominator * Nat.pow 10 exponent.toNat
  -- The ends of the interval belong to it exactly when the significand is even.
  let inside := fun digits : Nat =>
    if x.significand % 2 = 0 then
      below * raise ≤ digits * grid && digits * grid ≤ above * raise
    else below * raise < digits * grid && digits * grid < above * raise
  let low := value * raise / grid
  let left := value * raise % grid
  let lowIsNearer := 2 * left < grid || (2 * left = grid && low % 2 = 0)
  let choices := if lowIsNearer then [low, low + 1] else [low + 1, low]
  (choices.find? inside).map fun digits => ⟨digits, exponent⟩

/--
The nearest of the shortest decimals that read back as a positive number;
seventeen digits always suffice.
-/
def shortest (x : Binary64) : Decimal :=
  ((List.range 17).findSome? fun fewer => decimalOfLength x (fewer + 1)).getD ⟨0, 0⟩

end Binary64

/--
How decimals are laid out: where the point is written in place, and how
wide an exponent is at least.
-/
structure DecimalStyle where
  /-- The lowest leading power of ten that is written with the point in place. -/
  lowest : Int
  /-- The highest leading power of ten that is written with the point in place. -/
  highest : Int
  /-- The least number of digits in an exponent, which always has a sign. -/
  exponentWidth : Nat

namespace DecimalStyle

/-- Digits without the zeros at their end. -/
def trimmed (digits : List Char) : List Char := (digits.reverse.dropWhile (· = '0')).reverse

/-- A positive decimal in this style, with at least one digit on either side of a point in place. -/
def write (style : DecimalStyle) (value : Decimal) : String :=
  let all := (toString value.digits).toList
  let leading := value.exponent + (all.length : Int) - 1
  let digits := trimmed all
  let zeros := fun count : Nat => List.replicate count '0'
  String.ofList <|
    if style.lowest ≤ leading && leading ≤ style.highest then
      if leading < 0 then '0' :: '.' :: (zeros (-leading - 1).toNat ++ digits)
      else
        let whole := leading.toNat + 1
        if digits.length ≤ whole then digits ++ zeros (whole - digits.length) ++ ['.', '0']
        else digits.take whole ++ '.' :: digits.drop whole
    else
      let power := (toString leading.natAbs).toList
      let fraction := if digits.length ≤ 1 then [] else '.' :: digits.drop 1
      digits.take 1 ++ fraction ++ 'e' :: (if leading < 0 then '-' else '+') ::
        (zeros (style.exponentWidth - power.length) ++ power)

/--
A finite number in this style: a minus sign where the sign bit is set, then its shortest decimal.
-/
def writeFloat (style : DecimalStyle) (x : Float) : String :=
  let parts := Binary64.ofFloat x
  let sign := if parts.negative then "-" else ""
  if parts.significand = 0 then sign ++ "0.0" else sign ++ style.write parts.shortest

end DecimalStyle

end TaskPool.Number
