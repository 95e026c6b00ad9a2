import Mathlib.Data.Nat.Log
import Mathlib.Order.Compare
import Mathlib.Tactic.NormNum

/-!
Machine words as double precision numbers: a word that is not zero does not become zero.

A word is a whole number below `UInt64.size`, so rounding it keeps fifty-three bits of it that begin
with a one, and the exponent stays far from both ends of its range.
-/

namespace TaskPool.Number

open Float.Model (Format UnpackedFloat totalExponent)
open Float.Model.UnpackedFloat

/-- Places that are shifted out halve the mantissa one by one. -/
theorem shiftRight_mantissa (given : ExtendedMantissa) (places : Nat) :
    (given >>> places).mantissa = given.mantissa / 2 ^ places := by
  induction places with
  | zero => exact (Nat.div_one _).symm
  | succ places ih =>
    -- The last place goes by one more halving.
    calc (given >>> (places + 1)).mantissa = (given >>> places).mantissa / 2 := rfl
      _ = given.mantissa / 2 ^ (places + 1) := by rw [ih, Nat.div_div_eq_div_mul, Nat.pow_succ]

/-- Rounding a mantissa leaves it as it is or adds one. -/
theorem roundedMantissa_near (given : ExtendedMantissa) :
    given.mantissa ≤ given.roundedMantissa ∧ given.roundedMantissa ≤ given.mantissa + 1 := by
  obtain ⟨mantissa, roundBit, stickyBit⟩ := given
  -- The bits that were shifted out say which of both it is, and whether it takes an even neighbour.
  cases roundBit <;> cases stickyBit <;>
    simp only [ExtendedMantissa.roundedMantissa, ExtendedMantissa.accuracy,
      Accuracy.roundToNearestEven] <;> omega

/-- Above the smallest numbers the exponent leaves fifty-three bits in front of it. -/
theorem targetExponent_eq {mantissa : Nat} {exponent : Int}
    (large : -1074 ≤ mantissa.log2 + exponent - 52) :
    Format.binary64.targetExponent (totalExponent mantissa exponent) =
    mantissa.log2 + exponent - 52 := by
  -- The exponent that is asked for is at most the one that keeps fifty-three bits,
  -- and no less than the least one.
  show max ((mantissa.log2 : Int) + 1 + exponent - 53) (-1074) = _
  omega

/-- A long mantissa is shifted until fifty-three bits of it are left. -/
theorem shiftToTargetExponent_long {mantissa : Nat} (exponent : Int) (long : 52 ≤ mantissa.log2)
    (large : -1074 ≤ exponent) :
    ∃ shifted, shiftToTargetExponent Format.binary64 mantissa exponent .exact =
        (shifted, exponent + (mantissa.log2 - 52 : Nat)) ∧
      shifted.mantissa = mantissa / 2 ^ (mantissa.log2 - 52) := by
  have places : (mantissa.log2 + exponent - 52 - exponent).toNat = mantissa.log2 - 52 := by omega
  rw [shiftToTargetExponent, targetExponent_eq (by omega), shiftToExponent, places]
  exact ⟨_, rfl, shiftRight_mantissa _ _⟩

/-- The first fifty-three bits of a long mantissa begin with a one. -/
theorem leading_bits {mantissa : Nat} (long : 52 ≤ mantissa.log2) :
    2 ^ 52 ≤ mantissa / 2 ^ (mantissa.log2 - 52) ∧
    mantissa / 2 ^ (mantissa.log2 - 52) < 2 ^ 53 := by
  have some : mantissa ≠ 0 := by
    rintro rfl
    simp at long
  -- The mantissa lies between two powers of two, and the shift divides both by the same one.
  have least := Nat.log2_self_le some
  have most := Nat.lt_log2_self (n := mantissa)
  have width : 0 < 2 ^ (mantissa.log2 - 52) := Nat.two_pow_pos _
  constructor
  · rw [Nat.le_div_iff_mul_le width, ← Nat.pow_add]
    rwa [show 52 + (mantissa.log2 - 52) = mantissa.log2 by omega]
  · rw [Nat.div_lt_iff_lt_mul width, ← Nat.pow_add]
    rwa [show 53 + (mantissa.log2 - 52) = mantissa.log2 + 1 by omega]

/--
Rounding a long mantissa gives fifty-three bits that begin with a one,
at an exponent that is not far away.
-/
theorem roundWithAccuracy_long (sign : Sign) {mantissa : Nat} (exponent : Int)
    (long : 52 ≤ mantissa.log2) (large : -1074 ≤ exponent) :
    ∃ rounded power, ∃ positive : 0 < rounded,
      roundWithAccuracy Format.binary64 sign mantissa exponent .exact =
      .finite sign rounded power positive ∧
      rounded.log2 = 52 ∧ exponent ≤ power ∧ power ≤ exponent + mantissa.log2 := by
  obtain ⟨shifted, first, kept⟩ := shiftToTargetExponent_long exponent long large
  obtain ⟨least, most⟩ := leading_bits long
  obtain ⟨above, near⟩ := roundedMantissa_near shifted
  rw [← kept] at least most
  -- Rounding up may carry into a fifty-fourth bit.
  have carried : 52 ≤ shifted.roundedMantissa.log2 ∧ shifted.roundedMantissa.log2 ≤ 53 := by
    have some : shifted.roundedMantissa ≠ 0 := by omega
    constructor
    · exact (Nat.le_log2 some).mpr (by omega)
    · exact Nat.lt_succ_iff.mp ((Nat.log2_lt some).mpr (by omega))
  -- A second shift takes that bit away again.
  obtain ⟨last, second, again⟩ :=
    shiftToTargetExponent_long (exponent + (mantissa.log2 - 52 : Nat)) carried.1 (by omega)
  obtain ⟨least', most'⟩ := leading_bits carried.1
  rw [← again] at least' most'
  have positive : 0 < last.mantissa := by omega
  have leads : last.mantissa.log2 = 52 := (Nat.log2_eq_iff (by omega)).mpr ⟨least', most'⟩
  refine ⟨last.mantissa, exponent + (mantissa.log2 - 52 : Nat) +
    (shifted.roundedMantissa.log2 - 52 : Nat), positive,
    ?_, leads, by omega, by omega⟩
  rw [roundWithAccuracy, first]
  dsimp only
  rw [second]
  exact dif_neg (Nat.ne_of_gt positive)

/--
A word that is not zero has from fifty-three to a hundred and sixteen bits,
when zeros fill it up to fifty-three.
-/
theorem filled_long {number : Nat} (some : 0 < number) (word : number < UInt64.size) :
    52 ≤ (number <<< (52 - number.log2)).log2 ∧ (number <<< (52 - number.log2)).log2 < 116 := by
  -- Zeros behind a number are factors of two.
  rw [Nat.shiftLeft_eq]
  have least : 2 ^ 52 ≤ number * 2 ^ (52 - number.log2) := by
    calc
      2 ^ 52 ≤ 2 ^ (number.log2 + (52 - number.log2)) := Nat.pow_le_pow_right (by decide) (by omega)
      _ = 2 ^ number.log2 * 2 ^ (52 - number.log2) := Nat.pow_add ..
      _ ≤ number * 2 ^ (52 - number.log2) := Nat.mul_le_mul_right _ (Nat.log2_self_le (by omega))
  have most : number * 2 ^ (52 - number.log2) < 2 ^ 116 := by
    calc number * 2 ^ (52 - number.log2) < 2 ^ 64 * 2 ^ (52 - number.log2) :=
          Nat.mul_lt_mul_of_pos_right word (Nat.two_pow_pos _)
      _ ≤ 2 ^ 64 * 2 ^ 52 := Nat.mul_le_mul_left _ (Nat.pow_le_pow_right (by decide) (by omega))
      _ = 2 ^ 116 := by rw [← Nat.pow_add]
  have positive : number * 2 ^ (52 - number.log2) ≠ 0 := by omega
  exact ⟨(Nat.le_log2 positive).mpr least, (Nat.log2_lt positive).mpr most⟩

/--
Rounding a word that is not zero gives fifty-three bits that begin with a one,
far from both ends of the range.
-/
theorem round_word {number : Nat} (some : 0 < number) (word : number < UInt64.size) :
    ∃ rounded power, ∃ positive : 0 < rounded,
      UnpackedFloat.round Format.binary64 .positive number 0 =
      .finite .positive rounded power positive ∧
      rounded.log2 = 52 ∧ -1074 ≤ power ∧ power < 971 := by
  have width : number.log2 < 64 := (Nat.log2_lt (by omega)).mpr word
  -- The exponent falls until there are enough bits, which fills the word up with zeros.
  have places : (0 - ((number.log2 : Int) + 0 - 52)).toNat = 52 - number.log2 := by omega
  rw [UnpackedFloat.round, targetExponent_eq (by omega), decreaseExponent]
  dsimp only
  rw [places]
  obtain ⟨long, short⟩ := filled_long some word
  obtain ⟨rounded, power, positive, same, leads, low, high⟩ :=
    roundWithAccuracy_long .positive (0 - ((52 - number.log2 : Nat) : Int)) long (by omega)
  exact ⟨rounded, power, positive, same, leads, by omega, by omega⟩

/-- The sign is read back from a word that was put together from its parts. -/
theorem sign_packComponents (sign : Sign) (biased : BitVec 11) (fraction : BitVec 52) :
    Sign.ofBitVec (unpackSign (packComponents Format.binary64 sign biased fraction)) = sign := by
  -- The sign is the first bit, in front of the other two parts.
  have first : unpackSign (packComponents Format.binary64 sign biased fraction) =
      sign.toBitVec := by
    change (sign.toBitVec ++ biased ++ fraction).extractLsb' 63 1 = _
    rw [BitVec.extractLsb'_append_eq_of_le (by decide),
      BitVec.extractLsb'_append_eq_of_le (by decide)]
    exact BitVec.extractLsb'_eq_self
  rw [first]
  cases sign <;> rfl

/-- A positive number with all its bits is above zero, once it was packed into its word. -/
theorem zero_lt_pack {mantissa : Nat} {power : Int} (positive : 0 < mantissa)
    (leads : mantissa.log2 = 52) (low : -1074 ≤ power) (high : power < 971) :
    (UnpackedFloat.zero .positive).lt
      (Float.Model.pack (.finite .positive mantissa power positive)).unpack = true := by
  -- The exponent is kept as a number without sign.
  obtain ⟨biased, same, least, most⟩ :
      ∃ biased : Nat, (power + 1023 + 52).toNat = biased ∧ 0 < biased ∧ biased < 2047 :=
    ⟨_, rfl, by omega, by omega⟩
  have packed : UnpackedFloat.pack Format.binary64 (.finite .positive mantissa power positive) =
      packComponents Format.binary64 .positive (BitVec.ofNat 11 biased)
        (BitVec.ofNat 52 mantissa) := by
    have bits : Format.binary64.mantissaBits = 53 := rfl
    delta UnpackedFloat.pack
    simp only [Format.exponentBias, bits, leads]
    norm_num [same]
    omega
  have field : (BitVec.ofNat 11 biased).toNat = biased := by
    rw [BitVec.toNat_ofNat]
    exact Nat.mod_eq_of_lt (Nat.lt_trans most (by decide))
  -- The highest exponent stands for what is no finite number, and the lowest one for zero
  -- and the smallest numbers.
  have finite : BitVec.ofNat 11 biased ≠ -1#11 := by
    intro top
    rw [top] at field
    have full : (-1#11).toNat = 2047 := by decide
    omega
  have normal : BitVec.ofNat 11 biased ≠ 0#11 := by
    intro zero
    rw [zero] at field
    exact Nat.ne_of_lt least field
  show (UnpackedFloat.zero .positive).lt
    (UnpackedFloat.unpack Format.binary64 (UnpackedFloat.pack Format.binary64 _)) = true
  rw [packed]
  have kept : unpackExponent (packComponents Format.binary64 .positive (BitVec.ofNat 11 biased)
      (BitVec.ofNat 52 mantissa)) = BitVec.ofNat 11 biased := unpackExponent_packComponents
  delta UnpackedFloat.unpack
  dsimp only
  rw [if_neg fun top => finite (kept.symm.trans top), if_neg fun zero =>
    normal (kept.symm.trans zero),
    sign_packComponents]
  rfl

/-- A word that is not zero is above zero as a double precision number. -/
theorem toFloat_pos {word : UInt64} (some : 0 < word) : 0 < word.toFloat := by
  have above : 0 < word.toNat := UInt64.lt_iff_toNat_lt.mp some
  obtain ⟨mantissa, power, positive, rounded, leads, low, high⟩ := round_word above word.toNat_lt
  -- The word is not negative, so it is rounded as it is.
  have unpacked : UnpackedFloat.ofUInt64 Format.binary64 word =
      .finite .positive mantissa power positive := by
    rw [← rounded, UnpackedFloat.ofUInt64, UnpackedFloat.ofNat, UnpackedFloat.ofInt,
      UnpackedFloat.normalize]
    have side : compare (word.toNat : Int) 0 = .gt := by
      rw [compare_gt_iff_gt]
      omega
    rw [side]
    rfl
  have made : word.toFloat.toModel =
      Float.Model.pack (.finite .positive mantissa power positive) := by
    rw [← unpacked]
    rfl
  have zero : (0 : Float).toModel.unpack = .zero .positive := rfl
  have less := zero_lt_pack positive leads low high
  rw [← made, ← zero] at less
  exact decide_eq_true less

end TaskPool.Number
