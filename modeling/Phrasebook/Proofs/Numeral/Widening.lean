import Phrasebook.Proofs.Numeral.Reading

/-!
# Patterns and the numbers that they denote

A pattern of sign, exponent and fraction denotes `(-1) ^ sign * 1.fraction * 2 ^ (exponent - bias)`.
With the least exponent the leading one is missing, and with the greatest there is no number. Every
pattern of single precision has one of double precision that denotes the same.
-/

namespace Phrasebook.Numeral

/-! ## The number of a pattern -/

/-- The number that a pattern denotes, if it is finite: the fraction counts from the binary point, and
the exponent from the bias, the middle of its range. -/
def patternNumber (exponentBits fractionBits pattern : Nat) : Option ℚ :=
  let sign : ℚ := if pattern.testBit (exponentBits + fractionBits) then -1 else 1
  let exponent := pattern / 2 ^ fractionBits % 2 ^ exponentBits
  let fraction : ℚ := (pattern % 2 ^ fractionBits : Nat) / 2 ^ fractionBits
  let bias : Int := 2 ^ (exponentBits - 1) - 1
  if exponent = 2 ^ exponentBits - 1 then none
  else if exponent = 0 then some (sign * fraction * 2 ^ (1 - bias))
  else some (sign * (1 + fraction) * 2 ^ (exponent - bias))

theorem Binary.toRat_eq (value : Binary) :
    value.toRat = (if value.negative then -1 else 1) * value.mantissa * 2 ^ value.exponent := by
  rw [toRat, magnitude]
  split
  · rw [neg_one_mul, neg_mul]
  · rw [one_mul]

/-- A mantissa counts in units of the last place of the fraction. -/
theorem FloatValue.toRat?_finite (negative narrow : Bool) (mantissa fractionBits : Nat)
    (exponent bias : Int) :
    (finite ⟨negative, mantissa, exponent - (bias + fractionBits), narrow⟩).toRat? =
      some
        ((if negative then -1 else 1) * ((mantissa : ℚ) / 2 ^ fractionBits) *
          2 ^ (exponent - bias)) := by
  rw [toRat?, Binary.toRat_eq, Option.some_inj]
  dsimp only
  rw [← sub_sub, zpow_sub₀ two_ne_zero, zpow_natCast, mul_div_assoc', mul_div_assoc',
    div_mul_eq_mul_div]

/-- Reading a pattern gives the number that the format assigns to it. -/
theorem FloatValue.toRat?_ofPattern {exponentBits : Nat} (positive : 0 < exponentBits)
    (fractionBits pattern : Nat) :
    (ofPattern exponentBits fractionBits pattern).toRat? =
      patternNumber exponentBits fractionBits pattern := by
  have sign : (pattern / 2 ^ fractionBits / 2 ^ exponentBits % 2 == 1) =
      pattern.testBit (exponentBits + fractionBits) := by
    rw [Nat.testBit_eq_decide_div_mod_eq, Nat.div_div_eq_div_mul, ← Nat.pow_add,
      Nat.add_comm fractionBits]
    rfl
  have middle : ((2 ^ exponentBits / 2 : Nat) : Int) = 2 ^ (exponentBits - 1) := by
    obtain ⟨fewer, rfl⟩ := Nat.exists_eq_add_one.2 positive
    rw [Nat.pow_succ, Nat.mul_div_cancel _ two_pos, Nat.add_sub_cancel]
    push_cast
    rfl
  have power : (2 : ℚ) ^ fractionBits ≠ 0 := pow_ne_zero _ two_ne_zero
  rw [ofPattern, patternNumber]
  simp only [Nat.pow_eq, beq_iff_eq, sign, middle]
  generalize pattern / 2 ^ fractionBits % 2 ^ exponentBits = exponent
  generalize pattern % 2 ^ fractionBits = fraction
  split
  case isTrue greatest => split <;> rfl
  case isFalse =>
    split
    case isTrue least => rw [toRat?_finite]
    case isFalse normal =>
      rw [toRat?_finite, Nat.cast_add, Nat.cast_pow, Nat.cast_two, add_div, div_self power]

/-! ## The same number in another format -/

/-- Values of the same kind and sign, and of the same magnitude if they are finite. -/
inductive SameNumber : FloatValue → FloatValue → Prop
  | finite {x y : Binary} (sign : y.negative = x.negative) (magnitude : y.magnitude = x.magnitude) :
    SameNumber (.finite x) (.finite y)
  | infinite (negative : Bool) : SameNumber (.infinite negative) (.infinite negative)
  | notANumber : SameNumber .notANumber .notANumber

theorem SameNumber.toRat?_eq {value other : FloatValue} (same : SameNumber value other) :
    other.toRat? = value.toRat? := by
  cases same with
  | finite sign magnitude =>
    rw [FloatValue.toRat?, FloatValue.toRat?, Binary.toRat, Binary.toRat, sign, magnitude]
  | infinite => rfl
  | notANumber => rfl

/-- The integral reading depends on the number alone. -/
theorem FloatValue.integral?_congr {value other : FloatValue} (same : other.toRat? = value.toRat?) :
    other.integral? = value.integral? := by
  refine Option.ext fun n ↦ ?_
  rw [integral?_eq_some_iff, integral?_eq_some_iff, same]

/-! ## From single to double precision -/

/-- The double-precision pattern of a magnitude, given the pattern in single precision. The exponent
moves into the wider range, the fraction gets zeros at its end. Below the normal magnitudes the digits
move up until the leading one is there, which is not part of a fraction. -/
def widenMagnitude (magnitude : Nat) : Nat :=
  let exponent := magnitude / 2 ^ 23
  let fraction := magnitude % 2 ^ 23
  if exponent = 255 then 2047 * 2 ^ 52 + fraction * 2 ^ 29
  else if exponent ≠ 0 then (exponent + 896) * 2 ^ 52 + fraction * 2 ^ 29
  else if fraction = 0 then 0
  else
    let leading := Nat.log2 fraction
    (leading + 874) * 2 ^ 52 + (fraction * 2 ^ (52 - leading) - 2 ^ 52)

def widen (bits : UInt32) : UInt64 :=
  .ofNat (bits.toNat / 2 ^ 31 * 2 ^ 63 + widenMagnitude (bits.toNat % 2 ^ 31))

variable {negative : Bool} {exponent fraction : Nat}

def signedSingle (negative : Bool) (magnitude : Nat) : FloatValue :=
  .ofPattern 8 23 (negative.toNat * 2 ^ 31 + magnitude)

theorem signedSingle_of_fields (below : exponent < 256) (small : fraction < 2 ^ 23) :
    signedSingle negative (exponent * 2 ^ 23 + fraction) =
      if exponent = 255 then if fraction = 0 then .infinite negative else .notANumber
      else if exponent = 0 then .finite ⟨negative, fraction, -149, false⟩
      else .finite ⟨negative, 2 ^ 23 + fraction, (exponent : Int) - 150,
        fraction == 0 && exponent > 1⟩ :=
  FloatValue.ofPattern_of_fields negative (show exponent < 2 ^ 8 from below) small

/-- The greatest exponent is that of no finite double. -/
theorem signed_of_greatest (small : fraction < 2 ^ 52) :
    signed negative (2047 * 2 ^ 52 + fraction) =
      if fraction = 0 then .infinite negative else .notANumber :=
  FloatValue.ofPattern_of_fields negative (show 2047 < 2 ^ 11 by decide) small

/-- A number below the normal ones of single precision is normal in double precision. -/
theorem sameNumber_subnormal (negative : Bool) (nonzero : fraction ≠ 0) (small : fraction < 2 ^ 23) :
    SameNumber (.finite ⟨negative, fraction, -149, false⟩)
      (signed negative ((Nat.log2 fraction + 874) * 2 ^ 52 +
        (fraction * 2 ^ (52 - Nat.log2 fraction) - 2 ^ 52))) := by
  obtain ⟨log, leading, mantissa⟩ := Binary.leading_shifted nonzero (small.trans (by decide))
  rw [signed_of_fields (by omega) (by omega), if_neg (by omega)]
  refine .finite rfl (Binary.magnitude_of_shift (52 - Nat.log2 fraction) ?_ ?_)
  · exact Nat.add_sub_of_le leading
  · dsimp only
    omega

/-- A magnitude is the same number in both precisions. -/
theorem sameNumber_widenMagnitude (negative : Bool) {magnitude : Nat} (h : magnitude < 2 ^ 31) :
    SameNumber (signedSingle negative magnitude) (signed negative (widenMagnitude magnitude)) := by
  have small : magnitude % 2 ^ 23 < 2 ^ 23 := Nat.mod_lt _ (Nat.two_pow_pos 23)
  have below : magnitude / 2 ^ 23 < 256 := by omega
  have fields : magnitude = magnitude / 2 ^ 23 * 2 ^ 23 + magnitude % 2 ^ 23 := by omega
  rw [widenMagnitude]
  dsimp only
  generalize magnitude / 2 ^ 23 = exponent at *
  generalize magnitude % 2 ^ 23 = fraction at *
  have room : fraction * 2 ^ 29 < 2 ^ 52 := by omega
  rw [fields, signedSingle_of_fields below small]
  by_cases greatest : exponent = 255
  · -- Infinities and patterns of no number differ in the fraction, which gets zeros at its end.
    have zeros : fraction * 2 ^ 29 = 0 ↔ fraction = 0 := by omega
    rw [if_pos greatest, if_pos greatest, signed_of_greatest room]
    simp only [zeros]
    split
    · exact .infinite negative
    · exact .notANumber
  rw [if_neg greatest, if_neg greatest]
  by_cases normal : exponent = 0
  · rw [if_pos normal, if_neg (not_not.2 normal)]
    split
    case isTrue zero =>
      rw [zero, signed_zero]
      exact .finite rfl (by simp only [Binary.magnitude, Nat.cast_zero, zero_mul])
    case isFalse nonzero => exact sameNumber_subnormal negative nonzero small
  · -- The leading bit stands in front of the fraction, so it moves up by as many places.
    rw [if_neg normal, if_pos normal, signed_of_fields (by omega) room, if_neg (Nat.succ_ne_zero _)]
    refine .finite rfl (Binary.magnitude_of_shift 29 ?_ ?_)
    · dsimp only
      omega
    · dsimp only
      omega

theorem widenMagnitude_lt {magnitude : Nat} (h : magnitude < 2 ^ 31) :
    widenMagnitude magnitude < 2 ^ 63 := by
  have fraction : magnitude % 2 ^ 23 < 2 ^ 53 := by omega
  rw [widenMagnitude]
  dsimp only
  split_ifs with greatest normal zero
  · omega
  · omega
  · decide
  · have log := Binary.leading_shifted zero fraction
    omega

/-- A single-precision pattern and its double-precision one denote the same number. -/
theorem sameNumber_widen (bits : UInt32) :
    SameNumber (.ofBits32 bits) (.ofBits64 (widen bits)) := by
  have width := bits.toNat_lt
  have small : bits.toNat % 2 ^ 31 < 2 ^ 31 := Nat.mod_lt _ (Nat.two_pow_pos 31)
  have wide := widenMagnitude_lt small
  obtain ⟨negative, sign⟩ : ∃ negative : Bool, negative.toNat = bits.toNat / 2 ^ 31 := by
    rcases (show bits.toNat / 2 ^ 31 = 0 ∨ bits.toNat / 2 ^ 31 = 1 by omega) with zero | one
    · exact ⟨false, zero.symm⟩
    · exact ⟨true, one.symm⟩
  have single : bits.toNat = negative.toNat * 2 ^ 31 + bits.toNat % 2 ^ 31 := by omega
  have double : (widen bits).toNat =
      negative.toNat * 2 ^ 63 + widenMagnitude (bits.toNat % 2 ^ 31) := by
    rw [widen, ← sign]
    exact UInt64.toNat_ofNat_of_lt' (show _ < 2 ^ 64 by omega)
  have same := sameNumber_widenMagnitude negative small
  rwa [signedSingle, signed, ← single, ← double] at same

end Phrasebook.Numeral
