import Mathlib.Tactic.Linarith
import Mathlib.Tactic.Ring
import Phrasebook.Proofs.Numeral.Integral

/-!
# Doubles and the numbers that round to them

The finite magnitudes of double precision are told by mantissa and exponent. Their rounding intervals
reach half of the way to the next magnitudes on both sides, and the ends belong to a magnitude if its
mantissa is even. No other magnitude is nearer to a number of the interval.
-/

namespace Phrasebook.Numeral

/-! ## Finite patterns -/

/-- What mantissa and exponent of a finite double are like. -/
structure Binary.IsDouble (x : Binary) : Prop where
  mantissa : x.mantissa < 2 ^ 53
  least : -1074 ≤ x.exponent
  /-- Only with the least exponent the leading bit may be absent. -/
  leading : x.exponent ≠ -1074 → 2 ^ 52 ≤ x.mantissa
  narrow : x.narrowBelow = true ↔ x.mantissa = 2 ^ 52 ∧ x.exponent ≠ -1074

/-- A pattern is read by the fields that it is put together from. -/
theorem FloatValue.ofPattern_of_fields {exponentBits fractionBits exponent fraction : Nat}
    (negative : Bool) (below : exponent < 2 ^ exponentBits) (small : fraction < 2 ^ fractionBits) :
    ofPattern exponentBits fractionBits
        (negative.toNat * 2 ^ (exponentBits + fractionBits) +
          (exponent * 2 ^ fractionBits + fraction)) =
      let bias : Int := (2 ^ exponentBits / 2 : Nat) - 1 + fractionBits
      if exponent = 2 ^ exponentBits - 1 then
        if fraction = 0 then .infinite negative else .notANumber
      else if exponent = 0 then .finite ⟨negative, fraction, 1 - bias, false⟩
      else .finite
        ⟨negative, 2 ^ fractionBits + fraction, exponent - bias, fraction == 0 && exponent > 1⟩ := by
  have grouped : negative.toNat * 2 ^ (exponentBits + fractionBits) +
      (exponent * 2 ^ fractionBits + fraction) =
        (negative.toNat * 2 ^ exponentBits + exponent) * 2 ^ fractionBits + fraction := by
    rw [Nat.pow_add, ← Nat.mul_assoc, Nat.add_mul, Nat.add_assoc]
  have quotient {a b c : Nat} (h : c < b) : (a * b + c) / b = a := by
    rw [Nat.add_comm, Nat.add_mul_div_right _ _ (Nat.zero_lt_of_lt h), Nat.div_eq_of_lt h,
      Nat.zero_add]
  have bit : (negative.toNat % 2 == 1) = negative := by
    cases negative
    all_goals rfl
  rw [grouped, ofPattern]
  simp only [Nat.pow_eq, beq_iff_eq, Nat.mul_add_mod_of_lt small, quotient small,
    Nat.mul_add_mod_of_lt below, quotient below, bit]

/-- A pattern of 64 bits, by its exponent. -/
theorem FloatValue.ofPattern_double (pattern : Nat) :
    ofPattern 11 52 pattern =
      let negative := pattern / 2 ^ 63 % 2 == 1
      let exponent : Nat := pattern / 2 ^ 52 % 2048
      let fraction : Nat := pattern % 2 ^ 52
      if exponent = 2047 then if fraction = 0 then .infinite negative else .notANumber
      else if exponent = 0 then .finite ⟨negative, fraction, -1074, false⟩
      else .finite
        ⟨negative, 2 ^ 52 + fraction, (exponent : Int) - 1075, fraction == 0 && exponent > 1⟩ := by
  simp [ofPattern, Nat.div_div_eq_div_mul]

theorem FloatValue.isDouble_of_ofPattern {pattern : Nat} {x : Binary}
    (h : ofPattern 11 52 pattern = .finite x) : x.IsDouble := by
  rw [ofPattern_double] at h
  dsimp only at h
  split at h
  · split at h
    all_goals cases h
  split at h
  case isTrue =>
    cases h
    constructor
    case narrow => exact ⟨nofun, fun h ↦ absurd rfl h.2⟩
    all_goals
      dsimp only
      omega
  case isFalse nonzero =>
    cases h
    constructor
    case narrow =>
      dsimp only
      rw [Bool.and_eq_true, beq_iff_eq, decide_eq_true_eq]
      omega
    all_goals
      dsimp only
      omega

/-! ## Gaps between magnitudes -/

namespace Binary

/-- The gap between a magnitude and the next larger one. -/
def gapAbove (x : Binary) : ℚ := 2 ^ x.exponent

/-- The gap between a magnitude and the next smaller one. -/
def gapBelow (x : Binary) : ℚ := if x.narrowBelow then x.gapAbove / 2 else x.gapAbove

theorem gapAbove_pos (x : Binary) : 0 < x.gapAbove := zpow_pos two_pos _

theorem gapBelow_le (x : Binary) : x.gapBelow ≤ x.gapAbove := by
  have positive := x.gapAbove_pos
  unfold gapBelow
  split
  · linarith
  · exact le_refl _

theorem gapBelow_pos (x : Binary) : 0 < x.gapBelow := by
  have positive := x.gapAbove_pos
  unfold gapBelow
  split
  · linarith
  · exact positive

theorem magnitude_eq (x : Binary) : x.magnitude = x.mantissa * x.gapAbove := rfl

variable {x y : Binary}

/-- Magnitudes of larger exponents are multiples of a gap. -/
theorem magnitude_eq_multiple (h : x.exponent ≤ y.exponent) :
    ∃ n : Nat, y.magnitude = n * x.gapAbove := by
  obtain ⟨shift, further⟩ := Int.le.dest h
  refine ⟨y.mantissa * 2 ^ shift, ?_⟩
  rw [magnitude, gapAbove, ← further, zpow_add₀ two_ne_zero, zpow_natCast]
  push_cast
  ring

/-- Magnitudes of smaller exponents stay below the least one with the leading bit. -/
theorem magnitude_le_of_exponent_lt (double : y.IsDouble) (h : y.exponent < x.exponent) :
    y.magnitude ≤ (2 ^ 53 - 1) * (x.gapAbove / 2) := by
  have mantissa : (y.mantissa : ℚ) ≤ 2 ^ 53 - 1 := by
    rw [le_sub_iff_add_le]
    exact_mod_cast double.mantissa
  have half : (2 : ℚ) ^ y.exponent ≤ x.gapAbove / 2 := by
    rw [gapAbove, div_eq_mul_inv, ← zpow_sub_one₀ two_ne_zero]
    exact zpow_le_zpow_right₀ one_le_two (Int.le_sub_one_of_lt h)
  rw [magnitude]
  exact mul_le_mul mantissa half (zpow_nonneg zero_le_two _) (by norm_num)

/-- A larger magnitude is larger by the gap above at least. -/
theorem gapAbove_le (double_x : x.IsDouble) (double_y : y.IsDouble)
    (h : x.magnitude < y.magnitude) : x.magnitude + x.gapAbove ≤ y.magnitude := by
  have positive := x.gapAbove_pos
  rcases Int.lt_or_le y.exponent x.exponent with smaller | larger
  · -- It cannot have a smaller exponent.
    have least := double_y.least
    have leading : (2 ^ 52 : ℚ) ≤ x.mantissa := by
      exact_mod_cast double_x.leading (by omega)
    have below := magnitude_le_of_exponent_lt double_y smaller
    rw [magnitude_eq x] at h
    nlinarith
  · obtain ⟨n, multiple⟩ := magnitude_eq_multiple larger
    rw [multiple, magnitude_eq, mul_lt_mul_iff_left₀ positive, Nat.cast_lt] at h
    rw [multiple, magnitude_eq, ← add_one_mul]
    refine mul_le_mul_of_nonneg_right ?_ (le_of_lt positive)
    exact_mod_cast h

/-- A smaller magnitude is smaller by the gap below at least. -/
theorem le_gapBelow (double_x : x.IsDouble) (double_y : y.IsDouble)
    (h : y.magnitude < x.magnitude) : y.magnitude ≤ x.magnitude - x.gapBelow := by
  have positive := x.gapAbove_pos
  rcases Int.lt_or_le y.exponent x.exponent with smaller | larger
  · have least := double_y.least
    have normal : x.exponent ≠ -1074 := by omega
    have leading := double_x.leading normal
    have below := magnitude_le_of_exponent_lt double_y smaller
    rw [magnitude_eq x, gapBelow]
    split
    case isTrue narrow =>
      rw [(double_x.narrow.1 narrow).1]
      push_cast
      linarith
    case isFalse wide =>
      have above : 2 ^ 52 + 1 ≤ x.mantissa := by
        have other : x.mantissa ≠ 2 ^ 52 := fun same ↦ wide (double_x.narrow.2 ⟨same, normal⟩)
        omega
      have above : (2 ^ 52 + 1 : ℚ) ≤ x.mantissa := by exact_mod_cast above
      nlinarith
  · obtain ⟨n, multiple⟩ := magnitude_eq_multiple larger
    rw [multiple, magnitude_eq, mul_lt_mul_iff_left₀ positive, Nat.cast_lt] at h
    have step : (n : ℚ) + 1 ≤ x.mantissa := by exact_mod_cast h
    have gap := x.gapBelow_le
    rw [multiple, magnitude_eq]
    nlinarith

/-- Zeros behind the digits of a natural number bring its leading bit to the place of a double's. -/
theorem leading_shifted {n : Nat} (nonzero : n ≠ 0) (h : n < 2 ^ 53) :
    Nat.log2 n ≤ 52 ∧ 2 ^ 52 ≤ n * 2 ^ (52 - Nat.log2 n) ∧ n * 2 ^ (52 - Nat.log2 n) < 2 ^ 53 := by
  have log : Nat.log2 n ≤ 52 := Nat.lt_succ_iff.1 ((Nat.log2_lt nonzero).2 h)
  have shift : 2 ^ 52 = 2 ^ Nat.log2 n * 2 ^ (52 - Nat.log2 n) := by
    rw [← Nat.pow_add, Nat.add_sub_cancel' log]
  have next : 2 ^ 53 = 2 ^ (Nat.log2 n + 1) * 2 ^ (52 - Nat.log2 n) := by
    rw [← Nat.pow_add]
    congr 1
    omega
  refine ⟨log, ?_, ?_⟩
  · rw [shift]
    exact Nat.mul_le_mul_right _ (Nat.log2_self_le nonzero)
  · rw [next]
    exact Nat.mul_lt_mul_of_pos_right Nat.lt_log2_self (Nat.two_pow_pos _)

/-- Natural numbers of at most 53 bits are doubles. -/
theorem exists_double_of_lt {n : Nat} (h : n < 2 ^ 53) :
    ∃ y : Binary, y.IsDouble ∧ y.magnitude = n := by
  rcases Nat.eq_zero_or_pos n with rfl | positive
  · refine ⟨⟨false, 0, -1074, false⟩, ⟨by decide, le_refl _, fun other ↦ absurd rfl other, by decide⟩, ?_⟩
    rw [magnitude, Nat.cast_zero, zero_mul]
  · obtain ⟨log, leading, mantissa⟩ := leading_shifted (Nat.ne_of_gt positive) h
    let y : Binary := ⟨false, n * 2 ^ (52 - Nat.log2 n), -(52 - Nat.log2 n : Nat),
      decide (n * 2 ^ (52 - Nat.log2 n) = 2 ^ 52)⟩
    have exponent : y.exponent ≠ -1074 := by
      change (-(52 - Nat.log2 n : Nat) : Int) ≠ -1074
      omega
    refine ⟨y, ⟨mantissa, ?_, fun _ ↦ leading, ?_⟩, ?_⟩
    · change -1074 ≤ (-(52 - Nat.log2 n : Nat) : Int)
      omega
    · exact ⟨fun narrow ↦ ⟨of_decide_eq_true narrow, exponent⟩, fun least ↦ decide_eq_true least.1⟩
    · let x : Binary := ⟨false, n, 0, false⟩
      have whole : x.magnitude = n := (congrArg ((n : ℚ) * ·) (zpow_zero 2)).trans (mul_one _)
      rw [← whole]
      exact magnitude_of_shift (52 - Nat.log2 n) rfl (Int.zero_sub _).symm

/-! ## Rounding intervals -/

/-- A number lies in the rounding interval of a magnitude. -/
structure Rounds (x : Binary) (q : ℚ) : Prop where
  above : x.magnitude - x.gapBelow / 2 ≤ q
  below : q ≤ x.magnitude + x.gapAbove / 2
  /-- The ends of the interval round to the magnitude with the even mantissa. -/
  even : q = x.magnitude - x.gapBelow / 2 ∨ q = x.magnitude + x.gapAbove / 2 → x.mantissa % 2 = 0

theorem Rounds.self (x : Binary) : x.Rounds x.magnitude := by
  have below := x.gapBelow_pos
  have above := x.gapAbove_pos
  refine ⟨by linarith, by linarith, ?_⟩
  rintro (low | high)
  · linarith
  · linarith

/-- Of all magnitudes, none is nearer to a number than the one whose interval it lies in. -/
theorem Rounds.nearest {q : ℚ} (rounds : x.Rounds q) (double_x : x.IsDouble)
    (double_y : y.IsDouble) : |q - x.magnitude| ≤ |q - y.magnitude| := by
  obtain ⟨above, below, -⟩ := rounds
  have gaps := x.gapBelow_le
  have positive := x.gapBelow_pos
  rcases lt_trichotomy x.magnitude y.magnitude with less | same | greater
  · have gap := gapAbove_le double_x double_y less
    rw [abs_sub_comm q y.magnitude, abs_of_nonneg (by linarith : 0 ≤ y.magnitude - q), abs_le]
    constructor <;> linarith
  · rw [same]
  · have gap := le_gapBelow double_x double_y greater
    rw [abs_of_nonneg (by linarith : 0 ≤ q - y.magnitude), abs_le]
    constructor <;> linarith

end Binary

end Phrasebook.Numeral
