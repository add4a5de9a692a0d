import Mathlib.Algebra.Order.Field.Rat
import Mathlib.Algebra.Order.Ring.Cast
import Mathlib.Data.Rat.Lemmas
import Phrasebook.Numeral.Binary

/-!
# Integral values

A finite bit pattern denotes a rational number. Its integral reading is that number exactly when it
is an integer that a signed word of 64 bits holds.
-/

namespace Phrasebook.Numeral

/-- The number without its sign. -/
def Binary.magnitude (value : Binary) : ℚ := value.mantissa * 2 ^ value.exponent

def Binary.toRat (value : Binary) : ℚ :=
  if value.negative then -value.magnitude else value.magnitude

def FloatValue.toRat? : FloatValue → Option ℚ
  | .finite value => some value.toRat
  | .infinite _ => none
  | .notANumber => none

def FitsSigned (n : Int) : Prop := -2 ^ 63 ≤ n ∧ n < 2 ^ 63

instance (n : Int) : Decidable (FitsSigned n) := inferInstanceAs (Decidable (_ ∧ _))

theorem FitsSigned.toInt_ofInt {n : Int} (h : FitsSigned n) : (Int64.ofInt n).toInt = n :=
  Int64.toInt_ofInt_of_le h.1 h.2

theorem Binary.magnitude_negSucc {value : Binary} {shift : Nat}
    (h : value.exponent = .negSucc shift) :
    value.magnitude = value.mantissa / 2 ^ (shift + 1) := by
  rw [magnitude, h, zpow_negSucc, div_eq_mul_inv]

/-- Binary places that move from the exponent to the mantissa leave the magnitude as it is. -/
theorem Binary.magnitude_of_shift {x y : Binary} (shift : Nat)
    (mantissa : y.mantissa = x.mantissa * 2 ^ shift) (exponent : y.exponent = x.exponent - shift) :
    y.magnitude = x.magnitude := by
  have power : (2 : ℚ) ^ shift ≠ 0 := pow_ne_zero _ two_ne_zero
  calc
    y.magnitude = (x.mantissa * 2 ^ shift : Nat) * 2 ^ (x.exponent - shift) := by
      rw [magnitude, mantissa, exponent]
    _ = x.mantissa * (2 ^ shift * (2 ^ x.exponent / 2 ^ shift)) := by
      rw [zpow_sub₀ two_ne_zero, zpow_natCast, Nat.cast_mul, Nat.cast_pow, Nat.cast_two, mul_assoc]
    _ = x.magnitude := by rw [mul_div_cancel₀ _ power, magnitude]

/-- A magnitude is found to be natural exactly if it is. -/
theorem Binary.naturalMagnitude?_eq_some_iff (value : Binary) (n : Nat) :
    value.naturalMagnitude? = some n ↔ value.magnitude = n := by
  rw [naturalMagnitude?]
  split
  next shift exponent =>
    have magnitude : value.magnitude = (value.mantissa * 2 ^ shift : Nat) := by
      rw [magnitude, exponent, Int.ofNat_eq_natCast, zpow_natCast]
      push_cast
      rfl
    rw [magnitude, Option.some_inj, Nat.cast_inj]
    rfl
  next shift exponent =>
    have nonzero : (2 ^ (shift + 1) : ℚ) ≠ 0 := pow_ne_zero _ two_ne_zero
    have whole : value.magnitude = n ↔ value.mantissa = n * 2 ^ (shift + 1) := by
      rw [magnitude_negSucc exponent, div_eq_iff nonzero]
      exact_mod_cast Iff.rfl
    rw [whole, Option.ite_none_right_eq_some, beq_iff_eq, Option.some_inj]
    constructor
    · rintro ⟨divisible, quotient⟩
      exact (Nat.div_eq_iff_eq_mul_left (Nat.two_pow_pos _)
        (Nat.dvd_of_mod_eq_zero divisible)).1 quotient
    · intro product
      rw [product]
      exact ⟨Nat.mul_mod_left _ _, Nat.mul_div_cancel _ (Nat.two_pow_pos _)⟩

theorem Binary.magnitude_nonneg (value : Binary) : 0 ≤ value.magnitude :=
  mul_nonneg value.mantissa.cast_nonneg (zpow_nonneg zero_le_two _)

/-- A finite value is an integer exactly when its magnitude is a natural number. -/
theorem Binary.toRat_eq_intCast_iff (value : Binary) (n : Int) :
    value.toRat = n ↔
      ∃ m : Nat, value.magnitude = m ∧ (if value.negative then -(m : Int) else m) = n := by
  rw [toRat]
  constructor
  · intro number
    have magnitude : value.magnitude = (|n| : Int) := by
      rw [← abs_of_nonneg value.magnitude_nonneg, Int.cast_abs, ← number]
      split
      · rw [abs_neg]
      · rfl
    refine ⟨n.natAbs, by rw [magnitude, Nat.cast_natAbs], ?_⟩
    rw [magnitude] at number
    rw [Int.natCast_natAbs]
    split at number
    next negative =>
      rw [if_pos negative]
      exact_mod_cast number
    next positive =>
      rw [if_neg positive]
      exact_mod_cast number
  · rintro ⟨m, magnitude, rfl⟩
    rw [magnitude]
    split <;> push_cast <;> rfl

/-- The integral reading of a value is the number that it denotes, for the integers that fit. -/
theorem FloatValue.integral?_eq_some_iff (value : FloatValue) (n : Int) :
    value.integral? = some n ↔ value.toRat? = some (n : ℚ) ∧ FitsSigned n := by
  cases value with
  | infinite _ => exact ⟨nofun, nofun⟩
  | notANumber => exact ⟨nofun, nofun⟩
  | finite value =>
    rw [toRat?, Option.some_inj, value.toRat_eq_intCast_iff, ← exists_and_right, integral?,
      Option.bind_eq_bind, Option.bind_eq_some_iff]
    refine exists_congr fun m ↦ ?_
    rw [value.naturalMagnitude?_eq_some_iff, and_assoc]
    refine and_congr_right fun _ ↦ ?_
    dsimp only
    rw [Option.ite_none_right_eq_some, Option.some_inj, Bool.and_eq_true, decide_eq_true_iff,
      decide_eq_true_iff, and_comm]
    exact and_congr_right fun same ↦ by rw [same]; rfl

end Phrasebook.Numeral
