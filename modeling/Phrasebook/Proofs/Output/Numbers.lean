import Phrasebook.Proofs.Numeral.Decimals
import Phrasebook.Proofs.Numeral.Widening
import Phrasebook.Proofs.Output.Passages
import Std.Data.String.ToInt

/-!
# Numbers in outputs

An integer is appended as its canonical decimal, whatever the field that its digits are written in held
before. So is a floating-point value that is an integer and fits a signed word, in either precision: the
path of the integers is taken for the number that the pattern denotes and not for its format.
-/

namespace Phrasebook

open Numeral

namespace Numeral.DigitField

theorem toNat?_formatUnsigned (field : DigitField) (value : UInt64) :
    (field.formatUnsigned value).toNat? = some value.toNat := by
  rw [formatUnsigned_eq]
  exact Nat.toNat?_repr value.toNat

theorem toInt?_formatSigned (field : DigitField) (value : Int64) :
    (field.formatSigned value).toInt? = some value.toInt := by
  rw [formatSigned_eq, Int.toString_eq_repr, Int.toInt?_repr]

theorem formatUnsigned_inj (field other : DigitField) (value value' : UInt64) :
    other.formatUnsigned value' = field.formatUnsigned value ↔ value' = value := by
  constructor
  · intro same
    have read := congrArg String.toNat? same
    rw [toNat?_formatUnsigned, toNat?_formatUnsigned, Option.some_inj] at read
    exact UInt64.toNat_inj.1 read
  · rintro rfl
    rw [formatUnsigned_eq, formatUnsigned_eq]

theorem formatSigned_inj (field other : DigitField) (value value' : Int64) :
    other.formatSigned value' = field.formatSigned value ↔ value' = value := by
  constructor
  · intro same
    have read := congrArg String.toInt? same
    rw [toInt?_formatSigned, toInt?_formatSigned, Option.some_inj] at read
    exact Int64.toInt_inj.1 read
  · rintro rfl
    rw [formatSigned_eq, formatSigned_eq]

end Numeral.DigitField

namespace Output

/-- Integers are written as their canonical decimals into any field, where every digit has a cell and
the sign one before all of them. The decimals tell the integers apart, and they are what an output is
given, for words of 32 bits too. -/
theorem integers_in_canonical_decimals (field other : DigitField) :
    (∀ value : UInt64,
      (∃ written start, field.Fills DigitField.width value.toNat written start ∧
        field.formatUnsigned value = written.tail start) ∧
      IsCanonicalDecimal value.toNat (field.formatUnsigned value) ∧
      (field.formatUnsigned value).utf8ByteSize = decimalLength value.toNat ∧
      (field.formatUnsigned value).toNat? = some value.toNat ∧
      (∀ value', other.formatUnsigned value' = field.formatUnsigned value ↔ value' = value) ∧
      appendUnsigned value = appendCopied (field.formatUnsigned value)) ∧
    (∀ value : Int64,
      (∃ written before, field.Fills DigitField.width value.toInt.natAbs written (before + 1) ∧
        (written.write before '-').tail before = "-" ++ written.tail (before + 1) ∧
        field.formatSigned value =
          if value.toInt < 0 then (written.write before '-').tail before
          else written.tail (before + 1)) ∧
      IsCanonicalDecimal value.toInt (field.formatSigned value) ∧
      (field.formatSigned value).toInt? = some value.toInt ∧
      (∀ value', other.formatSigned value' = field.formatSigned value ↔ value' = value) ∧
      appendSigned value = appendCopied (field.formatSigned value)) ∧
    (∀ value : UInt32, IsCanonicalDecimal value.toNat (field.formatUnsigned value.toUInt64)) ∧
    ∀ value : Int32, IsCanonicalDecimal value.toInt (field.formatSigned value.toInt64) := by
  have unsigned (value : UInt64) : IsCanonicalDecimal value.toNat (field.formatUnsigned value) :=
    (isCanonicalDecimal_iff _ _).2 (field.formatUnsigned_eq value)
  have signed (value : Int64) : IsCanonicalDecimal value.toInt (field.formatSigned value) :=
    (isCanonicalDecimal_iff _ _).2 (field.formatSigned_eq value)
  refine ⟨fun value ↦ ?_, fun value ↦ ?_, fun value ↦ ?_, fun value ↦ ?_⟩
  · have length : (field.formatUnsigned value).utf8ByteSize = decimalLength value.toNat := by
      rw [field.formatUnsigned_eq, utf8ByteSize_toString]
    have appended : appendUnsigned value = appendCopied (field.formatUnsigned value) := by
      rw [appendUnsigned_eq, field.formatUnsigned_eq]
    exact ⟨field.exists_fills_unsigned value, unsigned value, length,
      field.toNat?_formatUnsigned value, field.formatUnsigned_inj other value, appended⟩
  · have appended : appendSigned value = appendCopied (field.formatSigned value) := by
      rw [appendSigned_eq, field.formatSigned_eq]
    exact ⟨field.exists_fills_signed value, signed value, field.toInt?_formatSigned value,
      field.formatSigned_inj other value, appended⟩
  · rw [← UInt32.toNat_toUInt64]
    exact unsigned value.toUInt64
  · rw [← Int32.toInt_toInt64]
    exact signed value.toInt64

example : DigitField.blank.formatSigned Int64.minValue = "-9223372036854775808" := by decide +kernel

/-! ## Floating-point values that are integers -/

/-- The integral reading of a pattern is the number that it denotes. -/
theorem integral?_ofBits64_eq_some_iff (bits : UInt64) (n : Int) :
    (FloatValue.ofBits64 bits).integral? = some n ↔
      patternNumber 11 52 bits.toNat = some (n : ℚ) ∧ FitsSigned n := by
  rw [FloatValue.integral?_eq_some_iff, FloatValue.ofBits64,
    FloatValue.toRat?_ofPattern (by decide)]

theorem patternNumber_widen (bits : UInt32) :
    patternNumber 11 52 (widen bits).toNat = patternNumber 8 23 bits.toNat := by
  have same := (sameNumber_widen bits).toRat?_eq
  rwa [FloatValue.ofBits64, FloatValue.ofBits32, FloatValue.toRat?_ofPattern (by decide),
    FloatValue.toRat?_ofPattern (by decide)] at same

/-- Where one of two values that denote the same number is appended as an integer, so is the other. -/
theorem appendFloat_congr {value other : FloatValue} (same : other.toRat? = value.toRat?)
    (integral : value.integral?.isSome ∨ other.integral?.isSome) :
    appendFloat value = appendFloat other := by
  have reading := FloatValue.integral?_congr same
  rw [reading, or_self] at integral
  obtain ⟨n, number⟩ := Option.isSome_iff_exists.1 integral
  rw [appendFloat_of_integral number, appendFloat_of_integral (reading.trans number)]

/-- A pattern has an integral reading exactly if it denotes an integer that a signed word holds, and
then it is appended as the decimal of this integer. A pattern of single precision is appended like the
one of double precision for the same number, where either is an integer. -/
theorem integral_floats_in_exact_decimals :
    (∀ bits : UInt64,
      (∀ n, (FloatValue.ofBits64 bits).integral? = some n ↔
        patternNumber 11 52 bits.toNat = some (n : ℚ) ∧ -2 ^ 63 ≤ n ∧ n < 2 ^ 63) ∧
      ((FloatValue.ofBits64 bits).integral? = none ↔
        ∀ n : Int, patternNumber 11 52 bits.toNat = some (n : ℚ) → n < -2 ^ 63 ∨ 2 ^ 63 ≤ n) ∧
      ∀ n, (FloatValue.ofBits64 bits).integral? = some n →
        ∃ text, IsCanonicalDecimal n text ∧ appendDouble bits = appendCopied text) ∧
    (FloatValue.ofBits64 0).integral? = some 0 ∧
    (FloatValue.ofBits64 0x8000000000000000).integral? = some 0 ∧
    ∀ bits : UInt32,
      patternNumber 11 52 (widen bits).toNat = patternNumber 8 23 bits.toNat ∧
      SameNumber (.ofBits32 bits) (.ofBits64 (widen bits)) ∧
      (FloatValue.ofBits64 (widen bits)).integral? = (FloatValue.ofBits32 bits).integral? ∧
      ((FloatValue.ofBits32 bits).integral?.isSome ∨
          (FloatValue.ofBits64 (widen bits)).integral?.isSome →
        appendSingle bits = appendDouble (widen bits)) := by
  refine ⟨fun bits ↦ ⟨integral?_ofBits64_eq_some_iff bits, ?_, fun n number ↦ ?_⟩, by decide +kernel,
    by decide +kernel, fun bits ↦ ?_⟩
  · rw [Option.eq_none_iff_forall_ne_some]
    refine forall_congr' fun n ↦ ?_
    rw [ne_eq, integral?_ofBits64_eq_some_iff, FitsSigned, not_and]
    exact imp_congr_right fun _ ↦ by omega
  · exact ⟨toString n, (isCanonicalDecimal_iff n _).2 rfl, appendFloat_of_integral number⟩
  · have same := (sameNumber_widen bits).toRat?_eq
    exact ⟨patternNumber_widen bits, sameNumber_widen bits, FloatValue.integral?_congr same,
      appendFloat_congr same⟩

/-- The least signed word is the number of a pattern, the next number after the largest is none. -/
example : (FloatValue.ofBits64 0xC3E0000000000000).integral? = some (-2 ^ 63) ∧
    (FloatValue.ofBits64 0x43E0000000000000).integral? = none := by decide +kernel

end Output

end Phrasebook
