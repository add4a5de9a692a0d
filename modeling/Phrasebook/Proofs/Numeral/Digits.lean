import Mathlib.Data.Nat.Digits.Defs
import Phrasebook.Numeral.Digits

/-!
# Decimal texts

Digits are written from the last to the first into a field of twenty cells. For a word of 64 bits
they fit, with room for a minus sign before them, so the used end of the field is the decimal text
of the number whatever the field held before: the same text as is said directly, by recursion on the
quotient by ten, and the one that the number is shown as.
-/

namespace Phrasebook.Numeral

theorem digitChar_eq (n : Nat) : digitChar n = (n % 10).digitChar := by
  have digits : ∀ d < 10, Char.ofNat ('0'.toNat + d) = d.digitChar := by decide
  exact digits (n % 10) (Nat.mod_lt n (by decide))

theorem toDigits_of_lt {n : Nat} (h : n < 10) : Nat.toDigits 10 n = [digitChar n] := by
  rw [Nat.toDigits_of_lt_base h, digitChar_eq, Nat.mod_eq_of_lt h]

theorem toDigits_of_le {n : Nat} (h : 10 ≤ n) :
    Nat.toDigits 10 n = Nat.toDigits 10 (n / 10) ++ [digitChar n] := by
  rw [Nat.toDigits_of_base_le (by decide) h, digitChar_eq]

/-- A number below a power of ten has no more digits than that. -/
theorem length_toDigits_le {width n : Nat} (h : n < 10 ^ (width + 1)) :
    (Nat.toDigits 10 n).length ≤ width + 1 := by
  induction width generalizing n with
  | zero =>
    rw [toDigits_of_lt (by omega)]
    exact Nat.le_refl 1
  | succ width ih =>
    by_cases small : n < 10
    · rw [toDigits_of_lt small, List.length_singleton]
      omega
    · have below : n / 10 < 10 ^ (width + 1) := by omega
      rw [toDigits_of_le (Nat.le_of_not_lt small), List.length_append, List.length_singleton]
      exact Nat.succ_le_succ (ih below)

/-! ## Texts said directly -/

theorem decimalOnto_eq (n : Nat) (rest : List Char) :
    decimalOnto n rest = Nat.toDigits 10 n ++ rest := by
  induction n, rest using decimalOnto.induct with
  | case1 n rest small => rw [decimalOnto, if_pos small, toDigits_of_lt small, List.singleton_append]
  | case2 n rest large ih =>
    rw [decimalOnto, if_neg large, ih, toDigits_of_le (Nat.le_of_not_lt large), List.append_assoc,
      List.singleton_append]

theorem decimal_eq_ofList (n : Nat) : decimal n = String.ofList (Nat.toDigits 10 n) := by
  rw [decimal, decimalOnto_eq, List.append_nil]

theorem decimal_eq (n : Nat) : decimal n = toString n := by
  rw [decimal_eq_ofList, Nat.toString_eq_ofList_toDigits]

theorem signedDecimal_negSucc (n : Nat) :
    signedDecimal (.negSucc n) = String.singleton '-' ++ decimal (n + 1) := by
  rw [signedDecimal, String.ofList_cons, decimal]

theorem signedDecimal_eq (n : Int) : signedDecimal n = toString n := by
  cases n with
  | ofNat n => exact decimal_eq n
  | negSucc n =>
    rw [signedDecimal_negSucc, decimal_eq]
    rfl

/-! ## The number of digits -/

theorem decimalLength_of_lt {n : Nat} (h : n < 10) : decimalLength n = 1 := by
  rw [decimalLength, if_pos h]

theorem decimalLength_of_le {n : Nat} (h : 10 ≤ n) : decimalLength n = decimalLength (n / 10) + 1 := by
  rw [decimalLength, if_neg (Nat.not_lt.2 h)]

/-- A number is below the power of ten with as many zeros as it has digits. -/
theorem lt_pow_decimalLength (n : Nat) : n < 10 ^ decimalLength n := by
  induction n using Nat.strong_induction_on with
  | h n ih =>
    rcases Nat.lt_or_ge n 10 with small | large
    · rw [decimalLength_of_lt small]
      exact small
    · have shorter := ih (n / 10) (Nat.div_lt_self (by omega) (by decide))
      rw [decimalLength_of_le large, Nat.pow_succ]
      omega

/-- A number that is not zero is no less than the power of ten with one zero less. -/
theorem pow_decimalLength_le {n : Nat} (positive : 0 < n) : 10 ^ decimalLength n ≤ 10 * n := by
  induction n using Nat.strong_induction_on with
  | h n ih =>
    rcases Nat.lt_or_ge n 10 with small | large
    · rw [decimalLength_of_lt small]
      omega
    · have shorter := ih (n / 10) (Nat.div_lt_self positive (by decide)) (by omega)
      rw [decimalLength_of_le large, Nat.pow_succ]
      omega

/-! ## Fields -/

namespace DigitField

theorem toList_write (field : DigitField) {position : Nat} (h : position < width) (c : Char) :
    (field.write position c).cells.toList =
      field.cells.toList.take position ++ c :: field.cells.toList.drop (position + 1) := by
  have length : position < field.cells.toList.length := by
    rw [Array.length_toList, field.size_eq]
    exact h
  rw [write, Array.toList_setIfInBounds, List.set_eq_take_append_cons_drop, if_pos length]

/-- The digits stand before `stop`, and the rest of the field is what it was. -/
theorem writeDigits_spec (field : DigitField) {stop n : Nat} (h : stop ≤ width)
    (fits : (Nat.toDigits 10 n).length ≤ stop) :
    (field.writeDigits stop n).2 + (Nat.toDigits 10 n).length = stop ∧
      (field.writeDigits stop n).1.cells.toList =
        field.cells.toList.take (field.writeDigits stop n).2 ++ Nat.toDigits 10 n ++
          field.cells.toList.drop stop := by
  induction stop generalizing field n with
  | zero => exact absurd fits (Nat.not_le.2 Nat.length_toDigits_pos)
  | succ position ih =>
    have here := field.toList_write h (digitChar n)
    rw [writeDigits]
    split
    next small =>
      rw [toDigits_of_lt small]
      refine ⟨rfl, ?_⟩
      rw [here, List.append_assoc, List.singleton_append]
    next large =>
      have split := toDigits_of_le (Nat.le_of_not_lt large)
      rw [split, List.length_append, List.length_singleton] at fits ⊢
      obtain ⟨stops, cells⟩ := ih (field.write position (digitChar n)) (Nat.le_of_succ_le h)
        (Nat.le_of_succ_le_succ fits)
      refine ⟨by omega, ?_⟩
      have length : (field.cells.toList.take position).length = position := by
        rw [List.length_take, Array.length_toList, field.size_eq]
        exact Nat.min_eq_left (Nat.le_of_succ_le h)
      rw [cells, here, List.drop_left' length, List.take_append_of_le_length (by omega),
        List.take_take, Nat.min_eq_left (by omega)]
      simp

theorem tail_eq (field : DigitField) {position : Nat} {front back : List Char}
    (cells : field.cells.toList = front ++ back) (length : front.length = position) :
    field.tail position = String.ofList back := by
  rw [tail, cells, List.drop_left' length]

theorem drop_width (field : DigitField) : field.cells.toList.drop width = [] :=
  List.drop_eq_nil_of_le (by rw [Array.length_toList, field.size_eq, width])

theorem length_take (field : DigitField) {position : Nat} (h : position ≤ width) :
    (field.cells.toList.take position).length = position := by
  rw [List.length_take, Array.length_toList, field.size_eq]
  exact Nat.min_eq_left h

/-- A character written before the tail of a field leaves the tail as it is. -/
theorem tail_write (field : DigitField) {position : Nat} (h : position < width) (c : Char) :
    (field.write position c).tail position = String.singleton c ++ field.tail (position + 1) := by
  rw [tail_eq _ (field.toList_write h c) (field.length_take (Nat.le_of_lt h)), String.ofList_cons]
  rfl

/-- The digits of an unsigned word fit a field. -/
theorem length_digits_unsigned (value : UInt64) : (Nat.toDigits 10 value.toNat).length ≤ width :=
  length_toDigits_le (Nat.lt_of_lt_of_le value.toNat_lt (by decide))

/-- The digits of a signed word leave a cell for the sign. -/
theorem length_digits_signed (value : Int64) :
    (Nat.toDigits 10 value.toInt.natAbs).length < width := by
  have low := value.le_toInt
  have high := value.toInt_lt
  have short : (Nat.toDigits 10 value.toInt.natAbs).length ≤ 18 + 1 := length_toDigits_le (by omega)
  exact Nat.lt_succ_of_le short

/-- The tail that digits are written to is their text. -/
theorem tail_writeDigits (field : DigitField) {n : Nat}
    (fits : (Nat.toDigits 10 n).length ≤ width) :
    (field.writeDigits width n).1.tail (field.writeDigits width n).2 = decimal n := by
  obtain ⟨stops, cells⟩ := field.writeDigits_spec (Nat.le_refl width) fits
  rw [drop_width, List.append_nil] at cells
  rw [decimal_eq_ofList]
  exact tail_eq _ cells (field.length_take (Nat.le.intro stops))

/-- An unsigned word is written as its decimal text. -/
theorem formatUnsigned_eq (field : DigitField) (value : UInt64) :
    field.formatUnsigned value = toString value.toNat :=
  (field.tail_writeDigits (length_digits_unsigned value)).trans (decimal_eq value.toNat)

theorem formatSigned_eq_signedDecimal (field : DigitField) (value : Int64) :
    field.formatSigned value = signedDecimal value.toInt := by
  have short := length_digits_signed value
  have text := field.tail_writeDigits (Nat.le_of_lt short)
  obtain ⟨stops, -⟩ := field.writeDigits_spec (Nat.le_refl width) (Nat.le_of_lt short)
  rw [formatSigned]
  cases number : value.toInt with
  | ofNat n =>
    rw [number] at text
    exact text
  | negSucc n =>
    have magnitude : (Int.negSucc n).natAbs = n + 1 := rfl
    rw [number, magnitude] at text short stops
    obtain ⟨before, start⟩ : ∃ before, (field.writeDigits width (n + 1)).2 = before + 1 :=
      Nat.exists_eq_add_one.2 (by omega)
    rw [start] at text stops
    rw [magnitude]
    dsimp only
    rw [start, if_pos (Int.negSucc_lt_zero n), Nat.add_sub_cancel, tail_write _ (by omega), text,
      signedDecimal_negSucc]

/-- A signed word is written as its decimal text. -/
theorem formatSigned_eq (field : DigitField) (value : Int64) :
    field.formatSigned value = toString value.toInt :=
  (field.formatSigned_eq_signedDecimal value).trans (signedDecimal_eq value.toInt)

end DigitField

end Phrasebook.Numeral
