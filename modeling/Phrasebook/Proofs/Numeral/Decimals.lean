import Phrasebook.Proofs.Numeral.ShortDecimals

/-!
# Canonical decimals

The decimal of an integer has no needless zero in front and a minus sign before negatives only, and
there is just one such text for each integer. It is written from its last digit to its first: every
step fills the cell before those that are filled already, and there always is one.
-/

namespace Phrasebook.Numeral

/-! ## One text for each integer -/

/-- Digits without a zero in front, save for the zero that stands alone. -/
structure PlainDigits (digits : List Char) : Prop where
  nonempty : digits ≠ []
  digit : ∀ c ∈ digits, c.isDigit = true
  leading : digits.head? = some '0' → digits = ['0']

def IsCanonicalDecimal (n : Int) (text : String) : Prop :=
  ∃ digits, PlainDigits digits ∧ digitsValue digits = n.natAbs ∧
    text.toList = if n < 0 then '-' :: digits else digits

theorem digitsValue_toDigits (n : Nat) : digitsValue (Nat.toDigits 10 n) = n := by
  rw [digitsValue, ← Nat.ofDigitChars_eq_foldl, Nat.ofDigitChars_ten_toDigits]

theorem head_toDigits {n : Nat} (positive : 0 < n) : (Nat.toDigits 10 n).head? ≠ some '0' := by
  induction n using Nat.strong_induction_on with
  | h n ih =>
    rcases Nat.lt_or_ge n 10 with small | large
    · have digits : ∀ d < 10, 0 < d → d.digitChar ≠ '0' := by decide
      rw [Nat.toDigits_of_lt_base small, List.head?_singleton, ne_eq, Option.some_inj]
      exact digits n small positive
    · have shorter := ih (n / 10) (Nat.div_lt_self positive (by decide)) (by omega)
      obtain ⟨c, rest, cut⟩ : ∃ c rest, Nat.toDigits 10 (n / 10) = c :: rest :=
        List.exists_cons_of_ne_nil Nat.toDigits_ne_nil
      rw [cut] at shorter
      rw [toDigits_of_le large, cut]
      exact shorter

theorem plainDigits_toDigits (n : Nat) : PlainDigits (Nat.toDigits 10 n) where
  nonempty := Nat.toDigits_ne_nil
  digit _ member := Nat.isDigit_of_mem_toDigits (by decide) (Nat.le_refl 10) member
  leading zero := by
    rcases Nat.eq_zero_or_pos n with rfl | positive
    · rfl
    · exact absurd zero (head_toDigits positive)

/-- Plain digits are those of the number that they denote. -/
theorem PlainDigits.eq_toDigits {digits : List Char} (plain : PlainDigits digits) :
    digits = Nat.toDigits 10 (digitsValue digits) := by
  cases digits with
  | nil => exact absurd rfl plain.nonempty
  | cons c rest =>
    by_cases zero : c = '0'
    · rw [plain.leading (congrArg some zero)]
      rfl
    · have all : ∀ d ∈ rest, d.isDigit = true :=
        fun d member ↦ plain.digit d (List.mem_cons_of_mem _ member)
      exact (toDigits_digitsValue (plain.digit c List.mem_cons_self) zero all).symm

theorem toList_toString (n : Int) :
    (toString n).toList =
      if n < 0 then '-' :: Nat.toDigits 10 n.natAbs else Nat.toDigits 10 n.natAbs := by
  rw [Int.toString_eq_repr, Int.repr_eq_if]
  split_ifs with nonneg negative negative
  · omega
  · have magnitude : n.toNat = n.natAbs := by omega
    rw [magnitude, Nat.repr_eq_ofList_toDigits, String.toList_ofList]
  · have magnitude : (-n).toNat = n.natAbs := by omega
    rw [magnitude, Nat.repr_eq_ofList_toDigits, String.toList_append, String.toList_ofList,
      String.toList_ofList, List.singleton_append]
  · omega

/-- An integer has one canonical decimal. -/
theorem isCanonicalDecimal_iff (n : Int) (text : String) :
    IsCanonicalDecimal n text ↔ text = toString n := by
  constructor
  · rintro ⟨digits, plain, value, spelled⟩
    rw [plain.eq_toDigits, value, ← toList_toString] at spelled
    exact String.toList_inj.1 spelled
  · rintro rfl
    exact ⟨_, plainDigits_toDigits n.natAbs, digitsValue_toDigits n.natAbs, toList_toString n⟩

/-! ## The length of a decimal -/

theorem decimalLength_eq (n : Nat) : decimalLength n = (Nat.toDigits 10 n).length := by
  induction n using Nat.strong_induction_on with
  | h n ih =>
    rcases Nat.lt_or_ge n 10 with small | large
    · rw [decimalLength_of_lt small, toDigits_of_lt small, List.length_singleton]
    · rw [decimalLength_of_le large, toDigits_of_le large, List.length_append,
        List.length_singleton, ih (n / 10) (Nat.div_lt_self (by omega) (by decide))]

/-- Digits take a byte each. -/
theorem utf8ByteSize_digits {digits : List Char} (all : ∀ c ∈ digits, c.isDigit = true) :
    (String.ofList digits).utf8ByteSize = digits.length := by
  induction digits with
  | nil => rfl
  | cons c rest ih =>
    have digit := all c List.mem_cons_self
    rw [Char.isDigit, Bool.and_eq_true, decide_eq_true_eq, decide_eq_true_eq] at digit
    have below : c.val ≤ 127 := UInt32.le_trans digit.2 (by decide)
    rw [String.ofList_cons, String.utf8ByteSize_append, String.utf8ByteSize_singleton,
      Char.utf8Size_eq_one_iff.2 below, ih fun d member ↦ all d (List.mem_cons_of_mem _ member),
      List.length_cons, Nat.add_comm]

theorem utf8ByteSize_toString (n : Nat) : (toString n).utf8ByteSize = decimalLength n := by
  rw [Nat.toString_eq_ofList_toDigits, utf8ByteSize_digits (plainDigits_toDigits n).digit,
    decimalLength_eq]

/-! ## The writing of the digits -/

namespace DigitField

/-- The digits of a number are written into a field, cell by cell, from the one before a position to
the cell where they start. -/
inductive Fills : DigitField → Nat → Nat → DigitField → Nat → Prop where
  | last {field : DigitField} {position n : Nat} (inside : position < width) (small : n < 10) :
      Fills field (position + 1) n (field.write position (digitChar n)) position
  | more {field written : DigitField} {position n start : Nat} (inside : position < width)
      (large : 10 ≤ n)
      (rest : Fills (field.write position (digitChar n)) position (n / 10) written start) :
      Fills field (position + 1) n written start

/-- Where there are as many cells as digits, no digit goes without a cell. -/
theorem fills_writeDigits (field : DigitField) {stop n : Nat} (h : stop ≤ width)
    (fits : (Nat.toDigits 10 n).length ≤ stop) :
    field.Fills stop n (field.writeDigits stop n).1 (field.writeDigits stop n).2 := by
  induction stop generalizing field n with
  | zero => exact absurd fits (Nat.not_le.2 Nat.length_toDigits_pos)
  | succ position ih =>
    rw [writeDigits]
    split
    next small => exact .last h small
    next large =>
      -- One digit is written, and one cell less is left for those of the quotient.
      have large := Nat.le_of_not_lt large
      rw [toDigits_of_le large, List.length_append, List.length_singleton] at fits
      exact .more h large (ih _ (Nat.le_of_succ_le h) (Nat.le_of_succ_le_succ fits))

/-- The digits of an unsigned word are written into a field. -/
theorem exists_fills_unsigned (field : DigitField) (value : UInt64) :
    ∃ written start, field.Fills width value.toNat written start ∧
      field.formatUnsigned value = written.tail start :=
  ⟨_, _, field.fills_writeDigits (Nat.le_refl width) (length_digits_unsigned value), rfl⟩

/-- The digits of a signed word are written into a field, and its sign into a cell before them. -/
theorem exists_fills_signed (field : DigitField) (value : Int64) :
    ∃ written before, field.Fills width value.toInt.natAbs written (before + 1) ∧
      (written.write before '-').tail before = "-" ++ written.tail (before + 1) ∧
      field.formatSigned value =
        if value.toInt < 0 then (written.write before '-').tail before
        else written.tail (before + 1) := by
  have short := length_digits_signed value
  obtain ⟨stops, -⟩ := field.writeDigits_spec (Nat.le_refl width) (Nat.le_of_lt short)
  have fills := field.fills_writeDigits (Nat.le_refl width) (Nat.le_of_lt short)
  obtain ⟨before, start⟩ : ∃ before, (field.writeDigits width value.toInt.natAbs).2 = before + 1 :=
    Nat.exists_eq_add_one.2 (by omega)
  rw [start] at stops fills
  refine ⟨_, before, fills, tail_write _ (by omega) '-', ?_⟩
  rw [formatSigned]
  dsimp only
  rw [start]
  rfl

end DigitField

end Phrasebook.Numeral
