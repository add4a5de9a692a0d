import Mathlib.Data.List.Induction
import Phrasebook.Proofs.Numeral.Reading
import Phrasebook.Proofs.Numeral.Shortest

/-!
# Short decimals

A decimal of fifteen digits or less, without needless zeros, is the text of the double that it is read
as. Its digits are those of the number that they denote, and the search for the shortest decimal finds
that number again.
-/

namespace Phrasebook.Numeral

/-! ## Digits and the number that they denote -/

theorem digitsValue_concat (digits : List Char) (c : Char) :
    digitsValue (digits ++ [c]) = 10 * digitsValue digits + (c.toNat - '0'.toNat) := by
  rw [digitsValue, List.foldl_append]
  rfl

theorem toNat_sub_lt {c : Char} (digit : c.isDigit = true) : c.toNat - '0'.toNat < 10 := by
  have zero : '0'.toNat = 48 := rfl
  rw [Char.isDigit, Bool.and_eq_true, decide_eq_true_eq, decide_eq_true_eq] at digit
  have last : c.toNat ≤ 57 := digit.2
  omega

theorem digitChar_of_digit {c : Char} (digit : c.isDigit = true) (n : Nat) :
    digitChar (10 * n + (c.toNat - '0'.toNat)) = c := by
  have small := toNat_sub_lt digit
  have zero : '0'.toNat = 48 := rfl
  rw [Char.isDigit, Bool.and_eq_true, decide_eq_true_eq, decide_eq_true_eq] at digit
  have first : 48 ≤ c.toNat := digit.1
  have same : '0'.toNat + (10 * n + (c.toNat - '0'.toNat)) % 10 = c.toNat := by omega
  rw [digitChar, same, Char.ofNat_toNat]

theorem digitsValue_zeros (zeros : Nat) (digits : List Char) :
    digitsValue (List.replicate zeros '0' ++ digits) = digitsValue digits := by
  induction zeros with
  | zero => rfl
  | succ zeros ih => exact ih

/-- Digits with none but a zero in front of them denote a number that is not zero. -/
theorem digitsValue_pos {digits : List Char} {c : Char} (digit : c.isDigit = true) (other : c ≠ '0') :
    0 < digitsValue (c :: digits) := by
  have first : 0 < c.toNat - '0'.toNat := by
    have below := toNat_sub_lt digit
    have same := digitChar_of_digit digit 0
    rcases Nat.eq_zero_or_pos (c.toNat - '0'.toNat) with zero | positive
    · rw [zero] at same
      exact absurd same.symm other
    · exact positive
  induction digits using List.reverseRecOn with
  | nil => exact first.trans_eq (Nat.zero_add _).symm
  | append_singleton front last ih =>
    rw [← List.cons_append, digitsValue_concat]
    omega

/-- Digits without a zero in front are the text of the number that they denote. -/
theorem toDigits_digitsValue {digits : List Char} {c : Char} (digit : c.isDigit = true)
    (other : c ≠ '0') (all : ∀ d ∈ digits, d.isDigit = true) :
    Nat.toDigits 10 (digitsValue (c :: digits)) = c :: digits := by
  induction digits using List.reverseRecOn with
  | nil =>
    have value : digitsValue [c] = 10 * 0 + (c.toNat - '0'.toNat) := rfl
    rw [value, toDigits_of_lt (by have below := toNat_sub_lt digit; omega),
      digitChar_of_digit digit]
  | append_singleton front last ih =>
    have last_digit := all last (by simp)
    have below := toNat_sub_lt last_digit
    have positive := @digitsValue_pos front c digit other
    rw [← List.cons_append, digitsValue_concat, toDigits_of_le (by omega),
      digitChar_of_digit last_digit]
    have quotient : (10 * digitsValue (c :: front) + (last.toNat - '0'.toNat)) / 10 =
        digitsValue (c :: front) := by omega
    rw [quotient, ih fun d member ↦ all d (List.mem_append_left _ member)]

/-! ## Decimals without needless zeros -/

/-- Digits before and behind a point, with no needless zero. -/
structure Tidy (whole fraction : List Char) : Prop where
  digits : ∀ c ∈ whole ++ fraction, c.isDigit = true
  first : whole = ['0'] ∨ ∃ c rest, whole = c :: rest ∧ c ≠ '0'
  last : ∃ front c, fraction = front ++ [c] ∧ c ≠ '0'

variable {whole fraction : List Char}

theorem Tidy.last_ne_zero (tidy : Tidy whole fraction) :
    digitsValue (whole ++ fraction) % 10 ≠ 0 := by
  obtain ⟨front, c, rfl, other⟩ := tidy.last
  have digit := tidy.digits c (by simp)
  have below := toNat_sub_lt digit
  have same := digitChar_of_digit digit 0
  rw [← List.append_assoc, digitsValue_concat]
  intro zero
  have none_left : c.toNat - '0'.toNat = 0 := by omega
  rw [none_left] at same
  exact other same.symm

/-- Digits are zeros, and then what is left without them. -/
theorem exists_zeros (digits : List Char) :
    ∃ zeros, digits = List.replicate zeros '0' ++ digits.dropWhile (· = '0') := by
  refine ⟨(digits.takeWhile (· = '0')).length, ?_⟩
  have front : digits.takeWhile (· = '0') =
      List.replicate (digits.takeWhile (· = '0')).length '0' := by
    refine List.eq_replicate_iff.2 ⟨rfl, ?_⟩
    intro c member
    exact of_decide_eq_true (List.all_eq_true.1 List.all_takeWhile c member)
  rw [← front, List.takeWhile_append_dropWhile]

/-- What is left without zeros in front does not begin with one. -/
theorem ne_zero_of_dropWhile {digits rest : List Char} {c : Char}
    (h : digits.dropWhile (· = '0') = c :: rest) : c ≠ '0' := by
  have first := List.head?_dropWhile_not (· = '0') digits
  rw [h, List.head?_cons] at first
  exact of_decide_eq_false first

/-- Where the point stands: behind a zero if there are too few digits, and among them otherwise. -/
theorem positional_eq (digits places : Nat) :
    Decimal.positional ⟨digits, .negSucc places⟩ =
      if (Nat.toDigits 10 digits).length ≤ places + 1 then
        ['0', '.'] ++ List.replicate (places + 1 - (Nat.toDigits 10 digits).length) '0' ++
          Nat.toDigits 10 digits
      else
        (Nat.toDigits 10 digits).take ((Nat.toDigits 10 digits).length - (places + 1)) ++
          '.' :: (Nat.toDigits 10 digits).drop ((Nat.toDigits 10 digits).length - (places + 1)) := by
  unfold Decimal.positional
  dsimp only
  rw [decimalOnto_eq, List.append_nil]

/-- A number and its places are written as the tidy decimal that they come from. -/
theorem Tidy.positional_eq (tidy : Tidy whole fraction) :
    Decimal.positional ⟨digitsValue (whole ++ fraction), -fraction.length⟩ =
      whole ++ '.' :: fraction := by
  obtain ⟨front, last, is_last, last_other⟩ := tidy.last
  obtain ⟨places, length⟩ : ∃ places, fraction.length = places + 1 := by
    rw [is_last, List.length_append]
    exact ⟨_, rfl⟩
  have exponent : (-fraction.length : Int) = .negSucc places := by
    rw [length]
    rfl
  rw [exponent, Numeral.positional_eq]
  rcases tidy.first with rfl | ⟨c, rest, rfl, other⟩
  · obtain ⟨zeros, same⟩ := exists_zeros fraction
    obtain ⟨c, rest, left⟩ : ∃ c rest, fraction.dropWhile (· = '0') = c :: rest := by
      refine List.exists_cons_of_ne_nil fun none_left ↦ ?_
      have member : last ∈ fraction := by simp [is_last]
      rw [same, none_left, List.append_nil] at member
      exact last_other (List.eq_of_mem_replicate member)
    have other := ne_zero_of_dropWhile left
    rw [left] at same
    have all (d : Char) (member : d ∈ c :: rest) : d.isDigit = true := by
      apply tidy.digits d
      rw [same]
      exact List.mem_append_right _ (List.mem_append_right _ member)
    have text : Nat.toDigits 10 (digitsValue (['0'] ++ fraction)) = c :: rest := by
      rw [same, ← List.append_assoc, ← List.replicate_one, List.replicate_append_replicate,
        digitsValue_zeros]
      exact toDigits_digitsValue (all c List.mem_cons_self) other
        fun d member ↦ all d (List.mem_cons_of_mem _ member)
    have short : (c :: rest).length + zeros = places + 1 := by
      rw [← length, same, List.length_append, List.length_replicate, Nat.add_comm]
    have padding : places + 1 - (c :: rest).length = zeros := by omega
    rw [text, if_pos (by omega), padding, same, List.append_assoc]
    rfl
  · have text : Nat.toDigits 10 (digitsValue (c :: rest ++ fraction)) = c :: rest ++ fraction := by
      refine toDigits_digitsValue (tidy.digits c (by simp)) other fun d member ↦ ?_
      exact tidy.digits d (List.mem_cons_of_mem _ member)
    have cut : (c :: rest ++ fraction).length - (places + 1) = (c :: rest).length := by
      rw [List.length_append, length, Nat.add_sub_cancel]
    have long : ¬ (c :: rest ++ fraction).length ≤ places + 1 := by
      rw [List.length_append, List.length_cons]
      omega
    rw [text, if_neg long, cut, List.take_left, List.drop_left]

/-! ## The doubles of short decimals -/

section

variable {x : Binary} {digits places : Nat}

theorem ten_pow_le_two_pow {places : Nat} (few : places ≤ 307) : (10 : ℚ) ^ places ≤ 2 ^ 1022 := by
  have most : (10 : ℚ) ^ 59 ≤ 2 ^ 196 := by norm_num
  have others : (10 : ℚ) ^ 12 ≤ 2 ^ 40 := by norm_num
  calc (10 : ℚ) ^ places ≤ 10 ^ (59 * 5 + 12) := pow_le_pow_right₀ (by norm_num) few
    _ = (10 ^ 59) ^ 5 * 10 ^ 12 := by rw [pow_add, pow_mul]
    _ ≤ (2 ^ 196) ^ 5 * 2 ^ 40 :=
      mul_le_mul (pow_le_pow_left₀ (by norm_num) most 5) others (by norm_num) (by norm_num)
    _ = 2 ^ (196 * 5 + 40) := by rw [pow_add, pow_mul]
    _ ≤ 2 ^ 1022 := pow_le_pow_right₀ one_le_two (by decide)

/-- A decimal of few places is far enough from zero for the leading bit. -/
theorem leading_of_rounds (double : x.IsDouble) (positive : 0 < digits) (few : places ≤ 307)
    (rounds : x.Rounds (digits / 10 ^ places)) : 2 ^ 52 ≤ x.mantissa := by
  by_contra small
  have least : x.exponent = -1074 := of_not_not fun other ↦ small (double.leading other)
  have gap_pos := x.gapAbove_pos
  have below : (digits : ℚ) / 10 ^ places < 2 ^ 52 * x.gapAbove := by
    have mantissa : (x.mantissa : ℚ) + 1 ≤ 2 ^ 52 := by exact_mod_cast Nat.not_le.1 small
    have scaled := mul_le_mul_of_nonneg_right mantissa (le_of_lt gap_pos)
    have upper := rounds.below
    rw [x.magnitude_eq] at upper
    linarith
  have unit : 2 ^ 52 * x.gapAbove = 1 / 2 ^ 1022 := by
    have exponents : ((52 : Nat) : Int) + -1074 = -(1022 : Nat) := rfl
    rw [Binary.gapAbove, least, ← zpow_natCast, ← zpow_add₀ two_ne_zero, exponents, zpow_neg,
      zpow_natCast, one_div]
  have above : (1 : ℚ) / 2 ^ 1022 ≤ digits / 10 ^ places := by
    have tens : (0 : ℚ) < 10 ^ places := pow_pos (by norm_num) _
    have some_digit : (1 : ℚ) ≤ digits := by exact_mod_cast positive
    exact (one_div_le_one_div_of_le tens (ten_pow_le_two_pow few)).trans
      (div_le_div_of_nonneg_right some_digit (le_of_lt tens))
  rw [unit] at below
  exact absurd (lt_of_lt_of_le below above) (lt_irrefl _)

/-- The double of a decimal with a digit behind the point is no integer. -/
theorem integral?_of_short (leading : 2 ^ 52 ≤ x.mantissa) (short : digits < 10 ^ 15)
    (last : digits % 10 ≠ 0) (fraction : 0 < places) (rounds : x.Rounds (digits / 10 ^ places)) :
    (FloatValue.finite x).integral? = none := by
  by_contra some_integer
  obtain ⟨n, integral⟩ := Option.ne_none_iff_exists'.1 some_integer
  obtain ⟨number, -⟩ := (FloatValue.integral?_eq_some_iff _ n).1 integral
  obtain ⟨m, magnitude, -⟩ := (x.toRat_eq_intCast_iff n).1 (Option.some.inj number)
  have fine := RoundingInterval.places_lt_scale leading short rounds
  have value : (RoundingInterval.ofBinary x).value = m * 10 ^ (RoundingInterval.ofBinary x).scale := by
    have scaled := RoundingInterval.value_div x
    rw [magnitude, div_eq_iff (pow_ne_zero _ (by norm_num))] at scaled
    exact_mod_cast scaled
  have holds_value : (RoundingInterval.ofBinary x).holds (RoundingInterval.ofBinary x).value = true := by
    rw [RoundingInterval.holds_ofBinary_iff (by omega), RoundingInterval.value_div]
    exact .self x
  have coarse := (RoundingInterval.decimalLength_value leading short (by omega) rounds).1
  have same := RoundingInterval.eq_of_holds leading coarse (Nat.dvd_mul_left _ digits)
    (b := (RoundingInterval.ofBinary x).value) (by
      rw [value]
      exact Nat.dvd_mul_left_of_dvd (Nat.pow_dvd_pow 10 (Nat.sub_le _ _)) m)
    (RoundingInterval.holds_scaled leading short rounds) holds_value
  have scale : (RoundingInterval.ofBinary x).scale =
      places + ((RoundingInterval.ofBinary x).scale - places) := by omega
  rw [value, scale, Nat.pow_add, ← Nat.mul_assoc, Nat.add_sub_cancel_left] at same
  have whole := Nat.eq_of_mul_eq_mul_right (Nat.pow_pos (by decide)) same
  have tens : 10 ∣ digits := by
    rw [whole]
    exact Nat.dvd_mul_left_of_dvd (dvd_pow_self 10 (by omega)) m
  omega

/-- No short decimal lies behind the doubles. -/
theorem not_beyond_of_short (short : digits < 10 ^ 15) :
    ¬ (2 ^ 53 - 1 / 2) * 2 ^ (971 : Int) ≤ (digits : ℚ) / 10 ^ places := by
  intro beyond
  have tens : (1 : ℚ) ≤ 10 ^ places := one_le_pow₀ (by norm_num)
  have below : (digits : ℚ) / 10 ^ places ≤ digits := div_le_self digits.cast_nonneg tens
  have bound : (digits : ℚ) < 10 ^ 15 := by exact_mod_cast short
  have large : (1 : ℚ) ≤ 2 ^ (971 : Int) := one_le_zpow₀ one_le_two (by decide)
  generalize (2 : ℚ) ^ (971 : Int) = gap at *
  linarith

end

/-- The double that a short tidy decimal rounds to is no integer, and its text is that decimal. -/
theorem text_of_tidy {negative : Bool} {value : FloatValue}
    (read : ReadsAs negative (digitsValue (whole ++ fraction) / 10 ^ fraction.length) value)
    (tidy : Tidy whole fraction) (short : digitsValue (whole ++ fraction) < 10 ^ 15)
    (few : fraction.length ≤ 307) :
    value.integral? = none ∧
      value.text = String.ofList ((if negative then ['-'] else []) ++ (whole ++ '.' :: fraction)) := by
  have last := tidy.last_ne_zero
  have some_place : 0 < fraction.length := by
    obtain ⟨front, c, same, -⟩ := tidy.last
    rw [same, List.length_append]
    exact Nat.succ_pos _
  cases read with
  | infinite beyond => exact absurd beyond (not_beyond_of_short short)
  | finite x double sign rounds =>
    have leading := leading_of_rounds double (by omega) few rounds
    refine ⟨integral?_of_short leading short last some_place rounds, ?_⟩
    rw [FloatValue.text, x.magnitudeText_of_short leading short last rounds, tidy.positional_eq, sign]
    cases negative with
    | true => rfl
    | false => rfl

/-! ## Short natural numbers -/

/-- A short natural number is read as itself. -/
theorem integral?_of_natural {negative : Bool} {value : FloatValue} {n : Nat} (short : n < 10 ^ 15)
    (read : ReadsAs negative n value) :
    value.integral? = some (if negative then -(n : Int) else n) := by
  cases read with
  | infinite beyond =>
    have large := @not_beyond_of_short n 0 short
    rw [pow_zero, div_one] at large
    exact absurd beyond large
  | finite x double sign rounds =>
    obtain ⟨y, double_y, magnitude_y⟩ := Binary.exists_double_of_lt (Nat.lt_of_lt_of_le short (by decide))
    have nearest := rounds.nearest double double_y
    rw [magnitude_y, sub_self, abs_zero] at nearest
    have magnitude := sub_eq_zero.1 (abs_nonpos_iff.1 nearest)
    rw [FloatValue.integral?_eq_some_iff]
    constructor
    · rw [FloatValue.toRat?, Option.some_inj, x.toRat_eq_intCast_iff]
      exact ⟨n, magnitude.symm, by rw [sign]⟩
    · unfold FitsSigned
      split
      all_goals omega

/-! ## Needless zeros -/

/-- The digits in front of a point without needless zeros. If there are only zeros, one of them stays. -/
def tidyWhole (whole : List Char) : List Char :=
  match whole.dropWhile (· = '0') with
  | [] => ['0']
  | c :: rest => c :: rest

def tidyFraction (fraction : List Char) : List Char :=
  (fraction.reverse.dropWhile (· = '0')).reverse

/-- A decimal without needless zeros: without the point if no digit is left behind it, and without the
sign if it is zero. -/
def tidied (negative : Bool) (whole fraction : List Char) : List Char :=
  if tidyFraction fraction = [] then
    if negative && tidyWhole whole ≠ ['0'] then '-' :: tidyWhole whole else tidyWhole whole
  else
    (if negative then ['-'] else []) ++ (tidyWhole whole ++ '.' :: tidyFraction fraction)

theorem first_tidyWhole (whole : List Char) :
    tidyWhole whole = ['0'] ∨ ∃ c rest, tidyWhole whole = c :: rest ∧ c ≠ '0' := by
  unfold tidyWhole
  cases left : whole.dropWhile (· = '0') with
  | nil => exact .inl rfl
  | cons c rest => exact .inr ⟨c, rest, rfl, ne_zero_of_dropWhile left⟩

theorem mem_tidyWhole {c : Char} (h : c ∈ tidyWhole whole) : c = '0' ∨ c ∈ whole := by
  unfold tidyWhole at h
  split at h
  case h_1 => exact .inl (List.mem_singleton.1 h)
  case h_2 left =>
    rw [← left] at h
    exact .inr ((List.dropWhile_sublist _).mem h)

theorem digitsValue_append (front back : List Char) :
    digitsValue (front ++ back) =
      back.foldl (fun n c ↦ 10 * n + (c.toNat - '0'.toNat)) (digitsValue front) := by
  rw [digitsValue, List.foldl_append]
  rfl

theorem digitsValue_tidyWhole (whole : List Char) : digitsValue (tidyWhole whole) = digitsValue whole := by
  obtain ⟨zeros, same⟩ := exists_zeros whole
  unfold tidyWhole
  cases left : whole.dropWhile (· = '0') with
  | nil =>
    rw [left] at same
    rw [same, digitsValue_zeros]
    rfl
  | cons c rest =>
    rw [left] at same
    rw [same, digitsValue_zeros]

theorem exists_zeros_behind (fraction : List Char) :
    ∃ zeros, fraction = tidyFraction fraction ++ List.replicate zeros '0' := by
  obtain ⟨zeros, same⟩ := exists_zeros fraction.reverse
  have turned := congrArg List.reverse same
  rw [List.reverse_reverse, List.reverse_append, List.reverse_replicate] at turned
  exact ⟨zeros, turned⟩

theorem digitsValue_append_zeros (digits : List Char) (zeros : Nat) :
    digitsValue (digits ++ List.replicate zeros '0') = digitsValue digits * 10 ^ zeros := by
  induction zeros with
  | zero => rw [List.replicate_zero, List.append_nil, Nat.pow_zero, Nat.mul_one]
  | succ zeros ih =>
    rw [List.replicate_succ', ← List.append_assoc, digitsValue_concat, ih, Nat.sub_self, Nat.add_zero,
      Nat.pow_succ]
    ring

/-- Needless zeros do not change the number. -/
theorem quotient_tidied (whole fraction : List Char) :
    (digitsValue (whole ++ fraction) : ℚ) / 10 ^ fraction.length =
      digitsValue (tidyWhole whole ++ tidyFraction fraction) / 10 ^ (tidyFraction fraction).length := by
  obtain ⟨zeros, same⟩ := exists_zeros_behind fraction
  have value : digitsValue (whole ++ fraction) =
      digitsValue (tidyWhole whole ++ tidyFraction fraction) * 10 ^ zeros := by
    rw [← digitsValue_append_zeros, List.append_assoc, ← same, digitsValue_append, digitsValue_append,
      digitsValue_tidyWhole]
  have length : fraction.length = (tidyFraction fraction).length + zeros := by
    have lengths := congrArg List.length same
    rwa [List.length_append, List.length_replicate] at lengths
  rw [value, length, pow_add]
  push_cast
  exact mul_div_mul_right _ _ (pow_ne_zero _ (by norm_num))

/-- Digits around a point are tidy without needless zeros, unless nothing is left behind the point. -/
theorem tidy_tidied (digits : ∀ c ∈ whole ++ fraction, c.isDigit = true)
    (some_left : tidyFraction fraction ≠ []) : Tidy (tidyWhole whole) (tidyFraction fraction) := by
  obtain ⟨zeros, same⟩ := exists_zeros_behind fraction
  refine ⟨fun c member ↦ ?_, first_tidyWhole whole, ?_⟩
  · rcases List.mem_append.1 member with front | back
    · rcases mem_tidyWhole front with rfl | inside
      · rfl
      · exact digits c (List.mem_append_left _ inside)
    · apply digits c
      rw [same]
      exact List.mem_append_right _ (List.mem_append_left _ back)
  · obtain ⟨c, rest, left⟩ : ∃ c rest, fraction.reverse.dropWhile (· = '0') = c :: rest :=
      List.exists_cons_of_ne_nil fun none_left ↦ some_left (by rw [tidyFraction, none_left]; rfl)
    refine ⟨rest.reverse, c, ?_, ne_zero_of_dropWhile left⟩
    rw [tidyFraction, left, List.reverse_cons]

/-- Digits without needless zeros are the text of the number that they denote. -/
theorem toDigits_tidyWhole (digits : ∀ c ∈ whole, c.isDigit = true) :
    Nat.toDigits 10 (digitsValue (tidyWhole whole)) = tidyWhole whole := by
  rcases first_tidyWhole whole with zero | ⟨c, rest, same, other⟩
  · rw [zero]
    rfl
  · have all (d : Char) (member : d ∈ c :: rest) : d.isDigit = true := by
      rw [← same] at member
      rcases mem_tidyWhole member with rfl | inside
      · rfl
      · exact digits d inside
    rw [same]
    exact toDigits_digitsValue (all c List.mem_cons_self) other
      fun d member ↦ all d (List.mem_cons_of_mem _ member)

theorem Tidy.tidyWhole_eq (tidy : Tidy whole fraction) : tidyWhole whole = whole := by
  rcases tidy.first with rfl | ⟨c, rest, rfl, other⟩
  · rfl
  · unfold tidyWhole
    rw [List.dropWhile_cons_of_neg (by simpa using other)]

theorem Tidy.tidyFraction_eq (tidy : Tidy whole fraction) : tidyFraction fraction = fraction := by
  obtain ⟨front, c, rfl, other⟩ := tidy.last
  rw [tidyFraction, List.reverse_concat, List.dropWhile_cons_of_neg (by simpa using other),
    List.reverse_cons, List.reverse_reverse]

theorem Tidy.tidied_eq (tidy : Tidy whole fraction) (negative : Bool) :
    tidied negative whole fraction = (if negative then ['-'] else []) ++ (whole ++ '.' :: fraction) := by
  have nonempty : fraction ≠ [] := by
    obtain ⟨front, c, rfl, -⟩ := tidy.last
    exact List.append_ne_nil_of_right_ne_nil _ (List.cons_ne_nil _ _)
  rw [tidied, tidy.tidyWhole_eq, tidy.tidyFraction_eq, if_neg nonempty]

end Phrasebook.Numeral
