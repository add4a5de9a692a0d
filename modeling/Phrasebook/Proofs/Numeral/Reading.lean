import Mathlib.Algebra.Order.Field.Basic
import Phrasebook.Numeral.Reading
import Phrasebook.Proofs.Numeral.Digits
import Phrasebook.Proofs.Numeral.Doubles

/-!
# Reading decimals

A decimal is read as the double whose rounding interval it lies in, and as infinite if it lies behind
all of them. The pattern is found by one rounded division, in units that are as large as the gaps
between the doubles there.
-/

namespace Phrasebook.Numeral

/-! ## Rounded quotients -/

/-- A natural number is next to a number, and even if another one is as near. -/
structure IsRounded (q : ℚ) (n : Nat) : Prop where
  above : n - 1 / 2 ≤ q
  below : q ≤ n + 1 / 2
  even : q = n - 1 / 2 ∨ q = n + 1 / 2 → n % 2 = 0

/-- Quotients are rounded to the nearest natural number, ties to the even one. -/
theorem isRounded_roundQuotient (a : Nat) {b : Nat} (positive : 0 < b) :
    IsRounded (a / b) (roundQuotient a b) := by
  have positive : (0 : ℚ) < b := by exact_mod_cast positive
  have remainder : ((a % b : Nat) : ℚ) < b := by
    exact_mod_cast Nat.mod_lt a (by exact_mod_cast positive)
  have nonneg : (0 : ℚ) ≤ (a % b : Nat) := Nat.cast_nonneg _
  have parts : (a : ℚ) / b = (a / b : Nat) + (a % b : Nat) / b := by
    have sum : (a : ℚ) = b * (a / b : Nat) + (a % b : Nat) := by
      exact_mod_cast (Nat.div_add_mod a b).symm
    rw [div_eq_iff (ne_of_gt positive), add_mul, div_mul_cancel₀ _ (ne_of_gt positive), mul_comm]
    exact sum
  have rest_lt : ((a % b : Nat) : ℚ) / b < 1 := (div_lt_one positive).2 remainder
  have rest_nonneg : 0 ≤ ((a % b : Nat) : ℚ) / b := div_nonneg nonneg (le_of_lt positive)
  have less_half : ((a % b : Nat) : ℚ) / b < 1 / 2 ↔ 2 * (a % b) < b := by
    rw [div_lt_div_iff₀ positive two_pos, one_mul, mul_comm]
    exact_mod_cast Iff.rfl
  have is_half : ((a % b : Nat) : ℚ) / b = 1 / 2 ↔ 2 * (a % b) = b := by
    rw [div_eq_div_iff (ne_of_gt positive) two_ne_zero, one_mul, mul_comm]
    exact_mod_cast Iff.rfl
  rw [parts, roundQuotient]
  generalize ((a % b : Nat) : ℚ) / b = rest at *
  split
  case isTrue down =>
    rw [Bool.or_eq_true, Bool.and_eq_true, decide_eq_true_eq, beq_iff_eq, beq_iff_eq, ← less_half,
      ← is_half] at down
    have at_most : rest ≤ 1 / 2 := down.elim le_of_lt fun tie ↦ le_of_eq tie.1
    refine ⟨by linarith, by linarith, ?_⟩
    rintro (lower | upper)
    · linarith
    · rcases down with less | tie
      · linarith
      · exact tie.2
  case isFalse up =>
    rw [Bool.or_eq_true, Bool.and_eq_true, decide_eq_true_eq, beq_iff_eq, beq_iff_eq, ← less_half,
      ← is_half, not_or, not_lt, not_and] at up
    obtain ⟨at_least, odd⟩ := up
    have next : ((a / b + 1 : Nat) : ℚ) = (a / b : Nat) + 1 := Nat.cast_succ _
    refine ⟨by linarith, by linarith, ?_⟩
    rintro (lower | upper)
    · have tie := odd (by linarith)
      omega
    · linarith

/-! ## Patterns of rounded numbers -/

/-- What a pattern of a magnitude is read as, behind a sign. -/
def signed (negative : Bool) (magnitude : Nat) : FloatValue :=
  .ofPattern 11 52 (negative.toNat * 2 ^ 63 + magnitude)

theorem signed_infinite (negative : Bool) : signed negative infinitePattern = .infinite negative := by
  cases negative
  all_goals rfl

variable {negative : Bool} {binade n : Nat} {q : ℚ}

/-- A pattern by its exponent and its fraction. -/
theorem signed_of_fields {exponent fraction : Nat} (finite : exponent < 2047)
    (small : fraction < 2 ^ 52) :
    signed negative (exponent * 2 ^ 52 + fraction) =
      if exponent = 0 then .finite ⟨negative, fraction, -1074, false⟩
      else .finite ⟨negative, 2 ^ 52 + fraction, (exponent : Int) - 1075,
        fraction == 0 && exponent > 1⟩ :=
  have read := FloatValue.ofPattern_of_fields negative (show exponent < 2 ^ 11 by omega) small
  read.trans (if_neg (Nat.ne_of_lt finite))

theorem signed_zero (negative : Bool) : signed negative 0 = .finite ⟨negative, 0, -1074, false⟩ :=
  @signed_of_fields negative 0 0 (by decide) (by decide)

/-- A mantissa that does not carry over is that of the pattern. -/
theorem signed_of_lt (h : n < 2 ^ 53) (leading : binade ≠ 0 → 2 ^ 52 ≤ n) (finite : binade ≤ 2045) :
    ∃ narrow, signed negative (binade * 2 ^ 52 + n) =
        .finite ⟨negative, n, (binade : Int) - 1074, narrow⟩ ∧
      (narrow = true → n = 2 ^ 52 ∧ binade ≠ 0) := by
  rcases Nat.lt_or_ge n (2 ^ 52) with small | large
  · obtain rfl : binade = 0 := by omega
    exact ⟨false, signed_of_fields (by omega) small, nofun⟩
  · have fields : binade * 2 ^ 52 + n = (binade + 1) * 2 ^ 52 + (n - 2 ^ 52) := by omega
    have mantissa : 2 ^ 52 + (n - 2 ^ 52) = n := by omega
    have exponent : ((binade + 1 : Nat) : Int) - 1075 = binade - 1074 := by omega
    rw [fields, signed_of_fields (by omega) (by omega), if_neg (Nat.succ_ne_zero _), mantissa,
      exponent]
    refine ⟨_, rfl, fun narrow ↦ ?_⟩
    rw [Bool.and_eq_true, beq_iff_eq, decide_eq_true_eq] at narrow
    omega

/-- A mantissa that carries over becomes the least one of the next binade. -/
theorem signed_of_carry (finite : binade ≤ 2044) :
    signed negative (binade * 2 ^ 52 + 2 ^ 53) =
      .finite ⟨negative, 2 ^ 52, (binade : Int) - 1073, true⟩ := by
  have fields : binade * 2 ^ 52 + 2 ^ 53 = (binade + 2) * 2 ^ 52 + 0 := by omega
  have exponent : ((binade + 2 : Nat) : Int) - 1075 = binade - 1073 := by omega
  have narrow : decide (binade + 2 > 1) = true := by
    rw [decide_eq_true_eq]
    omega
  rw [fields, signed_of_fields (by omega) (by omega), if_neg (Nat.succ_ne_zero _), exponent, narrow]
  rfl

/-! ## What is read -/

/-- What a number that is not negative is read as, behind a sign. -/
inductive ReadsAs (negative : Bool) (q : ℚ) : FloatValue → Prop
  | finite (x : Binary) (double : x.IsDouble) (sign : x.negative = negative) (rounds : x.Rounds q) :
    ReadsAs negative q (.finite x)
  /-- It lies half a gap or more behind the largest double, `(2 ^ 53 - 1) * 2 ^ 971`. -/
  | infinite (beyond : (2 ^ 53 - 1 / 2) * 2 ^ (971 : Int) ≤ q) : ReadsAs negative q (.infinite negative)

/-- No double is nearer to a number than the one that it is read as. -/
theorem ReadsAs.nearest {negative : Bool} {q : ℚ} {x y : Binary} (read : ReadsAs negative q (.finite x))
    (double : y.IsDouble) : |q - x.magnitude| ≤ |q - y.magnitude| := by
  cases read with
  | finite _ own _ rounds => exact rounds.nearest own double

variable {w : ℚ} {x : Binary}

theorem IsRounded.le_scaled (rounded : IsRounded w n) {gap : ℚ} (positive : 0 < gap) :
    n * gap - gap / 2 ≤ w * gap ∧ w * gap ≤ n * gap + gap / 2 := by
  have lower := mul_le_mul_of_nonneg_right rounded.above (le_of_lt positive)
  have upper := mul_le_mul_of_nonneg_right rounded.below (le_of_lt positive)
  constructor <;> linarith

theorem IsRounded.le_carry (rounded : IsRounded w n) (below : w < 2 ^ 53) : n ≤ 2 ^ 53 := by
  have bound : (n : ℚ) < 2 ^ 53 + 1 := by linarith [rounded.above]
  exact Nat.lt_succ_iff.1 (by exact_mod_cast bound)

/-- The rounded number is the mantissa. -/
theorem IsRounded.rounds (rounded : IsRounded w x.mantissa)
    (narrow : x.narrowBelow = true → x.mantissa = 2 ^ 52 ∧ 2 ^ 52 ≤ w) :
    x.Rounds (w * x.gapAbove) := by
  have positive := x.gapAbove_pos
  obtain ⟨lower, upper⟩ := rounded.le_scaled positive
  have halved (sign : ℚ) (h : w * x.gapAbove = (x.mantissa + sign / 2) * x.gapAbove) :
      w = x.mantissa + sign / 2 := mul_right_cancel₀ (ne_of_gt positive) h
  cases gap : x.narrowBelow with
  | true =>
    obtain ⟨least, leading⟩ := narrow gap
    have scaled := mul_le_mul_of_nonneg_right leading (le_of_lt positive)
    have mantissa : (x.mantissa : ℚ) = 2 ^ 52 := by exact_mod_cast least
    have below := x.gapBelow_pos
    refine ⟨?_, by rwa [x.magnitude_eq], fun _ ↦ by omega⟩
    rw [x.magnitude_eq, mantissa]
    linarith
  | false =>
    have same : x.gapBelow = x.gapAbove := by
      rw [Binary.gapBelow, gap]
      rfl
    refine ⟨by rwa [x.magnitude_eq, same], by rwa [x.magnitude_eq], ?_⟩
    rw [x.magnitude_eq, same]
    rintro (low | high)
    · refine rounded.even (.inl ((halved (-1) ?_).trans (by ring)))
      rw [low]
      ring
    · refine rounded.even (.inr (halved 1 ?_))
      rw [high]
      ring

/-- The rounded number carried over, and the mantissa is the least one for twice the gap. -/
theorem IsRounded.rounds_of_carry (rounded : IsRounded w (2 ^ 53)) (least : x.mantissa = 2 ^ 52)
    (narrow : x.narrowBelow = true) : x.Rounds (w * (x.gapAbove / 2)) := by
  have positive := x.gapAbove_pos
  obtain ⟨lower, upper⟩ := rounded.le_scaled (half_pos positive)
  have mantissa : (x.mantissa : ℚ) = 2 ^ 52 := by exact_mod_cast least
  have gap : x.gapBelow = x.gapAbove / 2 := by rw [Binary.gapBelow, if_pos narrow]
  push_cast at lower upper
  refine ⟨?_, ?_, fun _ ↦ by omega⟩
  · rw [x.magnitude_eq, mantissa, gap]
    linarith
  · rw [x.magnitude_eq, mantissa]
    linarith

/-- A number that was rounded in units of a gap lies in the interval of the double that is made of it. -/
theorem readsAs_signed (rounded : IsRounded w n) (below : w < 2 ^ 53)
    (leading : binade ≠ 0 → 2 ^ 52 ≤ w) (finite : binade * 2 ^ 52 + n < infinitePattern) :
    ReadsAs negative (w * 2 ^ ((binade : Int) - 1074)) (signed negative (binade * 2 ^ 52 + n)) := by
  have at_most := rounded.le_carry below
  have at_least : binade ≠ 0 → 2 ^ 52 ≤ n := by
    intro nonzero
    have bound : (2 ^ 52 : ℚ) < n + 1 := by linarith [rounded.below, leading nonzero]
    exact Nat.lt_succ_iff.1 (by exact_mod_cast bound)
  rw [infinitePattern] at finite
  rcases Nat.lt_or_eq_of_le at_most with small | rfl
  · obtain ⟨narrow, same, tells⟩ := @signed_of_lt negative binade n small at_least (by omega)
    rw [same]
    exact .finite _ (FloatValue.isDouble_of_ofPattern same) rfl
      (rounded.rounds fun h ↦ ⟨(tells h).1, leading (tells h).2⟩)
  · have same := @signed_of_carry negative binade (by omega)
    let x : Binary := ⟨negative, 2 ^ 52, (binade : Int) - 1073, true⟩
    have gap : (2 : ℚ) ^ ((binade : Int) - 1074) = x.gapAbove / 2 := by
      rw [Binary.gapAbove, div_eq_mul_inv, ← zpow_sub_one₀ two_ne_zero, sub_sub]
      rfl
    rw [same, gap]
    exact .finite x (FloatValue.isDouble_of_ofPattern same) rfl (rounded.rounds_of_carry rfl rfl)

/-! ## The binade of a quotient -/

/-- How often the gap has doubled where a quotient lies, which is given in units of the least double. -/
def binadeOf (units b : Nat) : Nat := Nat.log2 (units / b) - 52

theorem nearestPattern_eq (a b : Nat) :
    nearestPattern a b =
      min (binadeOf (a * 2 ^ lastPlace) b * 2 ^ 52 +
        roundQuotient (a * 2 ^ lastPlace) (b * 2 ^ binadeOf (a * 2 ^ lastPlace) b)) infinitePattern := rfl

/-- In units of its gap, a quotient is below the mantissas that carry over. -/
theorem quotient_lt (units : Nat) {b : Nat} (positive : 0 < b) :
    (units : ℚ) / (b * 2 ^ binadeOf units b : Nat) < 2 ^ 53 := by
  have log : units / b < 2 ^ (53 + binadeOf units b) := by
    refine Nat.lt_of_lt_of_le Nat.lt_log2_self (Nat.pow_le_pow_right two_pos ?_)
    rw [binadeOf]
    omega
  rw [Nat.div_lt_iff_lt_mul positive, Nat.pow_add, Nat.mul_assoc] at log
  have scaled : 0 < b * 2 ^ binadeOf units b := Nat.mul_pos positive (Nat.two_pow_pos _)
  rw [div_lt_iff₀ (by exact_mod_cast scaled), mul_comm b]
  exact_mod_cast log

/-- If the gap has doubled, a quotient has the leading bit in units of its gap. -/
theorem le_quotient {units b : Nat} (positive : 0 < b) (nonzero : binadeOf units b ≠ 0) :
    2 ^ 52 ≤ (units : ℚ) / (b * 2 ^ binadeOf units b : Nat) := by
  have large : units / b ≠ 0 := by
    intro zero
    rw [binadeOf, zero] at nonzero
    exact nonzero rfl
  have log : 2 ^ (52 + binadeOf units b) ≤ units / b := by
    have exponent : 52 + binadeOf units b = Nat.log2 (units / b) := by
      rw [binadeOf] at nonzero ⊢
      omega
    rw [exponent]
    exact Nat.log2_self_le large
  rw [Nat.le_div_iff_mul_le positive, Nat.pow_add, Nat.mul_assoc] at log
  have scaled : 0 < b * 2 ^ binadeOf units b := Nat.mul_pos positive (Nat.two_pow_pos _)
  rw [le_div_iff₀ (by exact_mod_cast scaled), mul_comm b]
  exact_mod_cast log

theorem lastPlace_eq : (lastPlace : Int) = 1074 := by
  rw [lastPlace]
  rfl

theorem scaled_quotient (a : Nat) {b : Nat} (positive : 0 < b) (binade : Nat) :
    ((a * 2 ^ lastPlace : Nat) : ℚ) / (b * 2 ^ binade : Nat) * 2 ^ ((binade : Int) - 1074) =
      a / b := by
  have nonzero : (b : ℚ) ≠ 0 := by exact_mod_cast Nat.ne_of_gt positive
  have power (n : Nat) : (2 : ℚ) ^ n ≠ 0 := pow_ne_zero n two_ne_zero
  rw [← lastPlace_eq, zpow_sub₀ two_ne_zero, zpow_natCast, zpow_natCast, Nat.cast_mul, Nat.cast_mul,
    Nat.cast_pow, Nat.cast_pow, Nat.cast_two, div_mul_div_comm, mul_assoc, mul_assoc,
    mul_comm (2 ^ lastPlace), mul_div_mul_right _ _ (mul_ne_zero (power _) (power _))]

/-- A pattern that would lie behind the finite ones belongs to a number behind the doubles. -/
theorem beyond_of_pattern (rounded : IsRounded w n) (below : w < 2 ^ 53)
    (leading : binade ≠ 0 → 2 ^ 52 ≤ w) (beyond : infinitePattern ≤ binade * 2 ^ 52 + n) :
    (2 ^ 53 - 1 / 2) * 2 ^ (971 : Int) ≤ w * 2 ^ ((binade : Int) - 1074) := by
  have at_most := rounded.le_carry below
  rw [infinitePattern] at beyond
  have positive : (0 : ℚ) < 2 ^ (971 : Int) := zpow_pos two_pos _
  rcases Nat.lt_or_ge 2045 binade with larger | smaller
  · have exponent : (971 : Int) + 1 ≤ (binade : Int) - 1074 := by omega
    have doubled := zpow_le_zpow_right₀ (one_le_two (α := ℚ)) exponent
    rw [zpow_add_one₀ two_ne_zero] at doubled
    have leading := leading (by omega)
    generalize (2 : ℚ) ^ (971 : Int) = gap at *
    calc (2 ^ 53 - 1 / 2) * gap ≤ 2 ^ 52 * (gap * 2) := by linarith
      _ ≤ w * 2 ^ ((binade : Int) - 1074) :=
        mul_le_mul leading doubled (by linarith) (by linarith)
  · obtain rfl : binade = 2045 := by omega
    obtain rfl : n = 2 ^ 53 := by omega
    have exponent : ((2045 : Nat) : Int) - 1074 = 971 := rfl
    have above := rounded.above
    push_cast at above
    rw [exponent]
    exact mul_le_mul_of_nonneg_right above (le_of_lt positive)

/-- The pattern of a quotient is read as it. -/
theorem readsAs_nearestPattern (negative : Bool) (a : Nat) {b : Nat} (positive : 0 < b) :
    ReadsAs negative (a / b) (signed negative (nearestPattern a b)) := by
  have scaled : 0 < b * 2 ^ binadeOf (a * 2 ^ lastPlace) b :=
    Nat.mul_pos positive (Nat.two_pow_pos _)
  have rounded := isRounded_roundQuotient (a * 2 ^ lastPlace) scaled
  have below := quotient_lt (a * 2 ^ lastPlace) positive
  have leading := @le_quotient (a * 2 ^ lastPlace) b positive
  have whole := scaled_quotient a positive (binadeOf (a * 2 ^ lastPlace) b)
  rw [nearestPattern_eq]
  generalize binadeOf (a * 2 ^ lastPlace) b = binade at *
  rw [← whole]
  rcases Nat.lt_or_ge (binade * 2 ^ 52 + roundQuotient (a * 2 ^ lastPlace) (b * 2 ^ binade))
    infinitePattern with finite | beyond
  · rw [Nat.min_eq_left (Nat.le_of_lt finite)]
    exact readsAs_signed rounded below leading finite
  · rw [Nat.min_eq_right beyond, signed_infinite]
    exact .infinite (beyond_of_pattern rounded below leading beyond)

/-! ## Decimals -/

/-- Up to half of the least double everything is read as zero. -/
theorem readsAs_zero {negative : Bool} (nonneg : 0 ≤ q) (small : q ≤ 2 ^ (-1074 : Int) / 2) :
    ReadsAs negative q (signed negative 0) := by
  have same := signed_zero negative
  let x : Binary := ⟨negative, 0, -1074, false⟩
  have magnitude : x.magnitude = 0 := by
    rw [x.magnitude_eq]
    exact (congrArg (· * x.gapAbove) Nat.cast_zero).trans (zero_mul _)
  have below := x.gapBelow_pos
  rw [same]
  refine .finite x (FloatValue.isDouble_of_ofPattern same) rfl ⟨?_, ?_, fun _ ↦ rfl⟩
  · rw [magnitude]
    linarith
  · rw [magnitude, zero_add]
    exact small

theorem two_pow_le_ten_pow (n : Nat) : (2 : ℚ) ^ (3 * n) ≤ 10 ^ n := by
  rw [pow_mul]
  exact pow_le_pow_left₀ (by norm_num) (by norm_num) n

variable {digits : Nat} {exponent : Int}

theorem lt_ten_zpow (digits : Nat) (exponent : Int) :
    (digits : ℚ) * 10 ^ exponent < 10 ^ (decimalLength digits + exponent) := by
  have bound : (digits : ℚ) < 10 ^ decimalLength digits := by
    exact_mod_cast lt_pow_decimalLength digits
  rw [zpow_add₀ (by norm_num), zpow_natCast]
  exact mul_lt_mul_of_pos_right bound (zpow_pos (by norm_num) _)

theorem ten_zpow_le (positive : 0 < digits) :
    (10 : ℚ) ^ (decimalLength digits + exponent) ≤ 10 * (digits * 10 ^ exponent) := by
  have bound : (10 : ℚ) ^ decimalLength digits ≤ 10 * digits := by
    exact_mod_cast pow_decimalLength_le positive
  rw [zpow_add₀ (by norm_num), zpow_natCast, ← mul_assoc]
  exact mul_le_mul_of_nonneg_right bound (zpow_nonneg (by norm_num) _)

/-- A number with the first of its digits far in front of the point lies behind the doubles. -/
theorem beyond_of_large (positive : 0 < digits) (h : 400 < decimalLength digits + exponent) :
    (2 ^ 53 - 1 / 2) * 2 ^ (971 : Int) ≤ (digits : ℚ) * 10 ^ exponent := by
  have leading : (10 : ℚ) ^ (decimalLength digits + exponent) ≤ 10 * (digits * 10 ^ exponent) :=
    ten_zpow_le positive
  have large : (10 : ℚ) ^ ((400 : Nat) + 1 : Int) ≤ 10 ^ (decimalLength digits + exponent) :=
    zpow_le_zpow_right₀ (by norm_num) h
  have powers : (2 : ℚ) ^ ((53 : Nat) + 971 : Int) ≤ 2 ^ ((3 * 400 : Nat) : Int) :=
    zpow_le_zpow_right₀ one_le_two (by decide)
  have tens := two_pow_le_ten_pow 400
  have positive : (0 : ℚ) < 2 ^ (971 : Int) := zpow_pos two_pos _
  rw [zpow_add_one₀ (by norm_num), zpow_natCast] at large
  rw [zpow_add₀ two_ne_zero, zpow_natCast, zpow_natCast] at powers
  have behind := large.trans leading
  have far := powers.trans tens
  generalize (10 : ℚ) ^ 400 = ten at behind far
  generalize (2 : ℚ) ^ (971 : Int) = gap at *
  linarith only [behind, far, positive]

/-- A number with the first of its digits far behind the point lies close to zero. -/
theorem le_half_of_small (h : decimalLength digits + exponent < -400) :
    (digits : ℚ) * 10 ^ exponent ≤ 2 ^ (-1074 : Int) / 2 := by
  have leading := lt_ten_zpow digits exponent
  have small : (10 : ℚ) ^ (decimalLength digits + exponent) ≤ 10 ^ (-(401 : Nat) : Int) :=
    zpow_le_zpow_right₀ (by norm_num) (by omega)
  have tens := inv_anti₀ (pow_pos two_pos _) (two_pow_le_ten_pow 401)
  have powers : (2 : ℚ) ^ (-(3 * 401 : Nat) : Int) ≤ 2 ^ (-1074 - 1 : Int) :=
    zpow_le_zpow_right₀ one_le_two (by decide)
  rw [zpow_neg, zpow_natCast] at small
  rw [zpow_neg, zpow_natCast, zpow_sub_one₀ two_ne_zero, ← div_eq_mul_inv] at powers
  exact (leading.le.trans small).trans (tens.trans powers)

/-- Also exponents that are not worked out lead to the nearest magnitude. -/
theorem readsAs_nearestMagnitude (negative : Bool) (digits : Nat) (exponent : Int) :
    ReadsAs negative (digits * 10 ^ exponent) (signed negative (nearestMagnitude digits exponent)) := by
  have nonneg : (0 : ℚ) ≤ digits * 10 ^ exponent :=
    mul_nonneg digits.cast_nonneg (zpow_nonneg (by norm_num) _)
  unfold nearestMagnitude
  split
  case isTrue zero =>
    refine readsAs_zero nonneg ?_
    rw [zero, Nat.cast_zero, zero_mul]
    exact le_of_lt (half_pos (zpow_pos two_pos _))
  case isFalse nonzero =>
    dsimp only
    split
    case isTrue large =>
      rw [signed_infinite]
      exact .infinite (beyond_of_large (Nat.pos_of_ne_zero nonzero) large)
    split
    case isTrue small => exact readsAs_zero nonneg (le_half_of_small small)
    split
    case h_1 n _ _ =>
      have read := readsAs_nearestPattern negative (digits * 10 ^ n) one_pos
      rw [Nat.cast_one, div_one] at read
      rw [Int.ofNat_eq_natCast, zpow_natCast]
      exact_mod_cast read
    case h_2 n _ _ =>
      have read := readsAs_nearestPattern negative digits (Nat.pow_pos (n := n + 1) (by decide : 0 < 10))
      rw [zpow_negSucc, ← div_eq_mul_inv]
      exact_mod_cast read

theorem nearestMagnitude_lt (digits : Nat) (exponent : Int) :
    nearestMagnitude digits exponent < 2 ^ 63 := by
  have infinite : infinitePattern < 2 ^ 63 := by decide
  have pattern (a b : Nat) : nearestPattern a b < 2 ^ 63 := by
    rw [nearestPattern_eq]
    exact Nat.lt_of_le_of_lt (Nat.min_le_right _ _) infinite
  unfold nearestMagnitude
  split
  · decide
  dsimp only
  split
  · exact infinite
  split
  · decide
  split
  all_goals exact pattern _ _

theorem ofBits64_nearestDouble (negative : Bool) (digits : Nat) (exponent : Int) :
    FloatValue.ofBits64 (nearestDouble negative digits exponent) =
      signed negative (nearestMagnitude digits exponent) := by
  have bound := nearestMagnitude_lt digits exponent
  rw [FloatValue.ofBits64, signed, nearestDouble, UInt64.toNat_ofNat']
  congr 1
  cases negative with
  | false =>
    rw [if_neg Bool.false_ne_true, Bool.toNat_false, Nat.zero_mul, Nat.zero_add]
    exact Nat.mod_eq_of_lt (by omega)
  | true =>
    rw [if_pos rfl, Bool.toNat_true, Nat.one_mul, Nat.pow_eq]
    exact Nat.mod_eq_of_lt (by omega)

/-- A decimal is read as the double whose rounding interval it lies in. -/
theorem readsAs_readDecimal (negative : Bool) (whole fraction : List Char) :
    ReadsAs negative (digitsValue (whole ++ fraction) / 10 ^ fraction.length)
      (.ofBits64 (readDecimal negative whole fraction)) := by
  have read := readsAs_nearestMagnitude negative (digitsValue (whole ++ fraction)) (-fraction.length)
  rw [zpow_neg, zpow_natCast, ← div_eq_mul_inv] at read
  rw [readDecimal, ofBits64_nearestDouble]
  exact read

end Phrasebook.Numeral
