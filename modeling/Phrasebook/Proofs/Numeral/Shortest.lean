import Mathlib.Algebra.Order.Field.Basic
import Phrasebook.Numeral.Shortest
import Phrasebook.Proofs.Numeral.Digits
import Phrasebook.Proofs.Numeral.Doubles

/-!
# Shortest decimal texts

The interval that is searched for the shortest decimal is the rounding interval of the double, scaled
to natural numbers. The gap between doubles is so much smaller than fifteen digits can tell that an
interval holds one decimal of so few digits at most. The search finds it, on its own grid or on the next
finer one, and its text has all of its digits.
-/

namespace Phrasebook.Numeral

namespace RoundingInterval

theorem holds_iff (i : RoundingInterval) (n : Nat) :
    i.holds n = true ↔
      (i.low < n ∨ i.closed = true ∧ i.low = n) ∧ (n < i.high ∨ i.closed = true ∧ n = i.high) := by
  rw [holds, Bool.and_eq_true, Bool.or_eq_true, Bool.or_eq_true, Bool.and_eq_true, Bool.and_eq_true,
    decide_eq_true_eq, decide_eq_true_eq, beq_iff_eq, beq_iff_eq]

/-! ## Rounding intervals in natural numbers -/

/-- A quarter of the gap above a magnitude, in the interval's units. -/
def quarter (x : Binary) : Nat := 2 ^ (x.exponent - 2).toNat * 5 ^ (ofBinary x).scale

section

variable {x : Binary}

theorem value_ofBinary (x : Binary) : (ofBinary x).value = 4 * x.mantissa * quarter x := rfl

theorem high_ofBinary (x : Binary) : (ofBinary x).high = (4 * x.mantissa + 2) * quarter x := rfl

theorem low_ofBinary (x : Binary) :
    (ofBinary x).low = (4 * x.mantissa - if x.narrowBelow then 1 else 2) * quarter x := rfl

theorem quarter_pos (x : Binary) : 0 < quarter x :=
  Nat.mul_pos (Nat.two_pow_pos _) (Nat.pow_pos (by decide))

/-- The scaled quarter is one of the gap. -/
theorem quarter_div (x : Binary) : (quarter x : ℚ) / 10 ^ (ofBinary x).scale = x.gapAbove / 4 := by
  have fives : (5 : ℚ) ^ (ofBinary x).scale ≠ 0 := pow_ne_zero _ (by norm_num)
  have tens : (10 : ℚ) ^ (ofBinary x).scale = 2 ^ (ofBinary x).scale * 5 ^ (ofBinary x).scale := by
    rw [← mul_pow]
    norm_num
  have exponents : ((x.exponent - 2).toNat : Int) - (ofBinary x).scale = x.exponent - 2 := by
    change ((x.exponent - 2).toNat : Int) - (2 - x.exponent).toNat = x.exponent - 2
    omega
  rw [quarter, tens]
  push_cast
  rw [mul_div_mul_right _ _ fives, ← zpow_natCast, ← zpow_natCast, ← zpow_sub₀ two_ne_zero, exponents,
    zpow_sub₀ two_ne_zero, Binary.gapAbove]
  norm_num

theorem value_div (x : Binary) : ((ofBinary x).value : ℚ) / 10 ^ (ofBinary x).scale = x.magnitude := by
  have part := quarter_div x
  rw [value_ofBinary, x.magnitude_eq]
  push_cast
  rw [mul_div_assoc, part]
  ring

theorem high_div (x : Binary) :
    ((ofBinary x).high : ℚ) / 10 ^ (ofBinary x).scale = x.magnitude + x.gapAbove / 2 := by
  have part := quarter_div x
  rw [high_ofBinary, x.magnitude_eq]
  push_cast
  rw [mul_div_assoc, part]
  ring

theorem low_div (positive : 0 < x.mantissa) :
    ((ofBinary x).low : ℚ) / 10 ^ (ofBinary x).scale = x.magnitude - x.gapBelow / 2 := by
  have part := quarter_div x
  rw [low_ofBinary, x.magnitude_eq, Binary.gapBelow]
  split
  all_goals
    rw [Nat.cast_mul, Nat.cast_sub (by omega), mul_div_assoc, part]
    push_cast
    ring

/-- The interval holds what rounds to the magnitude. -/
theorem holds_ofBinary_iff (positive : 0 < x.mantissa) (n : Nat) :
    (ofBinary x).holds n = true ↔ x.Rounds (n / 10 ^ (ofBinary x).scale) := by
  have scale : (0 : ℚ) < 10 ^ (ofBinary x).scale := pow_pos (by norm_num) _
  have closed : (ofBinary x).closed = true ↔ x.mantissa % 2 = 0 := beq_iff_eq
  have less (a b : Nat) : (a : ℚ) / 10 ^ (ofBinary x).scale ≤ b / 10 ^ (ofBinary x).scale ↔ a ≤ b := by
    rw [div_le_div_iff_of_pos_right scale, Nat.cast_le]
  have same (a b : Nat) : (a : ℚ) / 10 ^ (ofBinary x).scale = b / 10 ^ (ofBinary x).scale ↔ a = b := by
    rw [div_left_inj' (ne_of_gt scale), Nat.cast_inj]
  rw [holds_iff, closed]
  constructor
  · rintro ⟨lower, upper⟩
    constructor
    · rw [← low_div positive, less]
      omega
    · rw [← high_div, less]
      omega
    · rw [← low_div positive, ← high_div, same, same]
      omega
  · rintro ⟨above, below, even⟩
    rw [← low_div positive, less] at above
    rw [← high_div, less] at below
    rw [← low_div positive, ← high_div, same, same] at even
    omega

end

/-! ## Grids -/

variable {i : RoundingInterval} {grid n : Nat}

/-- What is found on a grid lies on it and in the interval. -/
theorem onGrid?_sound (h : i.onGrid? grid = some n) : grid ∣ n ∧ i.holds n = true := by
  have below : grid ∣ i.value / grid * grid := Nat.dvd_mul_left _ _
  have above : grid ∣ i.value / grid * grid + grid := (Nat.dvd_add_right below).2 (Nat.dvd_refl _)
  rw [onGrid?] at h
  split at h
  case h_1 lower upper =>
    split at h
    · cases h
      exact ⟨below, lower⟩
    · cases h
      exact ⟨above, upper⟩
  case h_2 lower upper =>
    cases h
    exact ⟨below, lower⟩
  case h_3 lower upper =>
    cases h
    exact ⟨above, upper⟩
  case h_4 => cases h

/-- A point of the grid that is next to the value is one of the two that are tried. -/
theorem onGrid?_complete (on : grid ∣ n) (holds : i.holds n = true) (below : n < i.value + grid)
    (above : i.value < n + grid) : (i.onGrid? grid).isSome = true := by
  have tried : n = i.value / grid * grid ∨ n = i.value / grid * grid + grid := by
    obtain ⟨k, rfl⟩ := on
    have positive : 0 < grid := by omega
    rw [Nat.mul_comm grid k] at *
    have upper : i.value / grid < k + 1 := by
      rw [Nat.div_lt_iff_lt_mul positive, Nat.succ_mul]
      exact above
    have lower : k < i.value / grid + 2 := by
      have next := Nat.lt_mul_div_succ i.value positive
      refine Nat.lt_of_mul_lt_mul_right (a := grid) ?_
      rw [Nat.mul_comm] at next
      rw [Nat.succ_mul]
      omega
    rw [← Nat.succ_mul, Nat.mul_right_cancel_iff positive, Nat.mul_right_cancel_iff positive]
    omega
  rw [onGrid?]
  split
  case h_1 =>
    split
    all_goals rfl
  case h_2 | h_3 => rfl
  case h_4 lower upper =>
    rcases tried with same | same
    · rw [← same, holds] at lower
      cases lower
    · rw [← same, holds] at upper
      cases upper

theorem firstHit?_cons (i : RoundingInterval) (g : Nat) (rest : List Nat) :
    i.firstHit? (g :: rest) =
      match i.onGrid? (10 ^ g) with
      | some n => some ⟨n / 10 ^ g, g - i.scale⟩
      | none => i.firstHit? rest := rfl

/-- If all that can be found down to some grid is one number, and it is found there, then it is found. -/
theorem firstHit?_of_only {grids : List Nat} {least : Nat}
    (only : ∀ g, least ≤ g → ∀ m, i.onGrid? (10 ^ g) = some m → m = n)
    (hit : (i.onGrid? (10 ^ least)).isSome = true) (mem : least ∈ grids)
    (falling : grids.Pairwise (· > ·)) :
    ∃ g, least ≤ g ∧ i.onGrid? (10 ^ g) = some n ∧
      i.firstHit? grids = some ⟨n / 10 ^ g, g - i.scale⟩ := by
  induction grids with
  | nil => cases mem
  | cons g rest ih =>
    obtain ⟨before, falling⟩ := List.pairwise_cons.1 falling
    cases found : i.onGrid? (10 ^ g) with
    | some m =>
      have no_finer : least ≤ g := by
        rcases List.mem_cons.1 mem with here | later
        · exact Nat.le_of_eq here
        · exact Nat.le_of_lt (before least later)
      obtain rfl := only g no_finer m found
      refine ⟨g, no_finer, found, ?_⟩
      rw [firstHit?_cons, found]
    | none =>
      rcases List.mem_cons.1 mem with rfl | later
      · rw [found] at hit
        cases hit
      · obtain ⟨coarser, no_finer, found_there, first⟩ := ih later falling
        refine ⟨coarser, no_finer, found_there, ?_⟩
        rw [firstHit?_cons, found]
        exact first

/-! ## The first grids -/

/-- The grids that are tried, the coarsest one first. -/
def grids (i : RoundingInterval) : List Nat :=
  (List.range 17).filterMap fun n ↦
    if n < decimalLength i.value then some (decimalLength i.value - 1 - n) else none

theorem shortest_of_firstHit? {d : Decimal} (h : i.firstHit? i.grids = some d) : i.shortest = d := by
  change (i.firstHit? i.grids).getD _ = d
  rw [h]
  rfl

theorem mem_grids {g : Nat} (low : decimalLength i.value ≤ g + 17) (high : g < decimalLength i.value) :
    g ∈ i.grids := by
  rw [grids, List.mem_filterMap]
  refine ⟨decimalLength i.value - 1 - g, List.mem_range.2 (by omega), ?_⟩
  rw [if_pos (by omega), Option.some_inj]
  omega

theorem falling_grids (i : RoundingInterval) : i.grids.Pairwise (· > ·) := by
  rw [grids, List.pairwise_filterMap]
  refine List.pairwise_lt_range.imp fun before g first h second ↦ ?_
  rw [Option.ite_none_right_eq_some, Option.some_inj] at first second
  omega

/-! ## Intervals of doubles -/

/-- What rounds to a value is within half of a gap of it. -/
theorem near_of_holds {x : Binary} (h : (ofBinary x).holds n = true) :
    (ofBinary x).value ≤ n + 2 * quarter x ∧ n ≤ (ofBinary x).value + 2 * quarter x := by
  have low : (ofBinary x).value ≤ (ofBinary x).low + 2 * quarter x := by
    rw [value_ofBinary, low_ofBinary, ← Nat.add_mul]
    refine Nat.mul_le_mul_right _ ?_
    split
    all_goals omega
  have high : (ofBinary x).high = (ofBinary x).value + 2 * quarter x := by
    rw [value_ofBinary, high_ofBinary, Nat.add_mul]
  rw [holds_iff] at h
  omega

theorem mul_quarter_le_value {x : Binary} (leading : 2 ^ 52 ≤ x.mantissa) :
    2 ^ 54 * quarter x ≤ (ofBinary x).value := by
  rw [value_ofBinary]
  exact Nat.mul_le_mul_right _ (by omega)

/-- The value of an interval has more than sixteen digits, and all of the interval lies close to it. -/
theorem width_lt {x : Binary} (leading : 2 ^ 52 ≤ x.mantissa) :
    17 ≤ decimalLength (ofBinary x).value ∧
      4 * quarter x < 10 ^ (decimalLength (ofBinary x).value - 15) := by
  have positive := quarter_pos x
  have below := lt_pow_decimalLength (ofBinary x).value
  have large := mul_quarter_le_value leading
  have long : 17 ≤ decimalLength (ofBinary x).value := by
    by_contra short
    have tens : 10 ^ decimalLength (ofBinary x).value ≤ 10 ^ 16 :=
      Nat.pow_le_pow_right (by decide) (by omega)
    omega
  obtain ⟨rest, parts⟩ : ∃ rest, decimalLength (ofBinary x).value = rest + 15 :=
    ⟨_, (Nat.sub_add_cancel (by omega)).symm⟩
  rw [parts, Nat.pow_add] at below
  rw [parts, Nat.add_sub_cancel]
  exact ⟨by omega, by omega⟩

/-- Two numbers of an interval that lie on one coarse grid are the same. -/
theorem eq_of_holds {x : Binary} {g a b : Nat} (leading : 2 ^ 52 ≤ x.mantissa)
    (coarse : decimalLength (ofBinary x).value ≤ g + 15) (on_a : 10 ^ g ∣ a) (on_b : 10 ^ g ∣ b)
    (holds_a : (ofBinary x).holds a = true) (holds_b : (ofBinary x).holds b = true) : a = b := by
  have near_a := near_of_holds holds_a
  have near_b := near_of_holds holds_b
  have close : 4 * quarter x < 10 ^ g :=
    Nat.lt_of_lt_of_le (width_lt leading).2 (Nat.pow_le_pow_right (by decide) (by omega))
  have apart {a b : Nat} (on_a : 10 ^ g ∣ a) (on_b : 10 ^ g ∣ b) (less : a < b) : a + 10 ^ g ≤ b := by
    have gap := Nat.le_of_dvd (Nat.sub_pos_of_lt less) (Nat.dvd_sub on_b on_a)
    omega
  rcases Nat.lt_trichotomy a b with less | same | greater
  · have gap := apart on_a on_b less
    omega
  · exact same
  · have gap := apart on_b on_a greater
    omega

/-! ## Decimals of few digits -/

section

variable {x : Binary} {digits places : Nat}

/-- The interval's units are finer than the places of a short decimal in it. -/
theorem places_lt_scale (leading : 2 ^ 52 ≤ x.mantissa) (short : digits < 10 ^ 15)
    (rounds : x.Rounds (digits / 10 ^ places)) : places < (ofBinary x).scale := by
  have positive := x.gapAbove_pos
  have narrow := x.gapBelow_le
  have tens : (0 : ℚ) < 10 ^ places := pow_pos (by norm_num) _
  have fine : x.gapAbove < 1 / 10 ^ places := by
    have mantissa : (2 ^ 52 : ℚ) ≤ x.mantissa := by exact_mod_cast leading
    have least := mul_le_mul_of_nonneg_right mantissa (le_of_lt positive)
    have above := rounds.above
    have few : (digits : ℚ) / 10 ^ places < 10 ^ 15 * (1 / 10 ^ places) := by
      rw [mul_one_div, div_lt_div_iff_of_pos_right tens]
      exact_mod_cast short
    rw [x.magnitude_eq] at above
    linarith
  by_contra coarse
  have exponent : -(places : Int) ≤ x.exponent := by
    have scale : (ofBinary x).scale = (2 - x.exponent).toNat := rfl
    omega
  have gap := zpow_le_zpow_right₀ (one_le_two (α := ℚ)) exponent
  have powers : (1 : ℚ) / 10 ^ places ≤ 1 / 2 ^ places :=
    one_div_le_one_div_of_le (pow_pos two_pos _)
      (pow_le_pow_left₀ (by norm_num) (by norm_num) _)
  rw [zpow_neg, zpow_natCast, ← one_div] at gap
  exact absurd (lt_of_lt_of_le fine (powers.trans gap)) (lt_irrefl _)

/-- A short decimal in units of the interval. -/
theorem holds_scaled (leading : 2 ^ 52 ≤ x.mantissa) (short : digits < 10 ^ 15)
    (rounds : x.Rounds (digits / 10 ^ places)) :
    (ofBinary x).holds (digits * 10 ^ ((ofBinary x).scale - places)) = true := by
  have fine := places_lt_scale leading short rounds
  have scaled : ((digits * 10 ^ ((ofBinary x).scale - places) : Nat) : ℚ) /
      10 ^ (ofBinary x).scale = digits / 10 ^ places := by
    have split : (10 : ℚ) ^ (ofBinary x).scale =
        10 ^ places * 10 ^ ((ofBinary x).scale - places) := by
      rw [← pow_add]
      congr 1
      omega
    rw [split]
    push_cast
    exact mul_div_mul_right _ _ (pow_ne_zero _ (by norm_num))
  rw [holds_ofBinary_iff (by omega), scaled]
  exact rounds

/-- The last place of a short decimal is coarser than the gap. -/
theorem quarter_lt (leading : 2 ^ 52 ≤ x.mantissa) (short : digits < 10 ^ 15)
    (rounds : x.Rounds (digits / 10 ^ places)) :
    4 * quarter x < 10 ^ ((ofBinary x).scale - places) := by
  have near := near_of_holds (holds_scaled leading short rounds)
  have large := mul_quarter_le_value leading
  have few := Nat.mul_lt_mul_of_pos_right short
    (Nat.pow_pos (n := (ofBinary x).scale - places) (by decide : 0 < 10))
  have positive := quarter_pos x
  omega

/-- A short decimal has its last place on a grid that is coarse enough, and the value has a digit there
or at the next finer one. -/
theorem decimalLength_value (leading : 2 ^ 52 ≤ x.mantissa) (short : digits < 10 ^ 15)
    (positive : 0 < digits) (rounds : x.Rounds (digits / 10 ^ places)) :
    decimalLength (ofBinary x).value ≤ (ofBinary x).scale - places + 15 ∧
      (ofBinary x).scale - places ≤ decimalLength (ofBinary x).value := by
  have near := near_of_holds (holds_scaled leading short rounds)
  have fine := quarter_lt leading short rounds
  have narrow := (width_lt leading).2
  have unit := quarter_pos x
  have below := lt_pow_decimalLength (ofBinary x).value
  have value_pos : 0 < (ofBinary x).value := by
    rw [value_ofBinary]
    exact Nat.mul_pos (by omega) unit
  have above := pow_decimalLength_le value_pos
  generalize (ofBinary x).scale - places = shift at *
  have few := Nat.mul_le_mul_right (10 ^ shift) (Nat.succ_le_of_lt short)
  have some_digit := Nat.mul_le_mul_right (10 ^ shift) (Nat.succ_le_of_lt positive)
  rw [Nat.succ_mul] at few some_digit
  constructor
  · have bound : 10 ^ decimalLength (ofBinary x).value < 10 ^ (shift + 16) := by
      rw [Nat.pow_add]
      omega
    have exponents := (Nat.pow_lt_pow_iff_right (by decide)).1 bound
    omega
  · have less : 10 ^ (decimalLength (ofBinary x).value - 15) ≤ 10 ^ decimalLength (ofBinary x).value :=
      Nat.pow_le_pow_right (by decide) (Nat.sub_le _ _)
    have bound : 10 ^ shift < 10 ^ (decimalLength (ofBinary x).value + 1) := by
      rw [Nat.pow_succ]
      omega
    have exponents := (Nat.pow_lt_pow_iff_right (by decide)).1 bound
    omega

/-- The search finds a short decimal, perhaps with a zero behind it. -/
theorem shortest_of_short (leading : 2 ^ 52 ≤ x.mantissa) (short : digits < 10 ^ 15)
    (last : digits % 10 ≠ 0) (rounds : x.Rounds (digits / 10 ^ places)) :
    ∃ zeros : Nat, zeros ≤ 1 ∧
      (ofBinary x).shortest = ⟨digits * 10 ^ zeros, -(places : Int) - zeros⟩ := by
  have positive : 0 < digits := by omega
  have fine := places_lt_scale leading short rounds
  have holds := holds_scaled leading short rounds
  have near := near_of_holds holds
  obtain ⟨long, narrow⟩ := width_lt leading
  obtain ⟨at_most, at_least⟩ := decimalLength_value leading short positive rounds
  have scale : ((ofBinary x).scale - places : Nat) = ((ofBinary x).scale : Int) - places := by omega
  generalize (ofBinary x).scale - places = shift at *
  -- The grid of the last place, unless the value has no digit there.
  obtain ⟨least, is_least⟩ : ∃ least, least = min shift (decimalLength (ofBinary x).value - 1) :=
    ⟨_, rfl⟩
  have coarse : decimalLength (ofBinary x).value ≤ least + 15 := by omega
  have width : 4 * quarter x < 10 ^ least :=
    Nat.lt_of_lt_of_le narrow (Nat.pow_le_pow_right (by decide) (by omega))
  have on : 10 ^ least ∣ digits * 10 ^ shift :=
    Nat.dvd_mul_left_of_dvd (Nat.pow_dvd_pow 10 (by omega)) digits
  have hit : ((ofBinary x).onGrid? (10 ^ least)).isSome = true :=
    onGrid?_complete on holds (by omega) (by omega)
  have only (g : Nat) (coarser : least ≤ g) (m : Nat)
      (found : (ofBinary x).onGrid? (10 ^ g) = some m) : m = digits * 10 ^ shift := by
    obtain ⟨on_m, holds_m⟩ := onGrid?_sound found
    exact eq_of_holds leading coarse ((Nat.pow_dvd_pow 10 coarser).trans on_m) on holds_m holds
  have tried : least ∈ (ofBinary x).grids := mem_grids (by omega) (by omega)
  obtain ⟨g, coarser, found, first⟩ := firstHit?_of_only only hit tried (falling_grids _)
  -- No grid that is coarser than the last place has the decimal on it.
  have finer : g ≤ shift := by
    by_contra coarser
    have on_g := (Nat.pow_dvd_pow 10 (Nat.succ_le_of_lt (Nat.not_le.1 coarser))).trans
      (onGrid?_sound found).1
    rw [Nat.pow_succ, Nat.mul_comm digits,
      Nat.mul_dvd_mul_iff_left (Nat.pow_pos (by decide))] at on_g
    omega
  have quotient : digits * 10 ^ shift / 10 ^ g = digits * 10 ^ (shift - g) := by
    rw [← Nat.sub_add_cancel finer, Nat.pow_add, ← Nat.mul_assoc, Nat.add_sub_cancel,
      Nat.mul_div_cancel _ (Nat.pow_pos (by decide))]
  rw [quotient] at first
  refine ⟨shift - g, by omega, (shortest_of_firstHit? first).trans ?_⟩
  congr 1
  omega

end

end RoundingInterval

/-! ## Zeros behind the digits -/

/-- Zeros behind a last digit that is none are moved into the exponent, if they are few enough. -/
theorem Decimal.stripZeros_eq {fuel zeros digits : Nat} (few : zeros ≤ fuel)
    (last : digits % 10 ≠ 0) (exponent : Int) :
    stripZeros fuel ⟨digits * 10 ^ zeros, exponent - zeros⟩ = ⟨digits, exponent⟩ := by
  induction zeros generalizing fuel with
  | zero =>
    have same : (⟨digits * 10 ^ 0, exponent - (0 : Nat)⟩ : Decimal) = ⟨digits, exponent⟩ := by simp
    rw [same]
    cases fuel with
    | zero => rfl
    | succ fuel =>
      rw [stripZeros, if_neg]
      rw [Bool.and_eq_true, beq_iff_eq]
      exact fun h ↦ last h.2
  | succ zeros ih =>
    obtain ⟨fuel, rfl⟩ := Nat.exists_eq_add_of_lt (Nat.lt_of_lt_of_le zeros.lt_succ_self few)
    have tenth : digits * 10 ^ (zeros + 1) = 10 * (digits * 10 ^ zeros) := by
      rw [Nat.pow_succ]
      ring
    have nonzero : digits * 10 ^ (zeros + 1) ≠ 0 :=
      Nat.mul_ne_zero (by omega) (Nat.ne_of_gt (Nat.pow_pos (by decide)))
    have exponents : exponent - (zeros + 1 : Nat) + 1 = exponent - zeros := by omega
    have zero_last : digits * 10 ^ (zeros + 1) % 10 = 0 := by omega
    rw [stripZeros, if_pos, exponents, tenth, Nat.mul_div_cancel_left _ (by decide)]
    · exact ih (by omega)
    · rw [Bool.and_eq_true, bne_iff_ne, beq_iff_eq]
      exact ⟨nonzero, zero_last⟩

/-- The magnitude that a short decimal rounds to has its digits for a text. -/
theorem Binary.magnitudeText_of_short {x : Binary} {digits places : Nat}
    (leading : 2 ^ 52 ≤ x.mantissa) (short : digits < 10 ^ 15) (last : digits % 10 ≠ 0)
    (rounds : x.Rounds (digits / 10 ^ places)) :
    x.magnitudeText = Decimal.positional ⟨digits, -places⟩ := by
  obtain ⟨zeros, few, found⟩ := RoundingInterval.shortest_of_short leading short last rounds
  rw [magnitudeText, if_neg (by omega), found, Decimal.stripZeros_eq (by omega) last]

end Phrasebook.Numeral
