import Phrasebook.Calendar.Date

/-!
# Dates and their numbers

The date with a number exists and has that number. A cycle of four hundred years consists of
centuries, groups of four years and years that are all of the same length but for the last of each, so
that a day of the cycle is told by four counts.
-/

namespace Phrasebook.Calendar.Date

/-! ## Days of a cycle -/

/-- A day of a cycle by the centuries, groups of four years, years and days before it. -/
structure CycleDay (day century fours years days : Int) : Prop where
  sum : day = 36524 * century + 1461 * fours + 365 * years + days
  centuries : 0 ≤ century ∧ century ≤ 3
  groups : 0 ≤ fours ∧ fours ≤ 24
  yearly : 0 ≤ years ∧ years ≤ 3
  /-- Only the last year of a group has a day more, and in the last group only that of the last
  century. -/
  daily : 0 ≤ days ∧ (days ≤ 364 ∨ days = 365 ∧ years = 3 ∧ (fours ≤ 23 ∨ century = 3))

theorem exists_cycleDay {day : Int} (low : 0 ≤ day) (high : day < 146097) :
    ∃ century fours years days, CycleDay day century fours years days := by
  generalize hcentury : min (day / 36524) 3 = century
  generalize hrest : day - 36524 * century = rest
  generalize hyears : min (rest % 1461 / 365) 3 = years
  refine ⟨century, rest / 1461, years, rest % 1461 - 365 * years, ?_, ?_, ?_, ?_, ?_⟩
  all_goals omega

/-- The year of a day, which is found by leaving out one day of every leap year. -/
theorem CycleDay.year {day century fours years days : Int}
    (split : CycleDay day century fours years days) :
    (day - day / 1460 + day / 36524 - day / 146096) / 365 = 100 * century + 4 * fours + years := by
  obtain ⟨sum, centuries, groups, yearly, daily⟩ := split
  have whole : day / 36524 - day / 146096 = century := by
    by_cases last : day = 146096
    · rw [last]
      omega
    · have passed : day / 36524 = century :=
        (Int.ediv_eq_iff_of_pos (by decide)).2 ⟨by omega, by omega⟩
      have spent : day / 146096 = 0 := (Int.ediv_eq_iff_of_pos (by decide)).2 ⟨by omega, by omega⟩
      rw [passed, spent, Int.sub_zero]
  have leaps : day / 1460 = 25 * century + fours ∧ 24 * century + fours + 365 * years + days < 1460 ∨
      day / 1460 = 25 * century + fours + 1 ∧
        1460 ≤ 24 * century + fours + 365 * years + days := by
    by_cases short : 24 * century + fours + 365 * years + days < 1460
    · exact .inl ⟨(Int.ediv_eq_iff_of_pos (by decide)).2 ⟨by omega, by omega⟩, short⟩
    · exact .inr ⟨(Int.ediv_eq_iff_of_pos (by decide)).2 ⟨by omega, by omega⟩, by omega⟩
  generalize day / 36524 = passed at whole ⊢
  generalize day / 146096 = spent at whole ⊢
  generalize day / 1460 = left_out at leaps ⊢
  apply (Int.ediv_eq_iff_of_pos (by decide)).2
  omega

/-- The leap years before a year, and the centuries that have one less. -/
theorem CycleDay.leaps {day century fours years days : Int}
    (split : CycleDay day century fours years days) :
    (100 * century + 4 * fours + years) / 4 = 25 * century + fours ∧
      (100 * century + 4 * fours + years) / 100 = century := by
  obtain ⟨sum, centuries, groups, yearly, daily⟩ := split
  exact ⟨(Int.ediv_eq_iff_of_pos (by decide)).2 ⟨by omega, by omega⟩,
    (Int.ediv_eq_iff_of_pos (by decide)).2 ⟨by omega, by omega⟩⟩

/-! ## Dates of days -/

/-- The date of a day of a cycle, of which the years start in March. -/
theorem ofDayNumber_eq {number cycle day century fours years days : Int}
    (cycles : (number + 719468) / 146097 = cycle) (rest : (number + 719468) % 146097 = day)
    (split : CycleDay day century fours years days) :
    ofDayNumber number =
      let year := 100 * century + 4 * fours + years + cycle * 400
      let monthFromMarch := (5 * days + 2) / 153
      let month := if monthFromMarch < 10 then monthFromMarch + 3 else monthFromMarch - 9
      ⟨if month ≤ 2 then year + 1 else year, month.toNat,
        (days - (153 * monthFromMarch + 2) / 5 + 1).toNat⟩ := by
  obtain ⟨fourth, hundredth⟩ := split.leaps
  have first : day - (365 * (100 * century + 4 * fours + years) + (25 * century + fours) -
      century) = days := by
    rw [split.sum]
    clear cycles rest fourth hundredth
    omega
  unfold ofDayNumber
  simp only [cycles, rest, split.year, fourth, hundredth, first]

/-- The number of a date that is given by a year and a day, of which the year starts in March. -/
theorem dayNumber_eq {cycle year days monthFromMarch month : Int}
    (bounds : 0 ≤ year ∧ year < 400) (late : 0 ≤ monthFromMarch ∧ monthFromMarch ≤ 11)
    (hmonth : month = if monthFromMarch < 10 then monthFromMarch + 3 else monthFromMarch - 9)
    (hday : 0 ≤ days - (153 * monthFromMarch + 2) / 5 + 1) :
    dayNumber ⟨if month ≤ 2 then year + cycle * 400 + 1 else year + cycle * 400, month.toNat,
        (days - (153 * monthFromMarch + 2) / 5 + 1).toNat⟩ =
      cycle * 146097 + (365 * year + year / 4 - year / 100 + days) - 719468 := by
  have first : (if month.toNat ≤ 2 then
      (if month ≤ 2 then year + cycle * 400 + 1 else year + cycle * 400) - 1
      else if month ≤ 2 then year + cycle * 400 + 1 else year + cycle * 400) =
      year + cycle * 400 := by
    split
    · rw [if_pos (by omega)]
      omega
    · rw [if_neg (by omega)]
  have back : ((month.toNat : Int) + 9) % 12 = monthFromMarch := by
    split at hmonth
    · omega
    · omega
  have cycles : (year + cycle * 400) / 400 = cycle := by omega
  have years : (year + cycle * 400) % 400 = year := by omega
  unfold dayNumber
  simp only [first, back, cycles, years, Int.toNat_of_nonneg hday]
  omega

theorem month_bounds {days : Int} (low : 0 ≤ days) (high : days ≤ 365) :
    (0 ≤ (5 * days + 2) / 153 ∧ (5 * days + 2) / 153 ≤ 11) ∧
      1 ≤ days - (153 * ((5 * days + 2) / 153) + 2) / 5 + 1 := by
  omega

/-- The date with a number has that number. -/
theorem dayNumber_ofDayNumber (number : Int) : (ofDayNumber number).dayNumber = number := by
  generalize cycles : (number + 719468) / 146097 = cycle
  generalize rest : (number + 719468) % 146097 = day
  have total : number + 719468 = cycle * 146097 + day := by omega
  obtain ⟨century, fours, years, days, split⟩ := @exists_cycleDay day (by omega) (by omega)
  obtain ⟨fourth, hundredth⟩ := split.leaps
  rw [ofDayNumber_eq cycles rest split]
  clear cycles rest
  obtain ⟨sum, centuries, groups, yearly, daily⟩ := split
  have bounds : 0 ≤ 100 * century + 4 * fours + years ∧ 100 * century + 4 * fours + years < 400 := by
    omega
  obtain ⟨late, started⟩ := @month_bounds days (by omega) (by omega)
  dsimp only
  rw [dayNumber_eq bounds late rfl (Int.le_trans (by decide) started), fourth, hundredth]
  clear late started
  omega

/-- The last day of a leap year, which starts in March, is the twenty-ninth of February. -/
theorem daysIn_february {century fours years days cycle : Int}
    (groups : 0 ≤ fours ∧ fours ≤ 24)
    (daily : days ≤ 364 ∨ days = 365 ∧ years = 3 ∧ (fours ≤ 23 ∨ century = 3)) :
    (days - 336).toNat ≤ daysIn (100 * century + 4 * fours + years + cycle * 400 + 1) 2 := by
  have february (year : Int) : daysIn year 2 = if isLeap year then 29 else 28 := rfl
  rw [february]
  rcases daily with short | ⟨long, last, some_leap⟩
  · split
    all_goals omega
  · rw [if_pos]
    · omega
    · simp only [isLeap, Bool.and_eq_true, Bool.or_eq_true, beq_iff_eq, bne_iff_ne]
      omega

/-- There is a date with every number. -/
theorem exists_ofDayNumber (number : Int) : (ofDayNumber number).exists? = true := by
  generalize cycles : (number + 719468) / 146097 = cycle
  generalize rest : (number + 719468) % 146097 = day
  obtain ⟨century, fours, years, days, split⟩ := @exists_cycleDay day (by omega) (by omega)
  rw [ofDayNumber_eq cycles rest split]
  clear cycles rest
  obtain ⟨sum, centuries, groups, yearly, low, daily⟩ := split
  have high : days ≤ 365 := by omega
  have february := @daysIn_february century fours years days cycle groups daily
  clear sum centuries groups yearly daily
  generalize 100 * century + 4 * fours + years + cycle * 400 = year at february ⊢
  obtain ⟨⟨first, last⟩, started⟩ := month_bounds low high
  dsimp only
  generalize hm : (5 * days + 2) / 153 = m at first last started ⊢
  unfold exists?
  simp only [Bool.and_eq_true, decide_eq_true_eq]
  refine ⟨by omega, ?_⟩
  by_cases winter : m = 11
  · rw [winter]
    rw [show days - (153 * 11 + 2) / 5 + 1 = days - 336 by omega]
    exact february
  · have months : m = 0 ∨ m = 1 ∨ m = 2 ∨ m = 3 ∨ m = 4 ∨ m = 5 ∨ m = 6 ∨ m = 7 ∨ m = 8 ∨ m = 9 ∨
        m = 10 := by omega
    clear february
    rcases months with rfl | rfl | rfl | rfl | rfl | rfl | rfl | rfl | rfl | rfl | rfl
    all_goals
      simp [daysIn]
      omega

end Phrasebook.Calendar.Date
