import Mathlib.Algebra.Group.Nat.Defs
import Phrasebook.Calendar.Instant
import Phrasebook.Proofs.Calendar.Date
import Phrasebook.Proofs.Numeral.Digits
import Phrasebook.Proofs.Text.Blank
import Phrasebook.Proofs.Text.Utf8

/-!
# Written instants

The text of an instant of a year from 0 to 9999 is read back as the instant, with its fraction of a
second and its leap second. The text of an instant of any other year begins with a sign and cannot be
read, although an offset can lead to such a year.
-/

namespace Phrasebook.Calendar

open Phrasebook.Numeral Phrasebook.Text

/-! ## Digits -/

def lastDigits : Nat → Nat → List Char
  | 0, _ => []
  | width + 1, n => lastDigits width (n / 10) ++ [digitChar n]

namespace Instant

theorem atLeast_succ (width n : Nat) :
    atLeast (width + 2) n = atLeast (width + 1) (n / 10) ++ [digitChar n] := by
  unfold atLeast
  by_cases small : n < 10
  · have none_left : n / 10 = 0 := by omega
    have zero : digitChar 0 = '0' := rfl
    rw [none_left, decimalOnto, if_pos small, decimalOnto, if_pos (by decide), zero]
    simp [List.replicate_succ']
  · simp [decimalOnto_eq, toDigits_of_le (Nat.le_of_not_lt small)]

/-- A number that fits is written in as many digits as asked for. -/
theorem atLeast_eq {width n : Nat} (h : n < 10 ^ (width + 1)) :
    atLeast (width + 1) n = lastDigits (width + 1) n := by
  induction width generalizing n with
  | zero =>
    rw [atLeast, decimalOnto, if_pos (by omega)]
    rfl
  | succ width ih =>
    have below : n / 10 < 10 ^ (width + 1) := by omega
    rw [atLeast_succ, ih below]
    rfl

def digitByte (n : Nat) : UInt8 := UInt8.ofNat (0x30 + n % 10)

theorem encodeChar_digitChar (n : Nat) : String.utf8EncodeChar (digitChar n) = [digitByte n] := by
  have codes : ∀ d < 10, (Char.ofNat ('0'.toNat + d)).toNat = 0x30 + d := by decide
  have code : (digitChar n).toNat = 0x30 + n % 10 := codes (n % 10) (Nat.mod_lt n (by decide))
  rw [Utf8.encodeChar_of_ascii (by omega), code, digitByte]

theorem digit_digitByte (n : Nat) : digit (digitByte n) = .ok (n % 10) := by
  have value : (digitByte n).toNat = 0x30 + n % 10 := Utf8.toNat_ofNat (by omega)
  unfold digit
  simp only [UInt8.le_iff_toNat_le, value]
  rw [if_pos]
  · simp
  · simp
    omega

/-- The bytes of the last digits of a number. -/
def digitBytes : Nat → Nat → Bytes
  | 0, _ => []
  | width + 1, n => digitBytes width (n / 10) ++ [digitByte n]

theorem encode_lastDigits (width n : Nat) :
    (lastDigits width n).flatMap String.utf8EncodeChar = digitBytes width n := by
  induction width generalizing n with
  | zero => rfl
  | succ width ih =>
    rw [lastDigits, List.flatMap_append, ih, List.flatMap_singleton, encodeChar_digitChar]
    rfl

theorem encode_atLeast {width n : Nat} (h : n < 10 ^ (width + 1)) :
    (atLeast (width + 1) n).flatMap String.utf8EncodeChar = digitBytes (width + 1) n := by
  rw [atLeast_eq h, encode_lastDigits]

theorem twoDigits_digitByte (n : Nat) : twoDigits (digitByte (n / 10)) (digitByte n) = .ok (n % 100) := by
  rw [twoDigits, digit_digitByte, digit_digitByte]
  have sum : 10 * (n / 10 % 10) + n % 10 = n % 100 := by omega
  rw [← sum]
  rfl

/-! ## Fractions -/

theorem fractionDigits_cons (unit n : Nat) (rest : Bytes) :
    fractionDigits unit (digitByte n :: rest) =
      (n % 10 * unit + (fractionDigits (unit / 10) rest).1, (fractionDigits (unit / 10) rest).2) := by
  rw [fractionDigits, digit_digitByte]

/-- Digits of which the last is worth `unit`. -/
theorem fractionDigits_digitBytes {width n : Nat} (h : n < 10 ^ (width + 1)) (unit : Nat)
    (rest : Bytes) :
    fractionDigits (unit * 10 ^ width) (digitBytes (width + 1) n ++ rest) =
      (n * unit + (fractionDigits (unit / 10) rest).1, (fractionDigits (unit / 10) rest).2) := by
  induction width generalizing n unit rest with
  | zero =>
    have single : n < 10 := by simpa using h
    rw [Nat.pow_zero, Nat.mul_one, digitBytes, digitBytes, List.nil_append, List.singleton_append,
      fractionDigits_cons, Nat.mod_eq_of_lt single]
  | succ width ih =>
    have below : n / 10 < 10 ^ (width + 1) := by omega
    have shifted : unit * 10 ^ (width + 1) = 10 * unit * 10 ^ width := by
      rw [Nat.pow_succ']
      ac_rfl
    have whole : n / 10 * (10 * unit) + n % 10 * unit = n * unit := by
      conv => rhs; rw [← Nat.div_add_mod n 10]
      rw [Nat.add_mul]
      ac_rfl
    rw [digitBytes, List.append_assoc, shifted, ih below, Nat.mul_div_cancel_left unit (by decide),
      List.singleton_append, fractionDigits_cons, ← whole, Nat.add_assoc]

/-- The end of a fraction. -/
theorem fractionDigits_end (unit : Nat) : fractionDigits unit [0x5A] = (0, [0x5A]) := rfl

theorem digitBytes_eq_cons (width n : Nat) :
    ∃ m rest, digitBytes (width + 1) n = digitByte m :: rest := by
  induction width generalizing n with
  | zero => exact ⟨n, [], rfl⟩
  | succ width ih =>
    obtain ⟨m, rest, first⟩ := ih (n / 10)
    exact ⟨m, rest ++ [digitByte n], by rw [digitBytes, first]; rfl⟩

theorem fraction_digitBytes {width n unit : Nat} (h : n < 10 ^ (width + 1))
    (first : unit * 10 ^ width = 100000000) :
    fraction (0x2E :: (digitBytes (width + 1) n ++ [0x5A])) = .ok (n * unit, [0x5A]) := by
  have value := fractionDigits_digitBytes h unit [0x5A]
  rw [first, fractionDigits_end] at value
  obtain ⟨m, rest, cons⟩ := digitBytes_eq_cons width n
  rw [cons] at value ⊢
  rw [List.cons_append, fraction, digit_digitByte]
  exact congrArg Except.ok value

/-- A fraction is read back. -/
theorem fraction_fractionText {nano : Nat} (h : nano < 1000000000) :
    fraction ((fractionText nano ++ ['Z']).flatMap String.utf8EncodeChar) = .ok (nano, [0x5A]) := by
  have point : String.utf8EncodeChar '.' = [0x2E] := rfl
  have zone : ['Z'].flatMap String.utf8EncodeChar = [0x5A] := rfl
  rw [List.flatMap_append, zone]
  unfold fractionText
  split
  · next none => rw [none]; rfl
  split
  · next thousands =>
    have short : nano / 1000000 < 10 ^ (2 + 1) := by omega
    rw [List.flatMap_cons, point, encode_atLeast short, List.singleton_append, List.cons_append,
      @fraction_digitBytes 2 _ 1000000 short rfl, Nat.div_mul_cancel (Nat.dvd_of_mod_eq_zero thousands)]
  split
  · next thousands =>
    have short : nano / 1000 < 10 ^ (5 + 1) := by omega
    rw [List.flatMap_cons, point, encode_atLeast short, List.singleton_append, List.cons_append,
      @fraction_digitBytes 5 _ 1000 short rfl, Nat.div_mul_cancel (Nat.dvd_of_mod_eq_zero thousands)]
  · have short : nano < 10 ^ (8 + 1) := h
    rw [List.flatMap_cons, point, encode_atLeast short, List.singleton_append, List.cons_append,
      @fraction_digitBytes 8 _ 1 short rfl, Nat.mul_one]

/-! ## Dates and times of day -/

/-- The date and the time of day are read back from their digits. -/
theorem civil_digitBytes {year month day hour minute second : Nat} (rest : Bytes)
    (hyear : year < 10000) (hmonth : month < 100) (hday : day < 100) (hhour : hour < 100)
    (hminute : minute < 100) (hsecond : second < 100)
    (valid : Date.exists? ⟨year, month, day⟩ = true) :
    civil (digitBytes 4 year ++ 0x2D :: (digitBytes 2 month ++ 0x2D :: (digitBytes 2 day ++
        0x54 :: (digitBytes 2 hour ++ 0x3A :: (digitBytes 2 minute ++ 0x3A ::
          (digitBytes 2 second ++ rest)))))) =
      .ok ((⟨year, month, day⟩, hour, minute, second), rest) := by
  have years : (100 * (year / 10 / 10 % 100 : Nat) + (year % 100 : Nat) : Int) = year := by omega
  have hyphen : demand ['-'] 0x2D = .ok () := rfl
  have letter : demand ['T', 't', ' '] 0x54 = .ok () := rfl
  have colon : demand [':'] 0x3A = .ok () := rfl
  simp only [digitBytes, List.nil_append, List.cons_append, civil, twoDigits_digitByte,
    Nat.mod_eq_of_lt hmonth, Nat.mod_eq_of_lt hday, Nat.mod_eq_of_lt hhour,
    Nat.mod_eq_of_lt hminute, Nat.mod_eq_of_lt hsecond, hyphen, letter, colon]
  simp only [bind, Except.bind, years, valid]
  rfl

/-! ## Instants -/

/-- An instant of a year from 0 to 9999. A leap second is the last one of its minute. -/
structure Ordinary (instant : Instant) : Prop where
  year : 0 ≤ (Date.ofDayNumber instant.day).year ∧ (Date.ofDayNumber instant.day).year ≤ 9999
  second : instant.second < 86400
  nano : instant.nano < 1000000000 ∨ instant.nano < 2000000000 ∧ instant.second % 60 = 59

instance (instant : Instant) : Decidable instant.Ordinary :=
  decidable_of_iff (_ ∧ _ ∧ _) ⟨fun ⟨year, second, nano⟩ ↦ ⟨year, second, nano⟩,
    fun ordinary ↦ ⟨ordinary.year, ordinary.second, ordinary.nano⟩⟩

theorem daysIn_le (year : Int) (month : Nat) : Date.daysIn year month ≤ 31 := by
  unfold Date.daysIn
  split
  · split
    all_goals decide
  all_goals decide

theorem month_lt_of_daysIn_pos {year : Int} {month : Nat} (h : 0 < Date.daysIn year month) :
    month < 100 := by
  unfold Date.daysIn at h
  split at h
  all_goals omega

/-- The seconds and nanoseconds of an instant, and of its leap second, are read as they were written. -/
theorem timeOfDay_written {instant : Instant} (ordinary : instant.Ordinary) {leap nano : Nat}
    (written : (if instant.nano < 1000000000 then (0, instant.nano)
      else (1, instant.nano - 1000000000)) = (leap, nano)) :
    nano < 1000000000 ∧ instant.second % 60 + leap ≤ 60 ∧
      timeOfDay (instant.second / 3600) (instant.second / 60 % 60) (instant.second % 60 + leap) nano =
        .ok (instant.second, instant.nano) := by
  have second := ordinary.second
  have sum : 3600 * (instant.second / 3600) + 60 * (instant.second / 60 % 60) +
      instant.second % 60 = instant.second := by omega
  have hour : instant.second / 3600 < 24 := by omega
  have minute : instant.second / 60 % 60 < 60 := by omega
  split at written
  · next within =>
    cases written
    have last : instant.second % 60 < 60 := Nat.mod_lt _ (by decide)
    refine ⟨within, by omega, ?_⟩
    unfold timeOfDay
    simp [Nat.ne_of_lt last, hour, minute, last, sum]
  · next leaping =>
    cases written
    obtain ⟨bound, last⟩ := ordinary.nano.resolve_left leaping
    have whole : instant.nano - 1000000000 + 1000000000 = instant.nano := by omega
    refine ⟨by omega, by omega, ?_⟩
    rw [last] at sum ⊢
    unfold timeOfDay
    simp [hour, minute, sum, whole]

theorem ofLocal_ofDayNumber {day : Int} {second : Nat} (h : second < 86400) (nano : Nat) :
    ofLocal (Date.ofDayNumber day) second nano 0 = ⟨day, second, nano⟩ := by
  unfold ofLocal
  rw [Date.dayNumber_ofDayNumber]
  have days : (day * 86400 + second - 0) / 86400 = day := by omega
  have rest : ((day * 86400 + second - 0) % 86400).toNat = second := by omega
  simp only [days, rest]

/-- The date of an ordinary instant has fields that fit their digits. -/
theorem Ordinary.date {instant : Instant} (ordinary : instant.Ordinary) :
    (Date.ofDayNumber instant.day).year.toNat < 10000 ∧
      (Date.ofDayNumber instant.day).month < 100 ∧ (Date.ofDayNumber instant.day).day < 100 ∧
      (⟨(Date.ofDayNumber instant.day).year.toNat, (Date.ofDayNumber instant.day).month,
        (Date.ofDayNumber instant.day).day⟩ : Date) = Date.ofDayNumber instant.day := by
  obtain ⟨low, high⟩ := ordinary.year
  obtain ⟨started, ended⟩ := Bool.and_eq_true_iff.1 (Date.exists_ofDayNumber instant.day)
  have started := of_decide_eq_true started
  have ended := of_decide_eq_true ended
  have days := daysIn_le (Date.ofDayNumber instant.day).year (Date.ofDayNumber instant.day).month
  refine ⟨by omega, month_lt_of_daysIn_pos (Nat.lt_of_lt_of_le started ended), by omega, ?_⟩
  rw [Int.toNat_of_nonneg low]

/-- The bytes of the text of an instant. -/
theorem encode_text {instant : Instant} (ordinary : instant.Ordinary) {leap nano : Nat}
    (written : (if instant.nano < 1000000000 then (0, instant.nano)
      else (1, instant.nano - 1000000000)) = (leap, nano)) :
    Utf8.encode instant.text =
      digitBytes 4 (Date.ofDayNumber instant.day).year.toNat ++ 0x2D ::
        (digitBytes 2 (Date.ofDayNumber instant.day).month ++ 0x2D ::
        (digitBytes 2 (Date.ofDayNumber instant.day).day ++ 0x54 ::
        (digitBytes 2 (instant.second / 3600) ++ 0x3A ::
        (digitBytes 2 (instant.second / 60 % 60) ++ 0x3A ::
        (digitBytes 2 (instant.second % 60 + leap) ++
          (fractionText nano ++ ['Z']).flatMap String.utf8EncodeChar))))) := by
  obtain ⟨year, month, day, -⟩ := ordinary.date
  obtain ⟨low, high⟩ := ordinary.year
  obtain ⟨-, second, -⟩ := timeOfDay_written ordinary written
  have hour : instant.second / 3600 < 10 ^ (1 + 1) := by
    have bound := ordinary.second
    omega
  have minute : instant.second / 60 % 60 < 10 ^ (1 + 1) := by omega
  have hyphen : String.utf8EncodeChar '-' = [0x2D] := rfl
  have letter : String.utf8EncodeChar 'T' = [0x54] := rfl
  have colon : String.utf8EncodeChar ':' = [0x3A] := rfl
  have years : yearText (Date.ofDayNumber instant.day).year =
      atLeast 4 (Date.ofDayNumber instant.day).year.toNat := by
    rw [yearText, if_pos (by simp [low, high])]
  unfold text
  rw [written]
  simp only [Utf8.encode_ofList, List.flatMap_append, List.flatMap_cons, years,
    @encode_atLeast 3 _ year, @encode_atLeast 1 _ month, @encode_atLeast 1 _ day,
    @encode_atLeast 1 _ hour, @encode_atLeast 1 _ minute,
    @encode_atLeast 1 (instant.second % 60 + leap) (by omega), hyphen, letter, colon,
    List.append_assoc, List.cons_append, List.nil_append, Nat.reduceAdd]

/-- The text of an instant is read back as the instant. -/
theorem parse_text {instant : Instant} (ordinary : instant.Ordinary) :
    parse instant.text = .ok instant := by
  generalize written : (if instant.nano < 1000000000 then (0, instant.nano)
    else (1, instant.nano - 1000000000)) = pair
  obtain ⟨leap, nano⟩ := pair
  obtain ⟨fine, second, time⟩ := timeOfDay_written ordinary written
  obtain ⟨year, month, day, date⟩ := ordinary.date
  have hour : instant.second / 3600 < 100 := by
    have bound := ordinary.second
    omega
  have valid := Date.exists_ofDayNumber instant.day
  rw [← date] at valid
  have civil := civil_digitBytes ((fractionText nano ++ ['Z']).flatMap String.utf8EncodeChar) year month
    day hour (show instant.second / 60 % 60 < 100 by omega)
    (show instant.second % 60 + leap < 100 by omega) valid
  have zone : offset [0x5A] = .ok (0, []) := rfl
  rw [parse, encode_text ordinary written, civil, date]
  simp only [bind, Except.bind, fraction_fractionText fine, time, zone]
  exact congrArg Except.ok (ofLocal_ofDayNumber ordinary.second instant.nano)

theorem isBlank_digitChar (n : Nat) : isBlank (digitChar n) = false := by
  have digits : ∀ d < 10, isBlank (Char.ofNat ('0'.toNat + d)) = false := by decide
  exact digits (n % 10) (Nat.mod_lt n (by decide))

/-- There is no white space around the text of an instant: it begins with a digit or a sign. -/
theorem trim_text (instant : Instant) : trim instant.text = instant.text := by
  refine Trimmed.trim_eq ⟨fun c h ↦ ?_, fun c h ↦ ?_⟩
  · rw [text, String.toList_ofList] at h
    generalize Date.ofDayNumber instant.day = date at h
    by_cases plain : 0 ≤ date.year ∧ date.year ≤ 9999
    · have years : yearText date.year = lastDigits 4 date.year.toNat := by
        rw [yearText, if_pos (by simp [plain]), @atLeast_eq 3 _ (by omega)]
      rw [years] at h
      simp only [lastDigits, List.nil_append, List.cons_append, List.head?_cons] at h
      rw [← Option.some.inj h]
      exact isBlank_digitChar _
    · rw [yearText, if_neg (by simpa using plain)] at h
      simp only [List.cons_append, List.head?_cons] at h
      rw [← Option.some.inj h]
      split
      all_goals decide
  · rw [text, String.toList_ofList, List.getLast?_concat] at h
    rw [← Option.some.inj h]
    decide

/-! ## Instants that were read -/

/-- A second of a day with its fraction, or the leap second at the end of a minute. -/
structure Timely (instant : Instant) : Prop where
  second : instant.second < 86400
  nano : instant.nano < 1000000000 ∨ instant.nano < 2000000000 ∧ instant.second % 60 = 59

/-- The year of an instant has four digits and no sign. -/
def HasPlainYear (instant : Instant) : Prop :=
  0 ≤ (Date.ofDayNumber instant.day).year ∧ (Date.ofDayNumber instant.day).year ≤ 9999

instance (instant : Instant) : Decidable instant.HasPlainYear :=
  inferInstanceAs (Decidable (_ ∧ _))

theorem Timely.ordinary {instant : Instant} (timely : instant.Timely)
    (year : instant.HasPlainYear) : instant.Ordinary :=
  ⟨year, timely.second, timely.nano⟩

theorem digit_lt {byte : UInt8} {d : Nat} (h : digit byte = .ok d) : d < 10 := by
  unfold digit at h
  split at h
  · next within =>
    have high := UInt8.le_iff_toNat_le.1 (of_decide_eq_true (Bool.and_eq_true_iff.1 within).2)
    have value : byte.toNat - 0x30 = d := Except.ok.inj h
    have nine : (0x39 : UInt8).toNat = 0x39 := rfl
    omega
  · cases h

/-- A fraction stays below ten times what its first digit is worth. -/
theorem fractionDigits_lt (unit : Nat) (bytes : Bytes) :
    (fractionDigits unit bytes).1 < 10 * unit ∨ unit = 0 ∧ (fractionDigits unit bytes).1 = 0 := by
  induction bytes generalizing unit with
  | nil =>
    rw [fractionDigits]
    omega
  | cons byte rest ih =>
    rw [fractionDigits]
    cases value : digit byte with
    | error error =>
      dsimp only
      omega
    | ok d =>
      dsimp only
      have small := digit_lt value
      have share : d * unit ≤ 9 * unit := Nat.mul_le_mul_right unit (by omega)
      rcases Nat.eq_zero_or_pos unit with rfl | positive
      · rcases ih 0 with less | ⟨-, none⟩
        · omega
        · exact .inr ⟨rfl, by rw [Nat.zero_div, none]; rfl⟩
      · rcases ih (unit / 10) with less | ⟨-, none⟩
        · omega
        · omega

theorem fraction_lt {bytes rest : Bytes} {nano : Nat} (h : fraction bytes = .ok (nano, rest)) :
    nano < 1000000000 := by
  unfold fraction at h
  split at h
  · cases h
  · next byte rest' =>
    have less := fractionDigits_lt 100000000 (byte :: rest')
    cases first : digit byte with
    | error error =>
      rw [first] at h
      cases h
    | ok d =>
      rw [first] at h
      have same : (fractionDigits 100000000 (byte :: rest')).1 = nano :=
        congrArg Prod.fst (Except.ok.inj h)
      omega
  · cases h
    decide

/-- An offset is a whole number of minutes. -/
theorem offsetDigits_mod {bytes rest : Bytes} {seconds : Int}
    (h : offsetDigits bytes = .ok (seconds, rest)) : seconds % 60 = 0 := by
  unfold offsetDigits at h
  split at h
  · next h1 h2 behind =>
    cases hours : twoDigits h1 h2 with
    | error error =>
      rw [hours] at h
      cases h
    | ok hour =>
      rw [hours] at h
      cases behind with
      | nil => cases h
      | cons colon behind =>
        cases separated : demand [':'] colon with
        | error error =>
          simp only [bind, Except.bind, separated] at h
          cases h
        | ok _ =>
          simp only [bind, Except.bind, separated] at h
          split at h
          · next m1 m2 more =>
            cases minutes : twoDigits m1 m2 with
            | error error =>
              rw [minutes] at h
              cases h
            | ok minute =>
              rw [minutes] at h
              dsimp only at h
              split at h
              · cases h
              · have value : (3600 * hour + 60 * minute : Int) = seconds :=
                  congrArg Prod.fst (Except.ok.inj h)
                omega
          · cases h
  · cases h

/-- Offsets are whole minutes. -/
theorem offset_mod {bytes rest : Bytes} {seconds : Int}
    (h : offset bytes = .ok (seconds, rest)) : seconds % 60 = 0 := by
  have negated {bytes : Bytes} (h : (offsetDigits bytes).map (fun pair ↦ (-pair.1, pair.2)) =
      .ok (seconds, rest)) : seconds % 60 = 0 := by
    cases read : offsetDigits bytes with
    | error error =>
      rw [read] at h
      cases h
    | ok pair =>
      obtain ⟨value, behind⟩ := pair
      rw [read] at h
      have whole := offsetDigits_mod read
      have value : -value = seconds := congrArg Prod.fst (Except.ok.inj h)
      omega
  unfold offset at h
  split at h
  · cases h
  · exact negated h
  · split at h
    · cases h
      rfl
    split at h
    · exact offsetDigits_mod h
    split at h
    · exact negated h
    · cases h

/-- A second that counts beyond its end is a leap second, at the end of a minute. -/
theorem timeOfDay_spec {hour minute second nano : Nat} {time : Nat × Nat}
    (h : timeOfDay hour minute second nano = .ok time) (fine : nano < 1000000000) :
    time.2 < 1000000000 ∨ time.2 < 2000000000 ∧ time.1 % 60 = 59 := by
  unfold timeOfDay at h
  by_cases leap : second = 60
  · rw [if_pos leap] at h
    dsimp only at h
    split at h
    · cases h
      right
      omega
    · cases h
  · rw [if_neg leap] at h
    dsimp only at h
    split at h
    · cases h
      exact .inl fine
    · cases h

/-- Whatever is read is a second of a day with its fraction, or a leap second: an offset moves an
instant by whole minutes. -/
theorem timely_of_parse {s : String} {instant : Instant} (h : parse s = .ok instant) :
    instant.Timely := by
  unfold parse at h
  cases fixed : civil (Utf8.encode s) with
  | error error =>
    rw [fixed] at h
    cases h
  | ok pair =>
    obtain ⟨⟨date, hour, minute, second⟩, rest⟩ := pair
    rw [fixed] at h
    cases fine : fraction rest with
    | error error =>
      simp only [bind, Except.bind, fine] at h
      cases h
    | ok pair =>
      obtain ⟨nano, rest⟩ := pair
      cases time : timeOfDay hour minute second nano with
      | error error =>
        simp only [bind, Except.bind, fine, time] at h
        cases h
      | ok pair =>
        obtain ⟨clock, nanos⟩ := pair
        cases zone : offset rest with
        | error error =>
          simp only [bind, Except.bind, fine, time, zone] at h
          cases h
        | ok pair =>
          obtain ⟨moved, rest⟩ := pair
          have whole := offset_mod zone
          have spec := timeOfDay_spec time (fraction_lt fine)
          dsimp only at spec
          simp only [bind, Except.bind, fine, time, zone] at h
          split at h
          · cases h
          split at h
          · cases h
          · cases h
            unfold ofLocal
            constructor
            · dsimp only
              omega
            · dsimp only
              omega

/-! ## Years that are not read -/

theorem civil_of_no_digit {byte : UInt8} {error : InstantError} (h : digit byte = .error error)
    (rest : Bytes) : ∃ reason, civil (byte :: rest) = .error reason := by
  unfold civil
  split
  · next same =>
    obtain ⟨rfl, -⟩ := List.cons.inj same
    exact ⟨error, by rw [twoDigits, h]; rfl⟩
  · exact ⟨.tooShort, rfl⟩

/-- The text of an instant whose year is signed is refused. -/
theorem parse_text_of_signed {instant : Instant} (signed : ¬ instant.HasPlainYear) :
    ∃ reason, parse instant.text = .error reason := by
  have sign : ∃ byte rest, Utf8.encode instant.text = byte :: rest ∧
      digit byte = .error .invalid := by
    rw [HasPlainYear] at signed
    rw [text, Utf8.encode_ofList]
    generalize Date.ofDayNumber instant.day = date at signed
    rw [yearText, if_neg (by simpa using signed)]
    by_cases early : date.year < 0
    · rw [if_pos early]
      exact ⟨0x2D, _, rfl, rfl⟩
    · rw [if_neg early]
      exact ⟨0x2B, _, rfl, rfl⟩
  obtain ⟨byte, rest, spelled, no_digit⟩ := sign
  obtain ⟨reason, refused⟩ := civil_of_no_digit no_digit rest
  exact ⟨reason, by rw [parse, spelled, refused]; rfl⟩

end Instant

end Phrasebook.Calendar
