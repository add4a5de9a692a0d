import Phrasebook.Calendar.Date
import Phrasebook.Numeral.Digits
import Phrasebook.Text.Utf8

/-!
# Instants

Points of universal time to the nanosecond, and their texts as RFC 3339 has them. A leap second is
the second before it with a whole second more in its nanoseconds. `Instant.parse` accepts any offset
and reports the first reason to refuse in a fixed order; `Instant.text` writes universal time with as
many thirds of a fraction as are needed.
-/

namespace Phrasebook.Calendar

open Phrasebook.Text

structure Instant where
  /-- The number of its day. -/
  day : Int
  /-- The second of the day. -/
  second : Nat
  /-- Nanoseconds after the second, a thousand million or more within a leap second. -/
  nano : Nat
deriving DecidableEq, Repr

inductive InstantError where
  | tooShort
  | invalid
  | outOfRange
  | trailing
deriving DecidableEq, Repr

def InstantError.message : InstantError → String
  | tooShort => "premature end of input"
  | invalid => "input contains invalid characters"
  | outOfRange => "input is out of range"
  | trailing => "trailing input"

namespace Instant

def digit (byte : UInt8) : Except InstantError Nat :=
  if 0x30 ≤ byte && byte ≤ 0x39 then .ok (byte.toNat - 0x30) else .error .invalid

def twoDigits (tens ones : UInt8) : Except InstantError Nat := do
  let t ← digit tens
  let o ← digit ones
  return 10 * t + o

/-- Insists that a byte is one of the given ASCII characters. -/
def demand (allowed : List Char) (byte : UInt8) : Except InstantError Unit :=
  if allowed.any fun c => c.toNat = byte.toNat then .ok () else .error .invalid

/-- The date and the time of day, in hours, minutes and seconds, of the nineteen bytes that every
text starts with, and the bytes after them. The date is checked as soon as it was read. -/
def civil : Bytes → Except InstantError ((Date × Nat × Nat × Nat) × Bytes)
  | y1 :: y2 :: y3 :: y4 :: h1 :: m1 :: m2 :: h2 :: d1 :: d2 :: t :: hh1 :: hh2 :: c1 :: mm1 ::
      mm2 :: c2 :: ss1 :: ss2 :: rest => do
    let century ← twoDigits y1 y2
    let year ← twoDigits y3 y4
    demand ['-'] h1
    let month ← twoDigits m1 m2
    demand ['-'] h2
    let day ← twoDigits d1 d2
    let date : Date := ⟨100 * century + year, month, day⟩
    if !date.exists? then throw .outOfRange
    demand ['T', 't', ' '] t
    let hour ← twoDigits hh1 hh2
    demand [':'] c1
    let minute ← twoDigits mm1 mm2
    demand [':'] c2
    let second ← twoDigits ss1 ss2
    return ((date, hour, minute, second), rest)
  | _ => .error .tooShort

/-- Reads digits of a fraction as nanoseconds, the first of them worth `unit`; digits past the
ninth are worth nothing. -/
def fractionDigits (unit : Nat) : Bytes → Nat × Bytes
  | [] => (0, [])
  | byte :: rest =>
    match digit byte with
    | .ok d =>
      let (nanos, rest) := fractionDigits (unit / 10) rest
      (d * unit + nanos, rest)
    | .error _ => (0, byte :: rest)

/-- An optional fraction of a second in nanoseconds, and the bytes after it. -/
def fraction : Bytes → Except InstantError (Nat × Bytes)
  | 0x2E :: [] => .error .tooShort
  | 0x2E :: byte :: rest => do
    let _ ← digit byte
    return fractionDigits 100000000 (byte :: rest)
  | rest => .ok (0, rest)

/-- The seconds of a time of day and nanoseconds of its last second. -/
def timeOfDay (hour minute second nano : Nat) : Except InstantError (Nat × Nat) :=
  let (second, nano) := if second = 60 then (59, nano + 1000000000) else (second, nano)
  if hour < 24 && minute < 60 && second < 60 then .ok (3600 * hour + 60 * minute + second, nano)
  else .error .outOfRange

/-- The hours and minutes of an offset in seconds, and the bytes after them. -/
def offsetDigits : Bytes → Except InstantError (Int × Bytes)
  | h1 :: h2 :: rest => do
    let hours ← twoDigits h1 h2
    match rest with
    | [] => throw .tooShort
    | colon :: rest =>
      demand [':'] colon
      match rest with
      | m1 :: m2 :: rest =>
        let minutes ← twoDigits m1 m2
        if 60 ≤ minutes then throw .outOfRange
        return (3600 * hours + 60 * minutes, rest)
      | _ => throw .tooShort
  | _ => .error .tooShort

/-- An offset from universal time in seconds, and the bytes after it. The minus sign may be the
hyphen or the sign proper, whose encoding is three bytes. -/
def offset : Bytes → Except InstantError (Int × Bytes)
  | [] => .error .tooShort
  | 0xE2 :: 0x88 :: 0x92 :: rest => (offsetDigits rest).map fun (seconds, rest) => (-seconds, rest)
  | byte :: rest =>
    if byte = 0x5A || byte = 0x7A then .ok (0, rest)
    else if byte = 0x2B then offsetDigits rest
    else if byte = 0x2D then (offsetDigits rest).map fun (seconds, rest) => (-seconds, rest)
    else .error .invalid

/-- The point of time at a local second of a day, with the given offset from universal time. -/
def ofLocal (date : Date) (second nano : Nat) (offset : Int) : Instant :=
  let seconds := date.dayNumber * 86400 + second - offset
  ⟨seconds / 86400, (seconds % 86400).toNat, nano⟩

/-- The point of time so many nanoseconds after the first of January 1970. -/
def ofNanoseconds (n : Int) : Instant :=
  let seconds := n / 1000000000
  ⟨seconds / 86400, (seconds % 86400).toNat, (n % 1000000000).toNat⟩

def parse (text : String) : Except InstantError Instant := do
  let ((date, hour, minute, second), rest) ← civil (Utf8.encode text)
  let (nano, rest) ← fraction rest
  let (second, nano) ← timeOfDay hour minute second nano
  let (offset, rest) ← offset rest
  if !rest.isEmpty then throw .trailing
  if 86400 ≤ offset.natAbs then throw .outOfRange
  return ofLocal date second nano offset

/-- A number in at least `width` digits. -/
def atLeast (width n : Nat) : List Char :=
  let digits := Numeral.decimalOnto n []
  List.replicate (width - digits.length) '0' ++ digits

/-- A year in four digits, with a sign and as many as it takes outside of those. -/
def yearText (year : Int) : List Char :=
  if 0 ≤ year && year ≤ 9999 then atLeast 4 year.toNat
  else (if year < 0 then '-' else '+') :: atLeast 4 year.natAbs

/-- Nanoseconds below a second as a fraction of none, three, six or nine digits. -/
def fractionText (nano : Nat) : List Char :=
  if nano = 0 then []
  else if nano % 1000000 = 0 then '.' :: atLeast 3 (nano / 1000000)
  else if nano % 1000 = 0 then '.' :: atLeast 6 (nano / 1000)
  else '.' :: atLeast 9 nano

def text (i : Instant) : String :=
  let date := Date.ofDayNumber i.day
  let (leap, nano) := if i.nano < 1000000000 then (0, i.nano) else (1, i.nano - 1000000000)
  String.ofList <|
    yearText date.year ++ '-' :: atLeast 2 date.month ++ '-' :: atLeast 2 date.day ++
    'T' :: atLeast 2 (i.second / 3600) ++ ':' :: atLeast 2 (i.second / 60 % 60) ++
    ':' :: atLeast 2 (i.second % 60 + leap) ++ fractionText nano ++ ['Z']

end Instant

end Phrasebook.Calendar
