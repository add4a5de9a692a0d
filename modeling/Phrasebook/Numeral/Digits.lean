/-!
# Decimal Digits

Integers are written right to left into a field of twenty cells, the width of the longest decimal
text of a 64-bit word, and the used tail of the field is the result. `decimal` is the same text
said directly, by recursion on the quotient by ten.
-/

namespace Phrasebook.Numeral

def digitChar (d : Nat) : Char := Char.ofNat ('0'.toNat + d % 10)

/-- Digits of a number in front of the characters already written. -/
def decimalOnto (n : Nat) (rest : List Char) : List Char :=
  if n < 10 then digitChar n :: rest else decimalOnto (n / 10) (digitChar n :: rest)

/-- The canonical decimal text of a natural number. -/
def decimal (n : Nat) : String := String.ofList (decimalOnto n [])

/-- The canonical decimal text of an integer: a minus sign exactly before negatives. -/
def signedDecimal (n : Int) : String :=
  match n with
  | .ofNat n => decimal n
  | .negSucc n => String.ofList ('-' :: decimalOnto (n + 1) [])

def decimalLength (n : Nat) : Nat := if n < 10 then 1 else decimalLength (n / 10) + 1

/-- A row of twenty cells into which one integer is written. -/
structure DigitField where
  cells : Array Char
  size_eq : cells.size = 20

namespace DigitField

def width : Nat := 20

def blank : DigitField := ⟨Array.replicate width '\x00', by simp [width]⟩

def write (field : DigitField) (position : Nat) (c : Char) : DigitField :=
  ⟨field.cells.setIfInBounds position c, by simp [field.size_eq]⟩

/-- Writes the digits of a number so that the last one stands just before `stop`, and returns the
position of the first. -/
def writeDigits (field : DigitField) (stop n : Nat) : DigitField × Nat :=
  match stop with
  | 0 => (field, 0)
  | position + 1 =>
    let written := field.write position (digitChar n)
    if n < 10 then (written, position) else written.writeDigits position (n / 10)

/-- The text from a position to the end of the field. -/
def tail (field : DigitField) (position : Nat) : String :=
  String.ofList (field.cells.toList.drop position)

/-- Writes an unsigned word; whatever the field held before does not show. -/
def formatUnsigned (field : DigitField) (value : UInt64) : String :=
  let (written, position) := field.writeDigits width value.toNat
  written.tail position

/-- Writes a signed word, with a minus sign directly before the digits of a negative one. -/
def formatSigned (field : DigitField) (value : Int64) : String :=
  let (written, position) := field.writeDigits width value.toInt.natAbs
  if value.toInt < 0 then (written.write (position - 1) '-').tail (position - 1)
  else written.tail position

end DigitField

/-- The value of a hexadecimal digit of either case. -/
def hexValue (c : Char) : Option Nat :=
  if '0' ≤ c && c ≤ '9' then some (c.toNat - '0'.toNat)
  else if 'a' ≤ c && c ≤ 'f' then some (c.toNat - 'a'.toNat + 10)
  else if 'A' ≤ c && c ≤ 'F' then some (c.toNat - 'A'.toNat + 10)
  else none

end Phrasebook.Numeral
