import Phrasebook.Numeral.Digits

/-!
# Reading Decimals

Digits with a point among them, read as the nearest double-precision value. Numbers too large for
any are read as infinite. The value is worked out in natural numbers, in units of the least positive
one: the patterns of magnitudes count upwards as the magnitudes do, and from one binade to the next
the gap between two of them doubles.
-/

namespace Phrasebook.Numeral

def digitsValue (digits : List Char) : Nat :=
  digits.foldl (fun n c => 10 * n + (c.toNat - '0'.toNat)) 0

/-- A quotient rounded to the nearest natural number, and to the even one of two equally near. -/
def roundQuotient (a b : Nat) : Nat :=
  let below := a / b
  let twice := 2 * (a % b)
  if twice < b || (twice == b && below % 2 == 0) then below else below + 1

/-- The pattern of the infinite magnitude, above those of all finite ones. -/
def infinitePattern : Nat := 0x7FF0000000000000

/-- The binary places behind the point that doubles reach: the least positive one is `2 ^ -1074`. -/
@[irreducible]
def lastPlace : Nat := 1074

/-- The pattern of the double-precision magnitude nearest to `a / b`. Each binade has `2 ^ 52` of
them. -/
def nearestPattern (a b : Nat) : Nat :=
  let units := a * Nat.pow 2 lastPlace
  let shift := Nat.log2 (units / b) - 52
  min (shift * Nat.pow 2 52 + roundQuotient units (b * Nat.pow 2 shift)) infinitePattern

/-- The pattern of the magnitude nearest to `digits * 10 ^ exponent`. Exponents that leave no double
are not worked out. -/
def nearestMagnitude (digits : Nat) (exponent : Int) : Nat :=
  if digits = 0 then 0
  else
    let leading := decimalLength digits + exponent
    if 400 < leading then infinitePattern
    else if leading < -400 then 0
    else match exponent with
      | .ofNat n => nearestPattern (digits * Nat.pow 10 n) 1
      | .negSucc n => nearestPattern digits (Nat.pow 10 (n + 1))

/-- The bits of the double-precision value nearest to `digits * 10 ^ exponent`. -/
def nearestDouble (negative : Bool) (digits : Nat) (exponent : Int) : UInt64 :=
  let magnitude := nearestMagnitude digits exponent
  .ofNat (if negative then Nat.pow 2 63 + magnitude else magnitude)

/-- The bits of the double-precision value nearest to digits before and after a point. -/
def readDecimal (negative : Bool) (whole fraction : List Char) : UInt64 :=
  nearestDouble negative (digitsValue (whole ++ fraction)) (-fraction.length)

end Phrasebook.Numeral
