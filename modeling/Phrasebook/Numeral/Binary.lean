/-!
# Binary Floating-Point Values

A bit pattern of 64 or 32 bits denotes a signed `mantissa * 2 ^ exponent`, an infinity, or no
number at all. Everything that is printed about such a value is computed from this exact reading.
-/

namespace Phrasebook.Numeral

/-- A finite value. -/
structure Binary where
  negative : Bool
  mantissa : Nat
  exponent : Int
  /-- Whether the gap to the next smaller magnitude is half the gap to the next larger one. -/
  narrowBelow : Bool
deriving DecidableEq, Repr

/-- What a bit pattern denotes. -/
inductive FloatValue where
  | finite (value : Binary)
  | infinite (negative : Bool)
  | notANumber
deriving DecidableEq, Repr

namespace FloatValue

/-- Reads a pattern of one sign bit, `exponentBits` bits of exponent and `fractionBits` bits of
fraction. -/
def ofPattern (exponentBits fractionBits pattern : Nat) : FloatValue :=
  let hidden := Nat.pow 2 fractionBits
  let exponents := Nat.pow 2 exponentBits
  let fraction := pattern % hidden
  let exponent := pattern / hidden % exponents
  let negative := pattern / hidden / exponents % 2 == 1
  let bias : Int := (exponents / 2 : Nat) - 1 + fractionBits
  if exponent == exponents - 1 then
    if fraction == 0 then .infinite negative else .notANumber
  else if exponent == 0 then .finite ⟨negative, fraction, 1 - bias, false⟩
  else
    .finite ⟨negative, hidden + fraction, exponent - bias, fraction == 0 && exponent > 1⟩

def ofBits64 (bits : UInt64) : FloatValue := ofPattern 11 52 bits.toNat

def ofBits32 (bits : UInt32) : FloatValue := ofPattern 8 23 bits.toNat

end FloatValue

/-- The magnitude as a natural number, when it is one. -/
def Binary.naturalMagnitude? (value : Binary) : Option Nat :=
  match value.exponent with
  | .ofNat shift => some (value.mantissa * Nat.pow 2 shift)
  | .negSucc shift =>
    let divisor := Nat.pow 2 (shift + 1)
    if value.mantissa % divisor == 0 then some (value.mantissa / divisor) else none

/-- The value as an integer, when it is one that a signed 64-bit word holds. -/
def FloatValue.integral? : FloatValue → Option Int
  | .finite value => do
    let magnitude ← value.naturalMagnitude?
    let n : Int := if value.negative then -magnitude else magnitude
    let bound : Int := Nat.pow 2 63
    if -bound ≤ n && n < bound then some n else none
  | .infinite _ => none
  | .notANumber => none

end Phrasebook.Numeral
