import Phrasebook.Numeral.Binary
import Phrasebook.Numeral.Digits

/-!
# Shortest Decimal Text

The text of a floating-point value is the decimal with the fewest digits among those that round
to the value, the nearest of them, the larger of two equally near, and it is always written
positionally.

The reals that round to `m * 2 ^ q` form an interval around it whose ends lie halfway to its two
neighbours and belong to it exactly when `m` is even. After scaling by a power of ten, the value
and both ends are natural numbers, so every comparison is exact.
-/

namespace Phrasebook.Numeral

/-- The number `digits * 10 ^ exponent`. -/
structure Decimal where
  digits : Nat
  exponent : Int
deriving DecidableEq, Repr

/-- A value and the ends of its rounding interval, in units of `10 ^ (-scale)`. -/
structure RoundingInterval where
  low : Nat
  value : Nat
  high : Nat
  scale : Nat
  /-- Whether the ends round to the value too. -/
  closed : Bool
deriving Repr

namespace RoundingInterval

/-- The rounding interval of a finite magnitude, computed in quarters of its last place. -/
def ofBinary (x : Binary) : RoundingInterval :=
  let twos := (x.exponent - 2).toNat
  let scale := (2 - x.exponent).toNat
  let unit := Nat.pow 2 twos * Nat.pow 5 scale
  { low := (4 * x.mantissa - if x.narrowBelow then 1 else 2) * unit
    value := 4 * x.mantissa * unit
    high := (4 * x.mantissa + 2) * unit
    scale := scale
    closed := x.mantissa % 2 == 0 }

/-- Whether a number in the interval's units rounds to its value. -/
def holds (i : RoundingInterval) (n : Nat) : Bool :=
  (i.low < n || (i.closed && i.low == n)) && (n < i.high || (i.closed && n == i.high))

/-- The better of the value's two neighbours on the grid of multiples of `grid`, if one of them
rounds to the value. -/
def onGrid? (i : RoundingInterval) (grid : Nat) : Option Nat :=
  let below := i.value / grid * grid
  let above := below + grid
  match i.holds below, i.holds above with
  | true, true => if i.value - below < above - i.value then some below else some above
  | true, false => some below
  | false, true => some above
  | false, false => none

/-- The first of the given grids, as exponents of ten, that has a point in the interval. -/
def firstHit? (i : RoundingInterval) : List Nat → Option Decimal
  | [] => none
  | exponent :: rest =>
    match i.onGrid? (Nat.pow 10 exponent) with
    | some n => some ⟨n / Nat.pow 10 exponent, exponent - i.scale⟩
    | none => i.firstHit? rest

/-- The shortest decimal, found on the coarsest grid that has a hit. If none of the first
seventeen has one, the exact value is returned. -/
def shortest (i : RoundingInterval) : Decimal :=
  let leading := decimalLength i.value
  let grids := (List.range 17).filterMap fun n => if n < leading then some (leading - 1 - n) else none
  (i.firstHit? grids).getD ⟨i.value, -i.scale⟩

end RoundingInterval

namespace Decimal

/-- Moves trailing zeros of the digits into the exponent, at most `fuel` of them. -/
def stripZeros : Nat → Decimal → Decimal
  | 0, d => d
  | fuel + 1, d =>
    if d.digits != 0 && d.digits % 10 == 0 then stripZeros fuel ⟨d.digits / 10, d.exponent + 1⟩ else d

/-- Positional notation: no exponent, no needless zero and no needless point. -/
def positional (d : Decimal) : List Char :=
  let digits := decimalOnto d.digits []
  match d.exponent with
  | .ofNat zeros => digits ++ List.replicate zeros '0'
  | .negSucc n =>
    let places := n + 1
    if digits.length ≤ places then
      ['0', '.'] ++ List.replicate (places - digits.length) '0' ++ digits
    else digits.take (digits.length - places) ++ '.' :: digits.drop (digits.length - places)

end Decimal

/-- The magnitude of a finite value in the fewest digits. -/
def Binary.magnitudeText (x : Binary) : List Char :=
  if x.mantissa = 0 then ['0']
  else ((RoundingInterval.ofBinary x).shortest.stripZeros 20).positional

def FloatValue.text : FloatValue → String
  | .notANumber => "NaN"
  | .infinite negative => if negative then "-inf" else "inf"
  | .finite x => String.ofList (if x.negative then '-' :: x.magnitudeText else x.magnitudeText)

end Phrasebook.Numeral
