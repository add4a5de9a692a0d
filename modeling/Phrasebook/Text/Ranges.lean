/-!
# Code Point Ranges

Classes of characters are given as closed ranges of code points, ascending and apart, so that a search
can stop at the first range that begins too late.
-/

namespace Phrasebook.Text

/-- Whether one of the closed ranges holds the code point. -/
def inRanges : List (Nat × Nat) → Nat → Bool
  | [], _ => false
  | (first, last) :: rest, code => first ≤ code && (code ≤ last || inRanges rest code)

end Phrasebook.Text
