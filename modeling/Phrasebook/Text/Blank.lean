import Phrasebook.Text.Ranges

/-!
# Blank Characters

White space as Unicode's property `White_Space` lists it: twenty-five code points in ten ranges.
Keys, comments and settings are trimmed by this property; markup has a narrower notion of its own.
-/

namespace Phrasebook.Text

/-- Closed ranges of the code points with the property `White_Space`, ascending and apart. -/
def blankRanges : List (Nat × Nat) :=
  [(0x09, 0x0D), (0x20, 0x20), (0x85, 0x85), (0xA0, 0xA0), (0x1680, 0x1680), (0x2000, 0x200A),
    (0x2028, 0x2029), (0x202F, 0x202F), (0x205F, 0x205F), (0x3000, 0x3000)]

def isBlank (c : Char) : Bool := inRanges blankRanges c.toNat

/-- Whether a text holds nothing but white space; the empty text does. -/
def isBlankText (s : String) : Bool := s.toList.all isBlank

/-- A list of characters without the white space at its two ends. -/
def trimChars (cs : List Char) : List Char :=
  ((cs.dropWhile isBlank).reverse.dropWhile isBlank).reverse

def trim (s : String) : String := String.ofList (trimChars s.toList)

end Phrasebook.Text
