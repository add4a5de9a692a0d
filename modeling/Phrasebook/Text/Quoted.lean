import Phrasebook.Text.Combining
import Phrasebook.Text.Ranges
import Phrasebook.Text.Unassigned

/-!
# Quoted Text

The form in which a diagnostic shows a text: between double quotes, with quotes, backslashes and
the usual control characters behind a backslash, and every other character that would not show on
its own as `\u` with its code point in braces.
-/

namespace Phrasebook.Text

/-- Closed ranges of the assigned code points that leave no mark on a page, as Unicode 17 has them,
ascending and apart: controls, format characters, separators other than the plain space, and private
use. -/
def invisibleRanges : List (Nat × Nat) :=
  [(0x0, 0x1F), (0x7F, 0xA0), (0xAD, 0xAD), (0x600, 0x605), (0x61C, 0x61C), (0x6DD, 0x6DD),
    (0x70F, 0x70F), (0x890, 0x891), (0x8E2, 0x8E2), (0x1680, 0x1680), (0x180E, 0x180E),
    (0x2000, 0x200F), (0x2028, 0x202F), (0x205F, 0x2064), (0x2066, 0x206F), (0x3000, 0x3000),
    (0xE000, 0xF8FF), (0xFEFF, 0xFEFF), (0xFFF9, 0xFFFB), (0x110BD, 0x110BD), (0x110CD, 0x110CD),
    (0x13430, 0x1343F), (0x1BCA0, 0x1BCA3), (0x1D173, 0x1D17A), (0xE0001, 0xE0001),
    (0xE0020, 0xE007F), (0xF0000, 0xFFFFD), (0x100000, 0x10FFFD)]

/-- Closed ranges of the letters that only fill a place in a Hangul syllable and are not to be seen,
ascending and apart. -/
def fillerRanges : List (Nat × Nat) := [(0x115F, 0x1160), (0x3164, 0x3164), (0xFFA0, 0xFFA0)]

/-- The halfwidth sound marks. They extend the character before them, but in a cell of their own. -/
def soundMarkRanges : List (Nat × Nat) := [(0xFF9E, 0xFF9F)]

/-- Whether a character would show if it stood on its own. -/
def isShown (c : Char) : Bool :=
  (' ' ≤ c && c ≤ '~') ||
    (!inRanges invisibleRanges c.toNat && !inRanges fillerRanges c.toNat &&
      !inRanges unassignedRanges c.toNat &&
      (!inRanges extendingRanges c.toNat || inRanges soundMarkRanges c.toNat))

def hexDigits (n : Nat) : List Char := Nat.toDigits 16 n

/-- One character as it stands between the quotes. -/
def quoteChar (c : Char) : List Char :=
  match c with
  | '\x00' => ['\\', '0']
  | '\t' => ['\\', 't']
  | '\r' => ['\\', 'r']
  | '\n' => ['\\', 'n']
  | '"' => ['\\', '"']
  | '\\' => ['\\', '\\']
  | c => if isShown c then [c] else ['\\', 'u', '{'] ++ hexDigits c.toNat ++ ['}']

def quoted (s : String) : String :=
  String.ofList ('"' :: (s.toList.flatMap quoteChar ++ ['"']))

end Phrasebook.Text
