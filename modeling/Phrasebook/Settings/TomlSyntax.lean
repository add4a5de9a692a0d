import Phrasebook.Calendar.Date
import Phrasebook.Numeral.Reading
import Phrasebook.Settings.TomlTable
import Phrasebook.Template.Token

/-!
# TOML Documents

Reading TOML, version 1.0: lines that bind a key to a value or open a table, between comments and
blank lines. Each function takes the characters to be read and gives what it read with the characters
behind it, or nothing if the document is not well formed. Values other than texts are checked and
forgotten.
-/

namespace Phrasebook.Settings.Toml

open Phrasebook.Numeral

/-! ## Blanks and comments -/

/-- Whether a character is white space within a line. -/
def isSpace (c : Char) : Bool := c = ' ' || c = '\t'

/-- Whether a character may stand in a comment or, quotes and backslashes aside, in a text. -/
def isPrintable (c : Char) : Bool := c = '\t' || (' ' ≤ c && c ≠ '\x7f')

def skipSpaces (cs : List Char) : List Char := cs.dropWhile isSpace

def newline? : List Char → Option (List Char)
  | '\n' :: rest => some rest
  | '\r' :: '\n' :: rest => some rest
  | _ => none

/-- The characters behind what may follow on a line: white space, a comment and the line's end. -/
def endLine (cs : List Char) : Option (List Char) :=
  let cs := match skipSpaces cs with
    | '#' :: comment => comment.dropWhile isPrintable
    | cs => cs
  if cs.isEmpty then some [] else newline? cs

/-- The characters behind blank lines, white space and comments that end with their line; `comment`
says whether a comment is under way. -/
def skipLines (comment : Bool) : List Char → Option (List Char)
  | [] => if comment then none else some []
  | '\n' :: rest => skipLines false rest
  | '\r' :: '\n' :: rest => skipLines false rest
  | c :: rest =>
    if comment then if isPrintable c then skipLines true rest else none
    else if isSpace c then skipLines false rest
    else if c = '#' then skipLines true rest
    else some (c :: rest)

/-! ## Texts -/

def shortEscape? : Char → Option Char
  | 'b' => some '\x08'
  | 'f' => some '\x0c'
  | 'n' => some '\n'
  | 'r' => some '\r'
  | 't' => some '\t'
  | '"' => some '"'
  | '\\' => some '\\'
  | _ => none

def codePoint? (digits : List Char) : Option Char := (hexNumber? digits).bind scalar?

/-- A text between double quotes, behind the first one; `held` is what was read in reverse. -/
def basicText (held : List Char) : List Char → Option (String × List Char)
  | '"' :: rest => some (String.ofList held.reverse, rest)
  | '\\' :: 'u' :: a :: b :: c :: d :: rest => do
    basicText ((← codePoint? [a, b, c, d]) :: held) rest
  | '\\' :: 'U' :: a :: b :: c :: d :: e :: f :: g :: h :: rest => do
    basicText ((← codePoint? [a, b, c, d, e, f, g, h]) :: held) rest
  | '\\' :: letter :: rest => do
    basicText ((← shortEscape? letter) :: held) rest
  | c :: rest => if isPrintable c && c ≠ '\\' then basicText (c :: held) rest else none
  | [] => none

/-- Whether white space and the end of a line are next. -/
def endsLine (cs : List Char) : Bool := (newline? (skipSpaces cs)).isSome

/-- A text between triple double quotes, behind the first ones. `trimming` says whether white space
and line ends are being passed over, behind a backslash at the end of a line. -/
def basicLines (trimming : Bool) (held : List Char) : List Char → Option (String × List Char)
  | '"' :: '"' :: '"' :: '"' :: '"' :: rest =>
    some (String.ofList ('"' :: '"' :: held).reverse, rest)
  | '"' :: '"' :: '"' :: '"' :: rest => some (String.ofList ('"' :: held).reverse, rest)
  | '"' :: '"' :: '"' :: rest => some (String.ofList held.reverse, rest)
  | '\\' :: 'u' :: a :: b :: c :: d :: rest => do
    basicLines false ((← codePoint? [a, b, c, d]) :: held) rest
  | '\\' :: 'U' :: a :: b :: c :: d :: e :: f :: g :: h :: rest => do
    basicLines false ((← codePoint? [a, b, c, d, e, f, g, h]) :: held) rest
  | '\\' :: letter :: rest =>
    match shortEscape? letter with
    | some c => basicLines false (c :: held) rest
    | none => if endsLine (letter :: rest) then basicLines true held (letter :: rest) else none
  | '\r' :: '\n' :: rest => basicLines trimming (if trimming then held else '\n' :: held) rest
  | '\n' :: rest => basicLines trimming (if trimming then held else '\n' :: held) rest
  | c :: rest =>
    if trimming && isSpace c then basicLines true held rest
    else if isPrintable c && c ≠ '\\' then basicLines false (c :: held) rest
    else none
  | [] => none

/-- A text between single quotes, behind the first one. -/
def literalText (held : List Char) : List Char → Option (String × List Char)
  | '\'' :: rest => some (String.ofList held.reverse, rest)
  | c :: rest => if isPrintable c then literalText (c :: held) rest else none
  | [] => none

/-- A text between triple single quotes, behind the first ones. -/
def literalLines (held : List Char) : List Char → Option (String × List Char)
  | '\'' :: '\'' :: '\'' :: '\'' :: '\'' :: rest =>
    some (String.ofList ('\'' :: '\'' :: held).reverse, rest)
  | '\'' :: '\'' :: '\'' :: '\'' :: rest => some (String.ofList ('\'' :: held).reverse, rest)
  | '\'' :: '\'' :: '\'' :: rest => some (String.ofList held.reverse, rest)
  | '\r' :: '\n' :: rest => literalLines ('\n' :: held) rest
  | '\n' :: rest => literalLines ('\n' :: held) rest
  | c :: rest => if isPrintable c then literalLines (c :: held) rest else none
  | [] => none

/-- The characters behind a line end that directly follows an opening triple quote. -/
def skipNewline (cs : List Char) : List Char := (newline? cs).getD cs

/-! ## Keys -/

/-- Whether a character may stand in a key without quotes. -/
def isKeyChar (c : Char) : Bool := c.isAlphanum || c = '-' || c = '_'

def keyPart : List Char → Option (String × List Char)
  | '"' :: rest => basicText [] rest
  | '\'' :: rest => literalText [] rest
  | cs =>
    let name := cs.takeWhile isKeyChar
    if name.isEmpty then none else some (String.ofList name, cs.dropWhile isKeyChar)

/-- A key of at most `parts` parts, with white space around each. -/
def key : (parts : Nat) → List Char → Option (List String × List Char)
  | 0, _ => none
  | parts + 1, cs => do
    let (name, rest) ← keyPart (skipSpaces cs)
    match skipSpaces rest with
    | '.' :: rest =>
      let (names, rest) ← key parts rest
      return (name :: names, rest)
    | rest => return ([name], rest)

/-- The greatest number of parts of a key, and of values one inside the other. -/
def depthLimit : Nat := 79

/-! ## Numbers, dates and times -/

/-- Digits of a radix, with single underscores between them. -/
def isDigitRun (radix : Nat) : List Char → Bool
  | [] => false
  | [c] => (hexValue c).any (· < radix)
  | c :: '_' :: rest => (hexValue c).any (· < radix) && isDigitRun radix rest
  | c :: rest => (hexValue c).any (· < radix) && isDigitRun radix rest

/-- The number that digits denote, underscores aside. -/
def runValue (radix : Nat) (digits : List Char) : Nat :=
  (digits.filterMap hexValue).foldl (fun n d => radix * n + d) 0

def sign : List Char → Bool × List Char
  | '-' :: rest => (true, rest)
  | '+' :: rest => (false, rest)
  | rest => (false, rest)

/-- Decimal digits without a needless zero in front. -/
def isPlainRun (digits : List Char) : Bool :=
  isDigitRun 10 digits && (digits.length = 1 || digits.head? ≠ some '0')

/-- An integer that a signed 64-bit word holds. -/
def isInteger (token : List Char) : Bool :=
  match token with
  | '0' :: 'x' :: digits => isDigitRun 16 digits && runValue 16 digits < Nat.pow 2 63
  | '0' :: 'o' :: digits => isDigitRun 8 digits && runValue 8 digits < Nat.pow 2 63
  | '0' :: 'b' :: digits => isDigitRun 2 digits && runValue 2 digits < Nat.pow 2 63
  | token =>
    let (negative, digits) := sign token
    isPlainRun digits && runValue 10 digits < Nat.pow 2 63 + (if negative then 1 else 0)

/-- A number with a fraction or an exponent that is not too large, or one of the special values. -/
def isFloat (token : List Char) : Bool :=
  let (negative, unsigned) := sign token
  let mantissa := unsigned.takeWhile fun c => c ≠ 'e' && c ≠ 'E'
  let power := unsigned.dropWhile fun c => c ≠ 'e' && c ≠ 'E'
  let whole := mantissa.takeWhile (· ≠ '.')
  let fraction := mantissa.dropWhile (· ≠ '.')
  let (powerNegative, powerDigits) := sign power.tail
  let fractionDigits := fraction.tail.filter (· ≠ '_')
  let exponent : Int :=
    (if powerNegative then -1 else 1) * (runValue 10 powerDigits : Int) - fractionDigits.length
  unsigned = "inf".toList || unsigned = "nan".toList ||
    ((!power.isEmpty || !fraction.isEmpty) && isPlainRun whole &&
      (fraction.isEmpty || isDigitRun 10 fraction.tail) &&
      (power.isEmpty || isDigitRun 10 powerDigits) &&
      nearestDouble negative (runValue 10 (whole ++ fractionDigits)) exponent ≠ 0x7FF0000000000000)

/-- The number that exactly so many digits denote. -/
def fixed? (width : Nat) (digits : List Char) : Option Nat :=
  if digits.length = width && digits.all Char.isDigit then some (digitsValue digits) else none

def isDate : List Char → Bool
  | y1 :: y2 :: y3 :: y4 :: '-' :: m1 :: m2 :: '-' :: d1 :: d2 :: [] =>
    match fixed? 4 [y1, y2, y3, y4], fixed? 2 [m1, m2], fixed? 2 [d1, d2] with
    | some year, some month, some day => Calendar.Date.exists? ⟨year, month, day⟩
    | _, _, _ => false
  | _ => false

def isHourMinute : List Char → Bool
  | h1 :: h2 :: ':' :: m1 :: m2 :: [] =>
    (fixed? 2 [h1, h2]).any (· < 24) && (fixed? 2 [m1, m2]).any (· < 60)
  | _ => false

def isTime (token : List Char) : Bool :=
  let seconds := token.drop 6
  let fraction := seconds.drop 2
  isHourMinute (token.take 5) && (token.drop 5).head? == some ':' &&
    (fixed? 2 (seconds.take 2)).any (· ≤ 60) &&
    (fraction.isEmpty ||
      (fraction.head? == some '.' && !fraction.tail.isEmpty && fraction.tail.all Char.isDigit))

def isOffset : List Char → Bool
  | [] => true
  | ['Z'] => true
  | ['z'] => true
  | c :: rest => (c = '+' || c = '-') && isHourMinute rest

/-- A date, a time, or both, with or without an offset. -/
def isDateTime (token : List Char) : Bool :=
  let time := token.drop 11
  let isOffsetStart (c : Char) := c = 'Z' || c = 'z' || c = '+' || c = '-'
  isDate token || isTime token ||
    (isDate (token.take 10) &&
      (token.drop 10).head?.any (fun c => c = 'T' || c = 't' || c = ' ') &&
      isTime (time.takeWhile (!isOffsetStart ·)) && isOffset (time.dropWhile (!isOffsetStart ·)))

/-- Whether a character may stand in a value without quotes or brackets. -/
def isTokenChar (c : Char) : Bool :=
  c.isAlphanum || c = '_' || c = '+' || c = '-' || c = '.' || c = ':'

/-- The characters of a value without quotes or brackets. A date and a time may stand apart. -/
def token (cs : List Char) : List Char × List Char :=
  let first := cs.takeWhile isTokenChar
  match cs.dropWhile isTokenChar with
  | ' ' :: c :: rest =>
    if isDate first && c.isDigit then
      (first ++ ' ' :: (c :: rest).takeWhile isTokenChar, (c :: rest).dropWhile isTokenChar)
    else (first, ' ' :: c :: rest)
  | rest => (first, rest)

/-- A value without quotes or brackets. -/
def scalar (cs : List Char) : Option (Node × List Char) :=
  let (word, rest) := token cs
  if word = "true".toList || word = "false".toList || isInteger word || isFloat word ||
      isDateTime word then
    some (.other, rest)
  else none

/-! ## Values and lines -/

mutual

/-- A value, with at most `depth` arrays and inline tables one inside the other. -/
def value : (fuel depth : Nat) → List Char → Option (Node × List Char)
  | 0, _, _ => none
  | fuel + 1, depth, cs =>
    match cs with
    | '"' :: '"' :: '"' :: rest =>
      (basicLines false [] (skipNewline rest)).map fun (s, rest) => (.text s, rest)
    | '"' :: rest => (basicText [] rest).map fun (s, rest) => (.text s, rest)
    | '\'' :: '\'' :: '\'' :: rest =>
      (literalLines [] (skipNewline rest)).map fun (s, rest) => (.text s, rest)
    | '\'' :: rest => (literalText [] rest).map fun (s, rest) => (.text s, rest)
    | '[' :: rest => if depth = 0 then none else arrayItems fuel (depth - 1) rest
    | '{' :: rest =>
      if depth = 0 then none
      else match skipSpaces rest with
        | '}' :: rest => some (.other, rest)
        | rest => inlinePairs fuel (depth - 1) [] rest
    | cs => scalar cs

def arrayItems : (fuel depth : Nat) → List Char → Option (Node × List Char)
  | 0, _, _ => none
  | fuel + 1, depth, cs => do
    match ← skipLines false cs with
    | ']' :: rest => return (.other, rest)
    | cs =>
      let (_, rest) ← value fuel depth cs
      match ← skipLines false rest with
      | ',' :: rest => arrayItems fuel depth rest
      | ']' :: rest => return (.other, rest)
      | _ => none

/-- The bindings of an inline table up to its end. -/
def inlinePairs : (fuel depth : Nat) → Entries → List Char → Option (Node × List Char)
  | 0, _, _, _ => none
  | fuel + 1, depth, entries, cs => do
    let (path, rest) ← key depthLimit cs
    match rest with
    | '=' :: rest =>
      let (node, rest) ← value fuel depth (skipSpaces rest)
      let entries ← entries.insertDotted (path.getLastD "") node true .header path.dropLast
      match skipSpaces rest with
      | ',' :: rest => inlinePairs fuel depth entries rest
      | '}' :: rest => return (.other, rest)
      | _ => none
    | _ => none

end

/-- The bindings so far, and the header that new ones stand under. -/
structure Progress where
  entries : Entries := []
  header : List String := []

/-- A line that starts with a key. -/
def pairLine (progress : Progress) (cs : List Char) : Option (Progress × List Char) := do
  let (path, rest) ← key depthLimit cs
  match rest with
  | '=' :: rest =>
    let rest := skipSpaces rest
    let (node, rest) ← value (2 * rest.length + 1) depthLimit rest
    let rest ← endLine rest
    let entries ← progress.entries.insertUnder path.dropLast (path.getLastD "") node .header
      progress.header
    return ({ progress with entries := entries }, rest)
  | _ => none

/-- A line that opens a table, behind its opening bracket. -/
def headerLine (progress : Progress) (asElement : Bool) (cs : List Char) : Option (Progress × List Char) := do
  let (path, rest) ← key depthLimit cs
  let rest ← match asElement, rest with
    | false, ']' :: rest => endLine rest
    | true, ']' :: ']' :: rest => endLine rest
    | _, _ => none
  let entries ← progress.entries.openTable asElement path
  return (⟨entries, path⟩, rest)

/-- The lines of a document, at most `fuel` of them. -/
def lines : (fuel : Nat) → Progress → List Char → Option Entries
  | 0, progress, cs => if cs.isEmpty then some progress.entries else none
  | fuel + 1, progress, cs =>
    match skipSpaces cs with
    | [] => some progress.entries
    | '#' :: rest => do lines fuel progress (← endLine ('#' :: rest))
    | '\n' :: rest => lines fuel progress rest
    | '\r' :: rest => do lines fuel progress (← newline? ('\r' :: rest))
    | '[' :: '[' :: rest => do
      let (progress, rest) ← headerLine progress true rest
      lines fuel progress rest
    | '[' :: rest => do
      let (progress, rest) ← headerLine progress false rest
      lines fuel progress rest
    | cs => do
      let (progress, rest) ← pairLine progress cs
      lines fuel progress rest

/-- The bindings of a document. A mark of the byte order in front of it does not count. -/
def read (document : String) : Option Entries :=
  let cs := match document.toList with
    | '\uFEFF' :: rest => rest
    | cs => cs
  lines (cs.length + 1) {} cs

end Phrasebook.Settings.Toml
