import Phrasebook.Numeral.Digits
import Phrasebook.Template.Fault
import Phrasebook.Template.Phrase

/-!
# Template Tokens

A template text is a sequence of tokens: plain characters, escapes behind a backslash, doubled
braces, and placeholder names in braces. `scanText` reads the tokens of a text, and `joinTokens`
turns them into the pieces of a phrase, in which every maximal run of characters is one literal.
A text in which braces are ordinary characters is read by the same scanner with braces switched
off.
-/

namespace Phrasebook

/-- How braces are read. -/
inductive Reading where
  /-- Braces mark placeholders. -/
  | template
  /-- Braces are ordinary characters. -/
  | escapesOnly
deriving DecidableEq, Repr

inductive Token where
  /-- A character that stands for itself. -/
  | plain (c : Char)
  /-- A backslash with the characters after it, and what they stand for. -/
  | escape (spelling : List Char) (meaning : Char)
  /-- A brace written twice. -/
  | doubled (brace : Char)
  /-- A name in braces. -/
  | placeholder (name : List Char)
deriving DecidableEq, Repr

def controlEscape? : Char → Option Char
  | 't' => some '\t'
  | 'r' => some '\r'
  | 'n' => some '\n'
  | '0' => some '\x00'
  | _ => none

def hexNumber? (digits : List Char) : Option Nat :=
  digits.foldlM (fun n c => (Numeral.hexValue c).map (16 * n + ·)) 0

/-- The character with the given code point, unless it is a surrogate or out of range. -/
def scalar? (n : Nat) : Option Char := if n.isValidChar then some (Char.ofNat n) else none

/-- The fault of an escape by code point whose four digits are wrong. -/
def codePointFault (a b c d : Char) : FaultKind :=
  match hexNumber? [a, b, c, d] with
  | some n => .invalidCodePoint n
  | none => .invalidUnicodeEscape

mutual

/-- Reads the tokens of a text, outside a placeholder; `offset` counts the characters read so
far. -/
def scanText (reading : Reading) (offset : Nat) : List Char → Except Fault (List Token)
  | [] => .ok []
  | '\\' :: [] => .error ⟨offset, .danglingEscape⟩
  | '\\' :: 'u' :: a :: b :: c :: d :: rest =>
    match (hexNumber? [a, b, c, d]).bind scalar? with
    | some meaning =>
      (scanText reading (offset + 6) rest).map (.escape ['u', a, b, c, d] meaning :: ·)
    | none => .error ⟨offset, codePointFault a b c d⟩
  | '\\' :: 'u' :: _ => .error ⟨offset, .invalidUnicodeEscape⟩
  | '\\' :: letter :: rest =>
    match controlEscape? letter with
    | some meaning => (scanText reading (offset + 2) rest).map (.escape [letter] meaning :: ·)
    | none => .error ⟨offset, .unsupportedEscape letter⟩
  | '{' :: rest =>
    match reading, rest with
    | .escapesOnly, rest => (scanText .escapesOnly (offset + 1) rest).map (.plain '{' :: ·)
    | .template, '{' :: rest => (scanText .template (offset + 2) rest).map (.doubled '{' :: ·)
    | .template, rest => scanName offset [] (offset + 1) rest
  | '}' :: rest =>
    match reading, rest with
    | .escapesOnly, rest => (scanText .escapesOnly (offset + 1) rest).map (.plain '}' :: ·)
    | .template, '}' :: rest => (scanText .template (offset + 2) rest).map (.doubled '}' :: ·)
    | .template, _ => .error ⟨offset, .unmatchedClose⟩
  | c :: rest => (scanText reading (offset + 1) rest).map (.plain c :: ·)

/-- Reads the rest of a placeholder that was opened at `start`, with the characters of its name so
far in reverse, and then the tokens after it. -/
def scanName (start : Nat) (name : List Char) (offset : Nat) : List Char → Except Fault (List Token)
  | [] => .error ⟨start, .unterminatedPlaceholder⟩
  | '{' :: _ => .error ⟨offset, .nestedPlaceholder⟩
  | '}' :: '}' :: _ => .error ⟨offset, .escapedCloseInPlaceholder⟩
  | '}' :: rest =>
    if name.isEmpty then .error ⟨start, .emptyPlaceholder⟩
    else (scanText .template (offset + 1) rest).map (.placeholder name.reverse :: ·)
  | c :: rest => scanName start (c :: name) (offset + 1) rest

end

/-- A literal of the given characters, in front of pieces that do not start with a literal. -/
def Piece.literalOnto (run : List Char) (pieces : List Piece) : List Piece :=
  if run.isEmpty then pieces else .literal (String.ofList run) :: pieces

/-- The pieces that tokens stand for, after a run of literal characters, given in reverse. -/
def joinTokens (run : List Char) : List Token → List Piece
  | [] => Piece.literalOnto run.reverse []
  | .plain c :: rest => joinTokens (c :: run) rest
  | .escape _ c :: rest => joinTokens (c :: run) rest
  | .doubled c :: rest => joinTokens (c :: run) rest
  | .placeholder name :: rest =>
    Piece.literalOnto run.reverse (.placeholder (String.ofList name) :: joinTokens [] rest)

/-- Reads a template text as a phrase of the given name. -/
def Phrase.read (reading : Reading) (name text : String) : Except TemplateError Phrase :=
  match scanText reading 0 text.toList with
  | .ok tokens => .ok (.defined name (joinTokens [] tokens))
  | .error fault => .error (fault.within name)

/-- Placeholder names that callers may not use where placeholders are bound to fields. -/
def reservedNames : List String := ["this"]

/-- The first placeholder with a reserved name, placed at the sum of the lengths of the pieces
before it, from `offset` on. -/
def reservedFault? (offset : Nat) : List Piece → Option Fault
  | [] => none
  | .literal text :: rest => reservedFault? (offset + text.length) rest
  | .placeholder name :: rest =>
    if reservedNames.contains name then some ⟨offset, .reservedPlaceholder name⟩
    else reservedFault? (offset + name.length + 2) rest

/-- Refuses a phrase with a reserved placeholder name. -/
def Phrase.checkReserved (phrase : Phrase) : Except TemplateError Unit :=
  match reservedFault? 0 phrase.pieces with
  | some fault => .error (fault.within phrase.name)
  | none => .ok ()

end Phrasebook
