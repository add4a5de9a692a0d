import Phrasebook.Markup.Problem

/-!
# Character References

`escape` spells the five characters that markup reserves as references, and `resolve` replaces the
references of a text by what they stand for: the five names, and numbers of characters in decimal or
hexadecimal. Reading an escaped text gives the text back.
-/

namespace Phrasebook.Markup

open Phrasebook.Numeral Phrasebook.Text

/-- A character as it stands in texts and attribute values. -/
def escapeChar : Char → List Char
  | '<' => "&lt;".toList
  | '>' => "&gt;".toList
  | '&' => "&amp;".toList
  | '\'' => "&apos;".toList
  | '"' => "&quot;".toList
  | c => [c]

/-- A text without reserved characters. -/
def escape (s : String) : String := String.ofList (s.toList.flatMap escapeChar)

def entity? (name : List Char) : Option Char :=
  if name = ['l', 't'] then some '<'
  else if name = ['g', 't'] then some '>'
  else if name = ['a', 'm', 'p'] then some '&'
  else if name = ['a', 'p', 'o', 's'] then some '\''
  else if name = ['q', 'u', 'o', 't'] then some '"'
  else none

/-- The number that digits denote in a radix up to sixteen, if it fits into 32 bits; the first digit
that is wrong or too much decides. -/
def word32 (radix value : Nat) : List Char → Except NumberFault Nat
  | [] => .ok value
  | c :: rest =>
    match hexValue c with
    | none => .error .digit
    | some d =>
      if radix ≤ d then .error .digit
      else if Nat.pow 2 32 ≤ radix * value + d then .error .tooLarge
      else word32 radix (radix * value + d) rest

def unsigned (radix : Nat) : List Char → Except NumberFault Nat
  | [] => .error .empty
  | c :: rest => if c = '+' || c = '-' then .error .sign else word32 radix 0 (c :: rest)

/-- The character with the number that stands after the number sign. -/
def numbered (digits : List Char) : Except NumberFault Char := do
  let code ← match digits with
    | 'x' :: digits => unsigned 16 digits
    | digits => unsigned 10 digits
  if code = 0 then .error .zero
  else if code.isValidChar then .ok (Char.ofNat code)
  else .error (.noCharacter code)

/-- The character that a reference stands for; `start` and `stop` are the ends of what stands
between its ampersand and its semicolon. -/
def referent (start stop : Nat) : List Char → Except ReferenceFault Char
  | '#' :: digits =>
    match numbered digits with
    | .ok c => .ok c
    | .error fault => .error (.number fault)
  | name =>
    match entity? name with
    | some c => .ok c
    | none => .error (.unknown start stop (String.ofList name))

/-- A reference that was begun: the place of its ampersand, and the characters after it in
reverse. -/
structure OpenReference where
  start : Nat
  held : List Char

/-- Replaces the references of a text, read up to a position; the text after it is given. -/
def resolveFrom (position : Nat) : Option OpenReference → List Char →
    Except ReferenceFault (List Char)
  | none, [] => .ok []
  | some reference, [] => .error (.unended reference.start position)
  | none, c :: rest =>
    if c = '&' then resolveFrom (position + 1) (some ⟨position, []⟩) rest
    else (resolveFrom (position + c.utf8Size) none rest).map (c :: ·)
  | some reference, c :: rest =>
    if c = ';' then
      match referent (reference.start + 1) position reference.held.reverse with
      | .ok meaning => (resolveFrom (position + 1) none rest).map (meaning :: ·)
      | .error fault => .error fault
    else if c = '&' then
      .error (.unended reference.start (position + (String.ofList (c :: rest)).utf8ByteSize))
    else resolveFrom (position + c.utf8Size) (some { reference with held := c :: reference.held }) rest

def resolve (s : String) : Except ReferenceFault String :=
  (resolveFrom 0 none s.toList).map String.ofList

/-- The text that encoded characters with references stand for. -/
def resolveBytes (bytes : Bytes) : Except Problem String :=
  match Utf8.decode bytes with
  | .error fault => .error (.badEncoding fault)
  | .ok s =>
    match resolve s with
    | .error fault => .error (.badReference fault)
    | .ok s => .ok s

end Phrasebook.Markup
