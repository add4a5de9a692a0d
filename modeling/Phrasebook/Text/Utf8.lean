/-!
# UTF-8

Bytes are read one at a time by a machine whose only memory is the character it is in the middle
of. Each unit that it reports is a character, or a maximal run of bytes that begins a character and
cannot be completed, or such a run cut off by the end of the input. `decode` insists on characters,
and `lossy` puts the replacement character in the place of every other unit.
-/

namespace Phrasebook.Text

abbrev Bytes := List UInt8

/-- A stretch of bytes as UTF-8 sees it. -/
inductive Utf8Unit where
  | char (c : Char)
  /-- Bytes, `length` of them, that no further bytes could complete. -/
  | malformed (length : Nat)
  /-- Bytes that the end of the input left incomplete. -/
  | cut (length : Nat)
deriving DecidableEq, Repr

/-- A character that was begun and not ended. -/
structure PartialChar where
  /-- The bits read so far. -/
  bits : Nat
  /-- The number of bytes read so far. -/
  seen : Nat
  /-- The number of bytes after the next one. -/
  owed : Nat
  /-- The least and the greatest value of the next byte. -/
  low : Nat
  high : Nat
deriving DecidableEq, Repr

namespace Utf8

/-- What a byte means at the start of a character. -/
inductive Lead where
  | ascii (c : Char)
  | opens (character : PartialChar)
  | stray
deriving DecidableEq, Repr

/-- Reads a byte at the start of a character. The narrowed ranges of the second byte leave out
overlong forms, surrogates and numbers past the last code point. -/
def lead (byte : UInt8) : Lead :=
  let b := byte.toNat
  if b < 0x80 then .ascii (Char.ofNat b)
  else if b < 0xC2 then .stray
  else if b < 0xE0 then .opens ⟨b - 0xC0, 1, 0, 0x80, 0xBF⟩
  else if b = 0xE0 then .opens ⟨0, 1, 1, 0xA0, 0xBF⟩
  else if b = 0xED then .opens ⟨b - 0xE0, 1, 1, 0x80, 0x9F⟩
  else if b < 0xF0 then .opens ⟨b - 0xE0, 1, 1, 0x80, 0xBF⟩
  else if b = 0xF0 then .opens ⟨0, 1, 2, 0x90, 0xBF⟩
  else if b < 0xF4 then .opens ⟨b - 0xF0, 1, 2, 0x80, 0xBF⟩
  else if b = 0xF4 then .opens ⟨4, 1, 2, 0x80, 0x8F⟩
  else .stray

/-- The units of bytes, given the character that is under way. -/
def units : Option PartialChar → Bytes → List Utf8Unit
  | none, [] => []
  | some p, [] => [.cut p.seen]
  | none, byte :: rest =>
    match lead byte with
    | .ascii c => .char c :: units none rest
    | .opens p => units (some p) rest
    | .stray => .malformed 1 :: units none rest
  | some p, byte :: rest =>
    let b := byte.toNat
    if p.low ≤ b && b ≤ p.high then
      let bits := 64 * p.bits + (b - 0x80)
      match p.owed with
      | 0 => .char (Char.ofNat bits) :: units none rest
      | owed + 1 => units (some ⟨bits, p.seen + 1, owed, 0x80, 0xBF⟩) rest
    else
      .malformed p.seen :: match lead byte with
        | .ascii c => .char c :: units none rest
        | .opens p => units (some p) rest
        | .stray => .malformed 1 :: units none rest

/-- Why bytes are not UTF-8; positions count bytes. -/
inductive Fault where
  | malformed (length position : Nat)
  | cut (position : Nat)
deriving DecidableEq, Repr

/-- The characters of units that start at a position, if all of them are characters. -/
def chars (position : Nat) : List Utf8Unit → Except Fault (List Char)
  | [] => .ok []
  | .char c :: rest => (chars (position + c.utf8Size) rest).map (c :: ·)
  | .malformed length :: _ => .error (.malformed length position)
  | .cut _ :: _ => .error (.cut position)

def decode (bytes : Bytes) : Except Fault String :=
  (chars 0 (units none bytes)).map String.ofList

def shown : Utf8Unit → Char
  | .char c => c
  | .malformed _ => '\uFFFD'
  | .cut _ => '\uFFFD'

/-- The text of bytes, with one replacement character for each unit that is not a character. -/
def lossy (bytes : Bytes) : String := String.ofList ((units none bytes).map shown)

def encode (s : String) : Bytes := s.toList.flatMap String.utf8EncodeChar

end Utf8

end Phrasebook.Text
