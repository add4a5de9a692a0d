import Phrasebook.Text.Utf8

/-!
# SHA-256

The digest of a byte sequence: it is padded to whole blocks of sixteen words, each block is expanded
to a schedule of sixty-four words, and every word of the schedule mixes one round into a state of
eight words. `contentHash` is the short form that documents carry, the first eight bytes of the
digest of a text.
-/

namespace Phrasebook.Digest

open Phrasebook.Text

structure Working where
  a : UInt32
  b : UInt32
  c : UInt32
  d : UInt32
  e : UInt32
  f : UInt32
  g : UInt32
  h : UInt32
deriving DecidableEq, Repr

/-- The state before the first block: fractional parts of square roots of the first eight primes. -/
def Working.initial : Working :=
  ⟨0x6a09e667, 0xbb67ae85, 0x3c6ef372, 0xa54ff53a, 0x510e527f, 0x9b05688c, 0x1f83d9ab, 0x5be0cd19⟩

/-- One constant per round: fractional parts of cube roots of the first sixty-four primes. -/
def roundConstants : List UInt32 :=
  [0x428a2f98, 0x71374491, 0xb5c0fbcf, 0xe9b5dba5, 0x3956c25b, 0x59f111f1, 0x923f82a4, 0xab1c5ed5,
    0xd807aa98, 0x12835b01, 0x243185be, 0x550c7dc3, 0x72be5d74, 0x80deb1fe, 0x9bdc06a7, 0xc19bf174,
    0xe49b69c1, 0xefbe4786, 0x0fc19dc6, 0x240ca1cc, 0x2de92c6f, 0x4a7484aa, 0x5cb0a9dc, 0x76f988da,
    0x983e5152, 0xa831c66d, 0xb00327c8, 0xbf597fc7, 0xc6e00bf3, 0xd5a79147, 0x06ca6351, 0x14292967,
    0x27b70a85, 0x2e1b2138, 0x4d2c6dfc, 0x53380d13, 0x650a7354, 0x766a0abb, 0x81c2c92e, 0x92722c85,
    0xa2bfe8a1, 0xa81a664b, 0xc24b8b70, 0xc76c51a3, 0xd192e819, 0xd6990624, 0xf40e3585, 0x106aa070,
    0x19a4c116, 0x1e376c08, 0x2748774c, 0x34b0bcb5, 0x391c0cb3, 0x4ed8aa4a, 0x5b9cca4f, 0x682e6ff3,
    0x748f82ee, 0x78a5636f, 0x84c87814, 0x8cc70208, 0x90befffa, 0xa4506ceb, 0xbef9a3f7, 0xc67178f2]

/-- Rotates a word to the right by an amount between 1 and 31. -/
def rotateRight (x amount : UInt32) : UInt32 := (x >>> amount) ||| (x <<< (32 - amount))

/-- Adds one word to a schedule that is kept newest first. -/
def extendSchedule (schedule : List UInt32) : List UInt32 :=
  let word (back : Nat) := schedule.getD (back - 1) 0
  let near := word 2
  let far := word 15
  let mixedNear := rotateRight near 17 ^^^ rotateRight near 19 ^^^ (near >>> 10)
  let mixedFar := rotateRight far 7 ^^^ rotateRight far 18 ^^^ (far >>> 3)
  (word 16 + mixedFar + word 7 + mixedNear) :: schedule

def iterate {α : Type} (f : α → α) : Nat → α → α
  | 0, a => a
  | n + 1, a => iterate f n (f a)

def schedule (block : List UInt32) : List UInt32 :=
  (iterate extendSchedule 48 block.reverse).reverse

def round (s : Working) (constant word : UInt32) : Working :=
  let choice := (s.e &&& s.f) ^^^ (~~~ s.e &&& s.g)
  let majority := (s.a &&& s.b) ^^^ (s.a &&& s.c) ^^^ (s.b &&& s.c)
  let sumE := rotateRight s.e 6 ^^^ rotateRight s.e 11 ^^^ rotateRight s.e 25
  let sumA := rotateRight s.a 2 ^^^ rotateRight s.a 13 ^^^ rotateRight s.a 22
  let first := s.h + sumE + choice + constant + word
  ⟨first + (sumA + majority), s.a, s.b, s.c, s.d + first, s.e, s.f, s.g⟩

/-- Runs the rounds of a block and adds the outcome to the state before it. -/
def compress (s : Working) (block : List UInt32) : Working :=
  let t := (roundConstants.zip (schedule block)).foldl (fun t pair => round t pair.1 pair.2) s
  ⟨s.a + t.a, s.b + t.b, s.c + t.c, s.d + t.d, s.e + t.e, s.f + t.f, s.g + t.g, s.h + t.h⟩

/-- A number as bytes, the most significant one first. -/
def bigEndian (width n : Nat) : Bytes :=
  (List.range width).reverse.map fun place => UInt8.ofNat (n / Nat.pow 256 place)

/-- The bytes followed by a one bit, by zeros up to a whole block, and by their length in bits. -/
def padded (bytes : Bytes) : Bytes :=
  let length := bytes.length
  bytes ++ 0x80 :: (List.replicate ((119 - length % 64) % 64) 0 ++ bigEndian 8 (8 * length))

def words : Bytes → List UInt32
  | a :: b :: c :: d :: rest =>
    (a.toUInt32 <<< 24 ||| b.toUInt32 <<< 16 ||| c.toUInt32 <<< 8 ||| d.toUInt32) :: words rest
  | _ => []

/-- Absorbs words sixteen at a time; `block` holds those of the block under way, newest first. -/
def absorb (s : Working) (block : List UInt32) (filled : Nat) : List UInt32 → Working
  | [] => s
  | word :: rest =>
    if filled = 15 then absorb (compress s (word :: block).reverse) [] 0 rest
    else absorb s (word :: block) (filled + 1) rest

def sha256 (bytes : Bytes) : Bytes :=
  let s := absorb .initial [] 0 (words (padded bytes))
  [s.a, s.b, s.c, s.d, s.e, s.f, s.g, s.h].flatMap fun word => bigEndian 4 word.toNat

def hexByte (byte : UInt8) : List Char :=
  [Nat.digitChar (byte.toNat / 16), Nat.digitChar (byte.toNat % 16)]

def contentHashBytes : Nat := 8

/-- The first bytes of the digest of a text, in hexadecimal. -/
def contentHash (text : String) : String :=
  String.ofList ((sha256 (Utf8.encode text)).take contentHashBytes |>.flatMap hexByte)

end Phrasebook.Digest
