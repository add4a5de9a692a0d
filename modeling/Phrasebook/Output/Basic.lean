import Phrasebook.Output.BufferPool
import Phrasebook.Output.NumberFormat
import Phrasebook.Numeral.Digits

/-!
# Outputs

An output gathers the pieces of a text. A single whole text is kept as it is; a second piece, or a
piece that has to be built, moves everything into a pooled buffer. Sealing an output takes its text
and gives the buffer back, and after that nothing may be appended.

Every operation takes the buffer pool and returns it, so that what is pooled after a history of
operations is part of the result.
-/

namespace Phrasebook

inductive OutputError where
  | alreadyBuilt
deriving DecidableEq, Repr

def OutputError.message : OutputError → String
  | alreadyBuilt => "output builder already built"

inductive OutputBody where
  | empty
  /-- One whole text, in no buffer. -/
  | whole (text : String)
  | buffered (buffer : Buffer)
  | sealed
deriving DecidableEq, Repr

/-- A text that is being put together, and how its numbers are written. -/
structure Output where
  body : OutputBody := .empty
  format : NumberFormat := {}
deriving DecidableEq, Repr

namespace Output

def text (output : Output) : String :=
  match output.body with
  | .empty => ""
  | .whole text => text
  | .buffered buffer => buffer.text
  | .sealed => ""

def isSealed (output : Output) : Bool := output.body == .sealed

def stateName (output : Output) : String :=
  match output.body with
  | .empty => "Empty"
  | .whole _ => "Prefix"
  | .buffered _ => "Buffered"
  | .sealed => "Sealed"

/-- The diagnostic form of an output: its state and the byte length of its text. -/
def describe (output : Output) : String :=
  "OutputBuilder \x7b state: " ++ output.stateName ++ ", len: " ++
    Numeral.decimal output.text.utf8ByteSize ++ " \x7d"

/-- An output together with the pool that its buffers come from. -/
abbrev Pooled := Output × BufferPool

/-- The buffer of the output; if it has none, one is taken out of the pool and the whole text that
the output holds is copied into it. -/
def promote : Pooled → Except OutputError (Buffer × BufferPool)
  | (output, pool) =>
    match output.body with
    | .sealed => .error .alreadyBuilt
    | .buffered buffer => .ok (buffer, pool)
    | .empty => .ok pool.checkout
    | .whole text =>
      let (buffer, pool) := pool.checkout
      .ok (buffer.push text, pool)

def withBuffer (f : Buffer → Buffer) (pooled : Pooled) : Except OutputError Pooled :=
  (promote pooled).map fun (buffer, pool) =>
    ({ pooled.1 with body := .buffered (f buffer) }, pool)

/-- Appends a text to the buffer of the output. -/
def appendCopied (s : String) : Pooled → Except OutputError Pooled := withBuffer (·.push s)

def appendFragments (fragments : List String) : Pooled → Except OutputError Pooled :=
  withBuffer fun buffer => fragments.foldl Buffer.push buffer

/-- Appends a whole text; the first one is kept without a buffer. -/
def appendWhole (s : String) : Pooled → Except OutputError Pooled
  | (output, pool) =>
    match output.body with
    | .empty => .ok ({ output with body := .whole s }, pool)
    | _ => appendCopied s (output, pool)

def appendChar (c : Char) : Pooled → Except OutputError Pooled := appendCopied c.toString

def appendUnsigned (value : UInt64) : Pooled → Except OutputError Pooled :=
  appendCopied (Numeral.DigitField.blank.formatUnsigned value)

def appendSigned (value : Int64) : Pooled → Except OutputError Pooled :=
  appendCopied (Numeral.DigitField.blank.formatSigned value)

/-- Appends a floating-point value that is not written as an integer. Its text is written first, and
then the point in it gives way to the separator of the output's number format. -/
def appendFraction (value : Numeral.FloatValue) : Pooled → Except OutputError Pooled
  | (output, pool) =>
    flip withBuffer (output, pool) fun buffer =>
      let start := buffer.text.length
      let written := buffer.push value.text
      if output.format.decimalSeparator = '.' then written
      else written.rewriteBehind start output.format.localize

/-- Appends a floating-point value: an integral one in the range of signed words as an integer, any
other as a fraction. -/
def appendFloat (value : Numeral.FloatValue) : Pooled → Except OutputError Pooled :=
  match value.integral? with
  | some n => appendSigned (Int64.ofInt n)
  | none => appendFraction value

def appendDouble (bits : UInt64) : Pooled → Except OutputError Pooled :=
  appendFloat (.ofBits64 bits)

/-- Appends a single-precision value, in the digits that single precision needs. -/
def appendSingle (bits : UInt32) : Pooled → Except OutputError Pooled :=
  appendFloat (.ofBits32 bits)

/-- Appends the text of another output, which must not be sealed; an empty text changes nothing. -/
def appendOutput (other : Output) : Pooled → Except OutputError Pooled
  | (output, pool) =>
    if other.isSealed then .error .alreadyBuilt
    else if other.text.isEmpty then .ok (output, pool)
    else appendCopied other.text (output, pool)

/-- Gives back the buffer of an output that is no longer needed. -/
def discard : Pooled → BufferPool
  | (output, pool) =>
    match output.body with
    | .buffered buffer => pool.release buffer
    | _ => pool

/-- Seals the output: the result is its text, and its buffer goes back to the pool. Sealing twice is
an error. -/
def close : Pooled → Except OutputError String × Pooled
  | (output, pool) =>
    let closed := { output with body := .sealed }
    match output.body with
    | .empty => (.ok "", closed, pool)
    | .whole text => (.ok text, closed, pool)
    | .buffered buffer => (.ok buffer.text, closed, pool.release buffer)
    | .sealed => (.error .alreadyBuilt, closed, pool)

/-- The text of an output whose building is over; empty if it was taken before. -/
def finish (pooled : Pooled) : String × BufferPool :=
  match close pooled with
  | (.ok text, _, pool) => (text, pool)
  | (.error _, _, pool) => ("", pool)

end Output

end Phrasebook
