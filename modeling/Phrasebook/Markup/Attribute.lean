import Phrasebook.Markup.Problem

/-!
# Attributes

The attributes of a tag: a key, an equals sign and a quoted value, with white space around any of
them. They are read byte by byte, and reading stops at the first fault; what was read before it
stays. Positions count from the start of the tag's content.
-/

namespace Phrasebook.Markup

open Phrasebook.Text

/-- Whether a byte is white space in markup. -/
def isSpace (byte : UInt8) : Bool := byte = 0x20 || byte = 0x09 || byte = 0x0D || byte = 0x0A

/-- A key and the text between the quotes, as they stand. -/
structure RawAttribute where
  key : Bytes
  value : Bytes
deriving DecidableEq, Repr

/-- Where in an attribute the reading is. Keys come with the position of their first byte. -/
inductive AttributeMode where
  | between
  | key (start : Nat) (held : Bytes)
  | afterKey (start : Nat) (key : Bytes)
  | beforeValue (key : Bytes)
  | value (key : Bytes) (quote : UInt8) (held : Bytes)
deriving DecidableEq, Repr

inductive AttributeStep where
  | next (mode : AttributeMode)
  /-- The key is complete and its equals sign was read. -/
  | keyed (start : Nat) (key : Bytes)
  | complete (raw : RawAttribute)
  | fail (fault : AttributeFault)

def AttributeMode.step (position : Nat) (byte : UInt8) : AttributeMode → AttributeStep
  | .between => if isSpace byte then .next .between else .next (.key position [byte])
  | .key start held =>
    if byte = 0x3D then .keyed start held.reverse
    else if isSpace byte then .next (.afterKey start held.reverse)
    else .next (.key start (byte :: held))
  | .afterKey start name =>
    if byte = 0x3D then .keyed start name
    else if isSpace byte then .next (.afterKey start name)
    else .fail (.noEquals position)
  | .beforeValue name =>
    if isSpace byte then .next (.beforeValue name)
    else if byte = 0x22 || byte = 0x27 then .next (.value name byte [])
    else .fail (.unquoted position)
  | .value name quote held =>
    if byte = quote then .complete ⟨name, held.reverse⟩
    else .next (.value name quote (byte :: held))

/-- What the end of the tag means for an attribute under way. -/
def AttributeMode.endFault? (position : Nat) : AttributeMode → Option AttributeFault
  | .between => none
  | .key _ _ => some (.noEquals position)
  | .afterKey _ _ => some (.noEquals position)
  | .beforeValue _ => some (.noValue position)
  | .value _ quote _ => some (.noClosingQuote position (Char.ofNat quote.toNat))

/-- Reads attributes from a position on; `seen` holds the keys so far with their positions. -/
def scanAttributes (mode : AttributeMode) (position : Nat) (seen : List (Bytes × Nat)) :
    Bytes → List RawAttribute × Option AttributeFault
  | [] => ([], mode.endFault? position)
  | byte :: rest =>
    match mode.step position byte with
    | .next mode => scanAttributes mode (position + 1) seen rest
    | .keyed start key =>
      match seen.lookup key with
      | some previous => ([], some (.duplicated start previous))
      | none => scanAttributes (.beforeValue key) (position + 1) ((key, start) :: seen) rest
    | .complete raw =>
      let (attributes, fault) := scanAttributes .between (position + 1) seen rest
      (raw :: attributes, fault)
    | .fail fault => ([], some fault)

/-- The content of a start tag or of a tag without content, between its brackets and without the
slash that ends it. -/
structure Tag where
  content : Bytes
deriving DecidableEq, Repr

namespace Tag

/-- The name, which runs to the first white space. -/
def name (tag : Tag) : Bytes := tag.content.takeWhile (!isSpace ·)

/-- The attributes up to the first fault, and that fault. -/
def attributes (tag : Tag) : List RawAttribute × Option AttributeFault :=
  scanAttributes .between tag.name.length [] (tag.content.dropWhile (!isSpace ·))

end Tag

end Phrasebook.Markup
