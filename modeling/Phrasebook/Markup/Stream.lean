import Phrasebook.Markup.Attribute

/-!
# Markup Streams

Markup is read byte by byte into a stream of events, each with the number of bytes that had been
read when it was complete. The reader's memory is the construct that it is in the middle of and the
names of the elements that are open. A stream ends with the input or with the first problem.

A text event that the next tag ends is reported at the position of that tag.
-/

namespace Phrasebook.Markup

open Phrasebook.Text

/-- One piece of markup. -/
inductive Event where
  | start (tag : Tag)
  /-- An element that has no content. -/
  | empty (tag : Tag)
  /-- The end of the innermost open element. -/
  | close (name : Bytes)
  | text (bytes : Bytes)
  | cdata (bytes : Bytes)
  | comment (bytes : Bytes)
  /-- A declaration, a processing instruction or a document type, which say nothing to a
  document. -/
  | directive
deriving DecidableEq, Repr

/-- Events, each with the position behind it, and how they end. -/
inductive Stream where
  | event (event : Event) (position : Nat) (rest : Stream)
  | ended (position : Nat)
  | failed (problem : Problem) (position : Nat)
deriving DecidableEq, Repr

/-- The construct that reading is in the middle of; the bytes held are its content so far, the
newest first. -/
inductive Mode where
  | text (held : Bytes)
  /-- Behind an opening bracket. -/
  | bracket
  /-- Behind an opening bracket and an exclamation mark. -/
  | bang
  | comment (held : Bytes)
  | cdata (held : Bytes)
  /-- A document type with the number of brackets that are open inside it. -/
  | doctype (depth : Nat) (held : Bytes)
  | instruction (held : Bytes)
  /-- A tag, and the quote it is inside of. -/
  | tag (quote : Option UInt8) (held : Bytes)
deriving DecidableEq, Repr

inductive Step where
  | next (mode : Mode)
  | emit (event : Event) (names : List Bytes)
  /-- A text ends in front of an opening bracket. -/
  | break (text : Bytes)
  | fail (problem : Problem)
  /-- A problem whose position does not count the exclamation mark before the byte. -/
  | unknown

def lower (byte : UInt8) : UInt8 := if 0x41 ≤ byte && byte ≤ 0x5A then byte + 0x20 else byte

/-- The content of a text that starts with the given opening, case aside if `fold` says so. -/
def strip? (fold : UInt8 → UInt8) : Bytes → Bytes → Option Bytes
  | [], rest => some rest
  | _ :: _, [] => none
  | expected :: opening, byte :: rest =>
    if fold byte = fold expected then strip? fold opening rest else none

def commentEvent (content : Bytes) : Except Problem Event :=
  match strip? id (Utf8.encode "!--") content with
  | some rest => .ok (.comment (rest.take (rest.length - 2)))
  | none => .error (.unclosed .comment)

def cdataEvent (content : Bytes) : Except Problem Event :=
  match strip? id (Utf8.encode "![CDATA[") content with
  | some rest => .ok (.cdata (rest.take (rest.length - 2)))
  | none => .error (.unclosed .cdata)

def doctypeEvent (content : Bytes) : Except Problem Event :=
  match strip? lower (Utf8.encode "!DOCTYPE") content with
  | some rest => if rest.all isSpace then .error .namelessDoctype else .ok .directive
  | none => .error (.unclosed .doctype)

def instructionEvent (content : Bytes) : Except Problem Event :=
  if content.length < 2 then .error (.unclosed .instruction) else .ok .directive

/-- A name as messages show it: nothing if it is not UTF-8. -/
def shownName (name : Bytes) : String :=
  match Utf8.decode name with
  | .ok s => s
  | .error _ => ""

/-- The name of a close tag: white space behind it is no part of it. -/
def closeName (content : Bytes) : Bytes :=
  if content.all isSpace then content else (content.reverse.dropWhile isSpace).reverse

/-- A close tag against the names that are open, the innermost first. -/
def closeStep (name : Bytes) : List Bytes → Step
  | [] => .fail (.unmatchedClose (shownName name))
  | expected :: names =>
    if name = expected then .emit (.close name) names
    else .fail (.mismatchedClose (shownName expected) (shownName name))

def tagStep (held : Bytes) (names : List Bytes) : Step :=
  match held.reverse, held with
  | 0x2F :: name, _ => closeStep (closeName name) names
  | _, 0x2F :: content => .emit (.empty ⟨content.reverse⟩) names
  | content, _ => .emit (.start ⟨content⟩) (Tag.name ⟨content⟩ :: names)

def outcome (names : List Bytes) : Except Problem Event → Step
  | .ok event => .emit event names
  | .error problem => .fail problem

def inTag (quote : Option UInt8) (held : Bytes) (names : List Bytes) (byte : UInt8) : Step :=
  match quote with
  | some q => .next (.tag (if byte = q then none else some q) (byte :: held))
  | none =>
    if byte = 0x3E then tagStep held names
    else if byte = 0x22 || byte = 0x27 then .next (.tag (some byte) (byte :: held))
    else .next (.tag none (byte :: held))

/-- Whether the bytes before a closing bracket end a comment: two hyphens, after at least the
opening of a comment. -/
def endsComment : Bytes → Bool
  | 0x2D :: 0x2D :: _ :: _ :: _ :: _ => true
  | _ => false

/-- Whether the bytes before a closing bracket end a character section. -/
def endsCdata : Bytes → Bool
  | 0x5D :: 0x5D :: _ => true
  | _ => false

/-- Reads one byte; `names` are the open elements, the innermost first. -/
def Mode.step (names : List Bytes) (byte : UInt8) : Mode → Step
  | text held => if byte = 0x3C then .break held.reverse else .next (.text (byte :: held))
  | bracket =>
    if byte = 0x21 then .next .bang
    else if byte = 0x3F then .next (.instruction [byte])
    else inTag none [] names byte
  | bang =>
    if byte = 0x5B then .next (.cdata [byte, 0x21])
    else if byte = 0x2D then .next (.comment [byte, 0x21])
    else if lower byte = 0x64 then .next (.doctype 0 [byte, 0x21])
    else .unknown
  | comment held =>
    if byte = 0x3E && endsComment held then outcome names (commentEvent held.reverse)
    else .next (.comment (byte :: held))
  | cdata held =>
    if byte = 0x3E && endsCdata held then outcome names (cdataEvent held.reverse)
    else .next (.cdata (byte :: held))
  | doctype depth held =>
    if byte = 0x3C then .next (.doctype (depth + 1) (byte :: held))
    else if byte = 0x3E then
      match depth with
      | 0 => outcome names (doctypeEvent held.reverse)
      | depth + 1 => .next (.doctype depth (byte :: held))
    else .next (.doctype depth (byte :: held))
  | instruction held =>
    if byte = 0x3E && held.head? = some 0x3F then outcome names (instructionEvent held.reverse)
    else .next (.instruction (byte :: held))
  | tag quote held => inTag quote held names byte

/-- A text in front of more of the stream; an empty text is no event. -/
def Stream.textOnto (text : Bytes) (position : Nat) (rest : Stream) : Stream :=
  if text.isEmpty then rest else .event (.text text) position rest

def Mode.finish (position : Nat) : Mode → Stream
  | text held => .textOnto held.reverse position (.ended position)
  | bracket => .failed (.unclosed .tag) position
  | bang => .failed .unknownMarkup (position - 1)
  | comment _ => .failed (.unclosed .comment) position
  | cdata _ => .failed (.unclosed .cdata) position
  | doctype _ _ => .failed (.unclosed .doctype) position
  | instruction _ => .failed (.unclosed .instruction) position
  | tag _ _ => .failed (.unclosed .tag) position

namespace Stream

/-- The stream of the bytes after a position. -/
def scan (mode : Mode) (names : List Bytes) (position : Nat) : Bytes → Stream
  | [] => mode.finish position
  | byte :: rest =>
    match mode.step names byte with
    | .next mode => scan mode names (position + 1) rest
    | .emit piece names =>
      .event piece (position + 1) (scan (.text []) names (position + 1) rest)
    | .break text => .textOnto text position (scan .bracket names (position + 1) rest)
    | .fail problem => .failed problem (position + 1)
    | .unknown => .failed .unknownMarkup (position - 1)

/-- The stream of a byte sequence. A mark of the byte order in front of it does not count. -/
def ofBytes : Bytes → Stream
  | 0xEF :: 0xBB :: 0xBF :: rest => scan (.text []) [] 0 rest
  | bytes => scan (.text []) [] 0 bytes

end Stream

end Phrasebook.Markup
