import Phrasebook.Numeral.Digits
import Phrasebook.Text.Utf8

/-!
# Markup Problems

What can be wrong with markup below the level of documents: its tokens, the attributes of its tags,
and the character references in its texts. Positions count bytes of the text at hand.
-/

namespace Phrasebook.Markup

open Phrasebook.Numeral Phrasebook.Text

/-- Markup that a closing mark has to end. -/
inductive Construct where
  | cdata
  | comment
  | doctype
  | instruction
  | tag
deriving DecidableEq, Repr

def Construct.description : Construct → String
  | cdata => "CDATA"
  | comment => "comment"
  | doctype => "DOCTYPE"
  | instruction => "processing instruction or xml declaration"
  | tag => "tag"

def Construct.closingMark : Construct → String
  | cdata => "]]>"
  | comment => "-->"
  | doctype => ">"
  | instruction => "?>"
  | tag => ">"

inductive AttributeFault where
  | noEquals (position : Nat)
  | noValue (position : Nat)
  | unquoted (position : Nat)
  | noClosingQuote (position : Nat) (quote : Char)
  | duplicated (position previous : Nat)
deriving DecidableEq, Repr

/-- The place of an attribute fault, and its wording there. -/
def AttributeFault.placed : AttributeFault → Nat × String
  | noEquals position => (position, "attribute key must be directly followed by `=` or space")
  | noValue position => (position, "`=` must be followed by an attribute value")
  | unquoted position => (position, "attribute value must be enclosed in `\"` or `'`")
  | noClosingQuote position quote =>
    (position, "missing closing quote `" ++ quote.toString ++ "` in attribute value")
  | duplicated position previous =>
    (position, "duplicated attribute, previous declaration at position " ++ decimal previous)

def AttributeFault.message (fault : AttributeFault) : String :=
  "error while parsing attribute: position " ++ decimal fault.placed.1 ++ ": " ++ fault.placed.2

inductive NumberFault where
  | sign
  | empty
  | digit
  | tooLarge
  | zero
  | noCharacter (code : Nat)
deriving DecidableEq, Repr

def NumberFault.message : NumberFault → String
  | sign => "unexpected number sign"
  | empty => "cannot parse integer from empty string"
  | digit => "invalid digit found in string"
  | tooLarge => "number too large to fit in target type"
  | zero => "0x0 character is not permitted in XML"
  | noCharacter code => "`" ++ decimal code ++ "` is not a valid codepoint"

inductive ReferenceFault where
  /-- An ampersand at `start` without its semicolon, in a text of `stop` bytes. -/
  | unended (start stop : Nat)
  | number (fault : NumberFault)
  | unknown (start stop : Nat) (name : String)
deriving DecidableEq, Repr

def ReferenceFault.message : ReferenceFault → String
  | unended start stop =>
    "Error while escaping character at range " ++ decimal start ++ ".." ++ decimal stop ++
      ": Cannot find ';' after '&'"
  | number fault => "invalid character reference: " ++ fault.message
  | unknown start stop name =>
    "at " ++ decimal start ++ ".." ++ decimal stop ++ ": unrecognized entity `" ++ name ++ "`"

/-- Why markup cannot be read. -/
inductive Problem where
  | unclosed (construct : Construct)
  /-- An exclamation mark that begins no construct. -/
  | unknownMarkup
  | namelessDoctype
  | mismatchedClose (expected found : String)
  | unmatchedClose (found : String)
  | badAttribute (fault : AttributeFault)
  | badReference (fault : ReferenceFault)
  | badEncoding (fault : Utf8.Fault)
  /-- The bytes could not be had, for a reason that the system words. -/
  | unreadable (reason : String)
deriving DecidableEq, Repr

def encodingMessage : Utf8.Fault → String
  | .malformed length position =>
    "invalid utf-8 sequence of " ++ decimal length ++ " bytes from index " ++ decimal position
  | .cut position => "incomplete utf-8 byte sequence from index " ++ decimal position

def closeTag (name : String) : String := "`</" ++ name ++ ">`"

def Problem.message : Problem → String
  | unclosed construct =>
    "syntax error: " ++ construct.description ++ " not closed: `" ++ construct.closingMark ++
      "` not found before end of input"
  | unknownMarkup => "syntax error: unknown or missed symbol in markup"
  | namelessDoctype =>
    "ill-formed document: `<!DOCTYPE>` declaration does not contain a name of a document type"
  | mismatchedClose expected found =>
    "ill-formed document: expected " ++ closeTag expected ++ ", but " ++ closeTag found ++
      " was found"
  | unmatchedClose found =>
    "ill-formed document: close tag " ++ closeTag found ++ " does not match any open tag"
  | badAttribute fault => fault.message
  | badReference fault => fault.message
  | badEncoding fault => "cannot decode input using UTF-8: " ++ encodingMessage fault
  | unreadable reason => "I/O error: " ++ reason

end Phrasebook.Markup
