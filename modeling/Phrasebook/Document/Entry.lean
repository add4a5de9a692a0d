import Phrasebook.Calendar.Instant
import Phrasebook.Digest.Sha256
import Phrasebook.Template.Token

/-!
# Documents

A document carries the entries of a string table for one locale, in sections by the file that they
were taken from. An entry is a template or a literal text, with a hash of its text for those who
compare, a comment, and attributes that nobody here reads.
-/

namespace Phrasebook.Document

open Phrasebook.Calendar

/-- How the text of an entry is read. -/
inductive EntryKind where
  | template
  /-- The text is the phrase. -/
  | literal
deriving DecidableEq, Repr

def EntryKind.elementName : EntryKind → String
  | template => "String"
  | literal => "Literal"

def EntryKind.ofElement? (name : Text.Bytes) : Option EntryKind :=
  if name = Text.Utf8.encode "String" then some .template
  else if name = Text.Utf8.encode "Literal" then some .literal
  else none

/-- One string of a section. -/
structure Entry where
  kind : EntryKind
  key : String
  text : String
  /-- Advice on whether the text changed; nobody checks it on reading. -/
  hash : String := Digest.contentHash text
  /-- Further attributes in the order of the document. -/
  attributes : List (String × String) := []
  /-- The comment directly before the entry. -/
  comment : Option String := none
deriving DecidableEq, Repr

namespace Entry

def attribute? (entry : Entry) (name : String) : Option String := entry.attributes.lookup name

/-- The entry with the hash that belongs to its text. -/
def rehash (entry : Entry) : Entry := { entry with hash := Digest.contentHash entry.text }

def phrase (entry : Entry) : Except TemplateError Phrase :=
  match entry.kind with
  | .literal => .ok (.raw entry.key entry.text)
  | .template => Phrase.read .template entry.key entry.text

end Entry

/-- Where a section comes from. -/
structure Origin where
  path : String
  modified : Option Instant := none
  commit : Option String := none
deriving DecidableEq, Repr

/-- The part of a path behind its last separator, of either kind. -/
def fileName (path : String) : String :=
  String.ofList (path.toList.reverse.takeWhile fun c => c != '/' && c != '\\').reverse

/-- The entries of one origin. -/
structure Section where
  origin : Origin
  entries : List Entry := []
deriving DecidableEq, Repr

/-- What a document says about itself. -/
structure Header where
  generated : Option Instant := none
  locale : String := ""
deriving DecidableEq, Repr

def rootElement : String := "StringTable"

def fileElement : String := "File"

end Phrasebook.Document
