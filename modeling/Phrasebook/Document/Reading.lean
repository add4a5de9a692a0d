import Phrasebook.Document.Entry
import Phrasebook.Document.Fault
import Phrasebook.Markup.Reference
import Phrasebook.Markup.Stream
import Phrasebook.Text.Blank

/-!
# Reading Documents

A document is read from a stream of markup events, section by section. Outside of entries only blank
text, comments and directives may stand between elements, and a comment inside a section belongs to
the next entry. Every fault ends the reading, and so does the end of the root element; after either,
there is nothing more to read.
-/

namespace Phrasebook.Document

open Phrasebook.Calendar Phrasebook.Markup Phrasebook.Text

/-- The sections of a document as they are read, each with the position behind it. -/
inductive Sections where
  /-- A section; `spelled` says whether its element has an end tag. -/
  | next (content : Section) (spelled : Bool) (position : Nat) (rest : Sections)
  | done (position : Nat)
  | failed (fault : Fault) (position : Nat)
deriving DecidableEq, Repr

/-- Whether a byte is ASCII white space, the form feed included. -/
def isBlankByte (byte : UInt8) : Bool := isSpace byte || byte = 0x0C

/-- The attributes of a tag with their references replaced. Attributes are taken in order, and the
first thing wrong decides. -/
def attributes (place : Place) (tag : Tag) : Except Fault (List (String × String)) := do
  let (raws, fault?) := tag.attributes
  let pairs ← raws.mapM fun raw => do
    let name ← match Utf8.decode raw.key with
      | .ok name => pure name
      | .error _ => throw (.notUtf8 place)
    match resolveBytes raw.value with
    | .ok value => pure (name, value)
    | .error problem => throw (.malformed place problem)
  match fault? with
  | some fault => .error (.malformed place (.badAttribute fault))
  | none => .ok pairs

/-- The stamp that an attribute holds, with white space around it. -/
def stamp (place : Place) (value : String) : Except Fault Instant :=
  match Instant.parse (trim value) with
  | .ok instant => .ok instant
  | .error reason => .error (.badStamp place value reason)

def Header.take (place : Place) (header : Header) (pair : String × String) :
    Except Fault Header :=
  if pair.1 = "GeneratedUtc" then
    (stamp place pair.2).map fun instant => { header with generated := some instant }
  else if pair.1 = "Locale" then .ok { header with locale := pair.2 }
  else .ok header

def header (place : Place) (tag : Tag) : Except Fault Header := do
  (← attributes place tag).foldlM (Header.take place) {}

def Origin.take (place : Place) (found : Option String × Origin) (pair : String × String) :
    Except Fault (Option String × Origin) :=
  let (path, origin) := found
  if pair.1 = "SourcePath" then .ok (some pair.2, origin)
  else if pair.1 = "SourceModifiedUtc" then
    (stamp place pair.2).map fun instant => (path, { origin with modified := some instant })
  else if pair.1 = "SourceCommitHash" && !isBlankText pair.2 then
    .ok (path, { origin with commit := some pair.2 })
  else .ok found

def origin (place : Place) (tag : Tag) : Except Fault Origin := do
  let (path, origin) ← (← attributes place tag).foldlM (Origin.take place) (none, { path := "" })
  match path with
  | some path => .ok { origin with path := path }
  | none => .error (.missingAttribute place fileElement "SourcePath")

/-- An entry whose text is not complete. -/
structure OpenEntry where
  kind : EntryKind
  key : String
  hash : Option String
  attributes : List (String × String)
  text : String := ""
deriving DecidableEq, Repr

def entryStart (place : Place) (tag : Tag) : Except Fault OpenEntry := do
  match EntryKind.ofElement? tag.name with
  | none => .error (.unexpectedElement place (Utf8.lossy tag.name))
  | some kind =>
    let pairs ← attributes place tag
    match pairs.lookup "Name" with
    | none => .error (.missingAttribute place kind.elementName "Name")
    | some key =>
      let others := pairs.filter fun pair => pair.1 != "Name" && pair.1 != "Hash"
      .ok { kind := kind, key := key, hash := pairs.lookup "Hash", attributes := others }

/-- A section whose element is open: its entries so far, newest first, and the comment in wait. -/
structure OpenSection where
  origin : Origin
  entries : List Entry := []
  comment : Option String := none
deriving DecidableEq, Repr

namespace OpenSection

/-- Adds an entry that is complete; the comment in wait is its comment. -/
def add (s : OpenSection) (entry : OpenEntry) : OpenSection :=
  let complete : Entry :=
    { kind := entry.kind
      key := entry.key
      text := entry.text
      hash := entry.hash.getD (Digest.contentHash entry.text)
      attributes := entry.attributes
      comment := s.comment }
  { s with entries := complete :: s.entries, comment := none }

def complete (s : OpenSection) : Section := ⟨s.origin, s.entries.reverse⟩

end OpenSection

/-- The element that reading is inside of. -/
inductive Stage where
  | root
  | file (content : OpenSection)
  | entry (content : OpenSection) (entry : OpenEntry)
deriving DecidableEq, Repr

namespace Stage

def path? : Stage → Option String
  | root => none
  | file s => some s.origin.path
  | entry s _ => some s.origin.path

/-- The name of the innermost open element. -/
def elementName : Stage → String
  | root => rootElement
  | file _ => fileElement
  | entry _ e => e.kind.elementName

end Stage

/-- What one event does. -/
inductive Advance where
  | stay (stage : Stage)
  | complete (content : Section) (spelled : Bool)
  | finish
  | fail (fault : Fault)

def betweenElements (place : Place) (stage : Stage) (text : Bytes) : Advance :=
  if text.all isBlankByte then .stay stage else .fail (.unexpectedText place (Utf8.lossy text))

def Advance.ofExcept : Except Fault Advance → Advance
  | .ok advance => advance
  | .error fault => .fail fault

def inRoot (place : Place) : Event → Advance
  | .start tag =>
    if tag.name = Utf8.encode fileElement then
      .ofExcept ((origin place tag).map fun origin => .stay (.file { origin := origin }))
    else .fail (.unexpectedElement place (Utf8.lossy tag.name))
  | .empty tag =>
    if tag.name = Utf8.encode fileElement then
      .ofExcept ((origin place tag).map fun origin => .complete ⟨origin, []⟩ false)
    else .fail (.unexpectedElement place (Utf8.lossy tag.name))
  | .close _ => .finish
  | .text text => betweenElements place .root text
  | .cdata text => .fail (.unexpectedText place (Utf8.lossy text))
  | .comment _ => .stay .root
  | .directive => .stay .root

def inFile (place : Place) (s : OpenSection) : Event → Advance
  | .start tag =>
    .ofExcept ((entryStart place tag).map fun entry => .stay (.entry s entry))
  | .empty tag =>
    .ofExcept ((entryStart place tag).map fun entry => .stay (.file (s.add entry)))
  | .close _ => .complete s.complete true
  | .text text => betweenElements place (.file s) text
  | .cdata text => .fail (.unexpectedText place (Utf8.lossy text))
  | .comment text =>
    match Utf8.decode text with
    | .ok text => .stay (.file { s with comment := some (trim text) })
    | .error _ => .fail (.notUtf8 place)
  | .directive => .stay (.file s)

def inEntry (place : Place) (s : OpenSection) (entry : OpenEntry) : Event → Advance
  | .start tag => .fail (.unexpectedElement place (Utf8.lossy tag.name))
  | .empty tag => .fail (.unexpectedElement place (Utf8.lossy tag.name))
  | .close _ => .stay (.file (s.add entry))
  | .text text =>
    match resolveBytes text with
    | .ok text => .stay (.entry s { entry with text := entry.text ++ text })
    | .error problem => .fail (.malformed place problem)
  | .cdata text =>
    match Utf8.decode text with
    | .ok text => .stay (.entry s { entry with text := entry.text ++ text })
    | .error _ => .fail (.notUtf8 place)
  | .comment _ => .stay (.entry s entry)
  | .directive => .stay (.entry s entry)

/-- Reads one event; `position` is the one behind it. -/
def Stage.step (stage : Stage) (position : Nat) (event : Event) : Advance :=
  let place : Place := ⟨position, stage.path?⟩
  match stage with
  | .root => inRoot place event
  | .file s => inFile place s event
  | .entry s e => inEntry place s e event

namespace Sections

/-- The sections of a stream inside the root element. -/
def ofStream (stage : Stage) : Stream → Sections
  | .event event position rest =>
    match stage.step position event with
    | .stay stage => ofStream stage rest
    | .complete content spelled => .next content spelled position (ofStream .root rest)
    | .finish => .done position
    | .fail fault => .failed fault position
  | .ended position => .failed (.truncated ⟨position, stage.path?⟩ stage.elementName) position
  | .failed problem position => .failed (.malformed ⟨position, stage.path?⟩ problem) position

/-- The sections before the end or the first fault. -/
def toList : Sections → List Section
  | next content _ _ rest => content :: rest.toList
  | done _ => []
  | failed _ _ => []

def fault? : Sections → Option Fault
  | next _ _ _ rest => rest.fault?
  | done _ => none
  | failed fault _ => some fault

/-- Takes the next section. After a fault or the end there is none. -/
def take : Sections → Except Fault (Option Section) × Sections
  | next content _ _ rest => (.ok (some content), rest)
  | done position => (.ok none, .done position)
  | failed fault position => (.error fault, .done position)

/-- All sections, if no fault ends the reading. -/
def all : Sections → Except Fault (List Section)
  | next content _ _ rest => rest.all.map (content :: ·)
  | done _ => .ok []
  | failed fault _ => .error fault

end Sections

/-- A document whose header was read, and the position behind the header. -/
structure Opened where
  header : Header
  position : Nat
  sections : Sections
deriving DecidableEq, Repr

def ofStream : Stream → Except Fault Opened
  | .event event position rest =>
    let place : Place := ⟨position, none⟩
    match event with
    | .start tag =>
      if tag.name = Utf8.encode rootElement then
        (header place tag).map fun header => ⟨header, position, .ofStream .root rest⟩
      else .error (.unexpectedElement place (Utf8.lossy tag.name))
    | .empty tag =>
      if tag.name = Utf8.encode rootElement then
        (header place tag).map fun header => ⟨header, position, .done position⟩
      else .error (.unexpectedElement place (Utf8.lossy tag.name))
    | .close _ => .error .noRoot
    | .text text =>
      if text.all isBlankByte then ofStream rest
      else .error (.unexpectedText place (Utf8.lossy text))
    | .cdata text => .error (.unexpectedText place (Utf8.lossy text))
    | .comment _ => ofStream rest
    | .directive => ofStream rest
  | .ended _ => .error .noRoot
  | .failed problem position => .error (.malformed ⟨position, none⟩ problem)

def ofBytes (bytes : Bytes) : Except Fault Opened := ofStream (.ofBytes bytes)

end Phrasebook.Document
