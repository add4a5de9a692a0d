import Phrasebook.Document.Entry
import Phrasebook.Document.Fault
import Phrasebook.Markup.Page
import Phrasebook.Text.Blank
import Std.Data.TreeMap

/-!
# Drafts

A draft is a document that is being written. Entries of the open section are written at once or put
off; those put off are written in the order of their keys when the section is flushed or ends. A key
is accepted once in a section.

A step that fails leaves the draft as far as it came.
-/

namespace Phrasebook.Document

open Phrasebook.Calendar Phrasebook.Markup Phrasebook.Text

structure Draft where
  page : Page
  /-- The open section. -/
  current : Option Origin := none
  /-- The texts of the entries that were written to the open section, by key. -/
  written : Std.TreeMap String String := ∅
  /-- The entries of the open section that were put off, by key. -/
  deferred : Std.TreeMap String Entry := ∅

abbrev DraftM := ExceptT Fault (StateM Draft)

/-- A text with a space between any two hyphens that stand side by side. -/
def spaceHyphens : List Char → List Char
  | [] => []
  | c :: rest =>
    if c = '-' && rest.head? = some '-' then '-' :: ' ' :: spaceHyphens rest
    else c :: spaceHyphens rest

/-- The parts of a text that are cut between `]]` and `>`; `held` is the part under way in
reverse. -/
def cdataPartsFrom (held : List Char) : List Char → List (List Char)
  | ']' :: ']' :: '>' :: rest => (']' :: ']' :: held).reverse :: cdataPartsFrom ['>'] rest
  | c :: rest => cdataPartsFrom (c :: held) rest
  | [] => [held.reverse]

/-- A text in parts none of which holds the mark that ends a character section. -/
def cdataParts (s : String) : List String := (cdataPartsFrom [] s.toList).map String.ofList

/-- Whether a text is written as character sections. -/
def needsCdata (s : String) : Bool := s.toList.any fun c => c = '<' || c = '&' || c = '\n'

namespace Entry

def elementAttributes (entry : Entry) : List (String × String) :=
  ("Name", entry.key) :: ("Hash", entry.hash) :: entry.attributes

def items (entry : Entry) : List Item :=
  let name := entry.kind.elementName
  let content :=
    if needsCdata entry.text then (cdataParts entry.text).map Item.cdata else [.text entry.text]
  if entry.text.isEmpty then [.empty name entry.elementAttributes]
  else .start name entry.elementAttributes :: content ++ [.close name]

end Entry

def Origin.elementAttributes (origin : Origin) : List (String × String) :=
  ("SourcePath", origin.path) ::
    ((origin.modified.toList.map fun instant => ("SourceModifiedUtc", instant.text)) ++
      ((origin.commit.filter (!isBlankText ·)).toList.map fun commit => ("SourceCommitHash", commit)))

namespace Draft

def writeItem (item : Item) : DraftM Unit := do
  let draft ← get
  let (accepted, page) := draft.page.write item
  set { draft with page := page }
  if !accepted then throw (.refused page.sink.refusal)

def writeItems : List Item → DraftM Unit
  | [] => pure ()
  | item :: rest => do
    writeItem item
    writeItems rest

def start (sink : Sink) (locale : String) (generated : Instant) : Except Fault Unit × Draft :=
  let attributes := [("GeneratedUtc", generated.text), ("Locale", locale)]
  (writeItems [.declaration, .start rootElement attributes]).run { page := { sink := sink } }

def comment (text : String) : DraftM Unit :=
  writeItem (.comment (String.ofList (' ' :: spaceHyphens text.toList ++ [' '])))

/-- Writes an entry behind its comment. -/
def emit (entry : Entry) : DraftM Unit := do
  if let some text := entry.comment then comment text
  writeItems entry.items

def note (entry : Entry) : DraftM Unit :=
  modify fun draft => { draft with written := draft.written.insert entry.key entry.text }

/-- The text with which a key was accepted in the open section. -/
def accepted? (draft : Draft) (key : String) : Option String :=
  draft.written[key]? <|> (draft.deferred[key]?.map Entry.text)

/-- Refuses an entry whose key was accepted before. -/
def checkUnique (entry : Entry) : DraftM Unit := do
  let draft ← get
  match draft.current with
  | none => throw .noOpenSection
  | some origin =>
    match draft.accepted? entry.key with
    | some existing => throw (.duplicateKey origin.path entry.key existing entry.text)
    | none => pure ()

def writeEntry (entry : Entry) : DraftM Unit := do
  checkUnique entry
  emit entry
  note entry

/-- Puts an entry off until the open section is flushed. -/
def deferEntry (entry : Entry) : DraftM Unit := do
  checkUnique entry
  modify fun draft => { draft with deferred := draft.deferred.insert entry.key entry }

/-- Writes entries, noting each when it is complete. -/
def emitAll : List Entry → DraftM Unit
  | [] => pure ()
  | entry :: rest => do
    emit entry
    note entry
    emitAll rest

/-- Writes the entries that were put off in the order of their keys. They are no longer put off even
if one of them cannot be written. -/
def flush : DraftM Unit := do
  let draft ← get
  set { draft with deferred := ∅ }
  emitAll draft.deferred.values

/-- Flushes and ends the open section. -/
def endFile : DraftM Unit := do
  flush
  let draft ← get
  match draft.current with
  | none => throw .noOpenSection
  | some origin =>
    set { draft with current := none }
    writeItem (.close fileElement)
    comment ("End of file " ++ fileName origin.path)
    modify fun draft => { draft with written := ∅ }

def endOpenFile : DraftM Unit := do
  if (← get).current.isSome then endFile

/-- Begins a section and ends the one before it. Nothing happens if the section is open already. -/
def startFile (origin : Origin) : DraftM Unit := do
  if (← get).current ≠ some origin then
    endOpenFile
    modify fun draft => { draft with written := ∅, deferred := ∅ }
    comment ("Start of file " ++ fileName origin.path)
    writeItem (.start fileElement origin.elementAttributes)
    modify fun draft => { draft with current := some origin }

/-- Writes a text as it is, outside of any line. -/
def writePlain (s : String) : DraftM Unit := do
  let draft ← get
  let (accepted, sink) := draft.page.sink.write s
  set { draft with page := { draft.page with sink := sink } }
  if !accepted then throw (.refused sink.refusal)

/-- Ends the open section and the document. -/
def finish : DraftM Unit := do
  endOpenFile
  writeItem (.close rootElement)
  writePlain "\n"

def text (draft : Draft) : String := draft.page.sink.text

end Draft

end Phrasebook.Document
