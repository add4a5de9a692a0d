import Phrasebook.Document.Reading
import Phrasebook.Library.Basic

/-!
# Loading Documents

A document is read to its end before a table changes, so a document that cannot be read changes
nothing. Entries that are no phrases are left out and reported, and so are entries whose key is
taken. Populating adds to what the table has; reloading replaces it.
-/

namespace Phrasebook

open Phrasebook.Document (Entry Section Sections)

structure LoadReport where
  /-- How many entries were put into the table, or, if it was replaced, how many it has. -/
  loaded : Nat
  rejected : List EntryError
deriving DecidableEq, Repr

def LoadReport.isClean (report : LoadReport) : Bool := report.rejected.isEmpty

namespace Library

/-- The phrases of entries, and the errors of those that have none, each in order. -/
def phrasesOf : List Entry → List Phrase × List EntryError
  | [] => ([], [])
  | entry :: rest =>
    let (phrases, errors) := phrasesOf rest
    match entry.phrase with
    | .ok phrase => (phrase :: phrases, errors)
    | .error error => (phrases, .template error :: errors)

def sectionEvents : Sections → List LibraryEvent
  | .next content spelled _ rest =>
    let events := sectionEvents rest
    if spelled then .sectionRead content.origin.path content.entries.length :: events else events
  | .done _ => []
  | .failed _ _ => []

def stage (id : TableId) (location : String) (content : Markup.Stream) :
    LibraryM (Except TableError (List Phrase × List EntryError)) := do
  match Document.ofStream content with
  | .error fault => return .error (.document location fault)
  | .ok opened =>
    if !opened.header.locale.isEmpty then
      log (.readingDocument ((← get).table id).name location opened.header.locale)
    logAll (sectionEvents opened.sections)
    match opened.sections.all with
    | .error fault => return .error (.document location fault)
    | .ok sections => return .ok (phrasesOf (sections.flatMap Section.entries))

/-- Puts phrases into a table one after the other; the errors are those of the phrases that were
left out. -/
def insertAll (id : TableId) (overwrite : Bool) : List Phrase → LibraryM (List EntryError)
  | [] => return []
  | phrase :: rest => do
    let outcome ← insert id phrase overwrite
    let errors ← insertAll id overwrite rest
    match outcome with
    | .ok _ => return errors
    | .error error => return error :: errors

def logRejected (id : TableId) (location : String) (rejected : List EntryError) :
    LibraryM Unit := do
  let name := ((← get).table id).name
  logAll (rejected.map fun error => .entryRejected name location error.message)

/-- Adds the entries of a document to a table. -/
def populate (id : TableId) (content : Markup.Stream) (overwrite : Bool) :
    LibraryM (Except TableError LoadReport) := do
  let table := (← get).table id
  let location := table.status.location.getD table.name
  match ← stage id location content with
  | .error error => return .error error
  | .ok (phrases, errors) =>
    let collisions ← insertAll id overwrite phrases
    let rejected := errors ++ collisions
    logRejected id location rejected
    return .ok ⟨phrases.length - collisions.length, rejected⟩

/-- Replaces the entries of a table by those of a document. -/
def reload (id : TableId) (location : String) (content : Markup.Stream) :
    LibraryM (Except TableError LoadReport) := do
  match ← stage id location content with
  | .error error => return .error error
  | .ok (phrases, errors) =>
    clear id
    let collisions ← insertAll id false phrases
    let rejected := errors ++ collisions
    logRejected id location rejected
    return .ok ⟨((← get).table id).entries.size, rejected⟩

end Library

end Phrasebook
