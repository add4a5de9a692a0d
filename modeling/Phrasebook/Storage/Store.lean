import Phrasebook.Markup.Stream
import Phrasebook.Storage.FileTree

/-!
# Stores

Where the documents of string tables are: in memory, or in files. Opening a location gives a
document's markup, or says that there is none, or fails. Locations that are out of order fail to
open. Every opening is noted.
-/

namespace Phrasebook.Storage

open Phrasebook.Markup Phrasebook.Text

/-- The markup of bytes, if they could be read. -/
def markupOf : Except FileError Bytes → Stream
  | .ok bytes => .ofBytes bytes
  | .error e => .failed (.unreadable e.message) 0

/-- What opening a location gives. -/
inductive Opened where
  | absent
  /-- The location cannot be opened, for a reason that the system words. -/
  | failed (reason : String)
  | content (stream : Stream)
deriving DecidableEq, Repr

/-- Where documents are kept. -/
inductive Backing where
  /-- In memory by location. Foreign documents are served from elsewhere, in front of the others. -/
  | memory (documents foreign : Std.TreeMap String Bytes)
  | disk (tree : FileTree)

structure Opening where
  location : String
  /-- Whether it was up to the documents in memory to answer. -/
  byMemory : Bool
deriving DecidableEq, Repr

structure Store where
  backing : Backing
  /-- Why locations that are out of order cannot be opened. -/
  broken : Std.TreeMap String String := ∅
  openings : List Opening := []

namespace Store

def inMemory : Store := { backing := .memory ∅ ∅ }

def onDisk (tree : FileTree) : Store := { backing := .disk tree }

/-- What a location holds, out of order or not. -/
def lookup (backing : Backing) (location : String) : Opened :=
  match backing with
  | .memory documents foreign =>
    match foreign[location]? <|> documents[location]? with
    | some bytes => .content (.ofBytes bytes)
    | none => .absent
  | .disk tree =>
    match tree.open? location with
    | .ok _ => .content (markupOf (tree.read location))
    | .error .notFound => .absent
    | .error e => .failed e.message

/-- Whether it is up to the documents in memory to say what a location holds. -/
def answersFromMemory (backing : Backing) (location : String) : Bool :=
  match backing with
  | .memory _ foreign => !foreign.contains location
  | .disk _ => false

def openAt (store : Store) (location : String) : Opened × Store :=
  let note (byMemory : Bool) := { store with openings := store.openings ++ [⟨location, byMemory⟩] }
  match store.broken[location]? with
  | some reason => (.failed reason, note false)
  | none => (lookup store.backing location, note (answersFromMemory store.backing location))

/-- What was opened at a location as it is read after a while: a document in memory stays what it was,
and a file has the content that was written to it last. -/
def contentNow (store : Store) (location : String) : Opened → Opened
  | .content stream =>
    match store.backing with
    | .memory _ _ => .content stream
    | .disk tree =>
      match tree.read location with
      | .ok bytes => .content (.ofBytes bytes)
      | .error _ => .content stream
  | opened => opened

def put (store : Store) (location : String) (bytes : Bytes) : Store :=
  match store.backing with
  | .memory documents foreign =>
    { store with backing := .memory (documents.insert location bytes) (foreign.erase location) }
  | .disk tree => { store with backing := .disk (tree.put location bytes) }

def putForeign (store : Store) (location : String) (bytes : Bytes) : Store :=
  match store.backing with
  | .memory documents foreign =>
    { store with backing := .memory documents (foreign.insert location bytes) }
  | .disk tree => { store with backing := .disk (tree.put location bytes) }

/-- Removes what is at a location, and says whether there was something. -/
def remove (store : Store) (location : String) : Bool × Store :=
  match store.backing with
  | .memory documents foreign =>
    (documents.contains location || foreign.contains location,
      { store with backing := .memory (documents.erase location) (foreign.erase location) })
  | .disk tree =>
    let (removed, tree) := tree.remove location
    (removed, { store with backing := .disk tree })

def contains (store : Store) (location : String) : Bool :=
  match store.backing with
  | .memory documents foreign => documents.contains location || foreign.contains location
  | .disk tree =>
    match tree.open? location with
    | .ok _ => true
    | .error _ => false

/-- Puts a location out of order, so that it cannot be opened. -/
def disable (store : Store) (location reason : String) : Store :=
  { store with broken := store.broken.insert location reason }

/-- Puts a location in order again, and says whether it was out of order. -/
def mend (store : Store) (location : String) : Bool × Store :=
  (store.broken.contains location, { store with broken := store.broken.erase location })

end Store

/-- How locations are put together from a folder, the name of a table and a locale. -/
structure Locator where
  /-- What stands between the name and the locale. -/
  separator : String := "_"
  /-- What stands behind the last point. -/
  extension : String := "xml"
deriving DecidableEq, Repr

def Locator.locate (locator : Locator) (folder name locale : String) : String :=
  let file := name ++ locator.separator ++ locale ++ "." ++ locator.extension
  if folder.isEmpty then file
  else match folder.toList.getLast? with
    | some '/' => folder ++ file
    | some '\\' => folder ++ file
    | _ => folder ++ "/" ++ file

end Phrasebook.Storage
