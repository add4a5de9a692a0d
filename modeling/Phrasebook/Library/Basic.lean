import Phrasebook.Document.Fault
import Phrasebook.Library.Journal
import Phrasebook.Template.Token
import Std.Data.TreeMap

/-!
# Libraries

A library holds string tables, maps from keys to phrases. Every phrase that is put into a table gets
an identity of its own, and so does the stand-in for a key that a table lacks, which is made once for
the table and the key. Tables are never renumbered.
-/

namespace Phrasebook

/-- A phrase with its identity. -/
structure Shared where
  identity : Nat
  phrase : Phrase
deriving DecidableEq, Repr

/-- What an observer does when it hears of a missing key. -/
inductive Reaction where
  /-- It leaves a notice. -/
  | note
  /-- It looks whether the table has the key by now and how many entries there are. -/
  | probe
  /-- It adds the key with a text of its own. -/
  | supply (text : String)
  /-- It breaks down. -/
  | fail
deriving DecidableEq, Repr

/-- Someone who wants to hear of missing keys. -/
structure Observer where
  label : String
  reaction : Reaction
deriving DecidableEq, Repr

/-- What an observer found. -/
inductive Finding where
  | heard
  | probed (present : Bool) (size : Nat)
  | supplied (added : Bool)
deriving DecidableEq, Repr

structure Notice where
  label : String
  table : String
  key : String
  finding : Finding
deriving DecidableEq, Repr

/-- What is known about the resource of a table. -/
structure Status where
  /-- The locale that the table was last filled for. -/
  locale : Option String := none
  /-- Whether the resource was absent then. -/
  missing : Bool := false
  location : Option String := none
  /-- How many entries of the resource could not be loaded. -/
  rejected : Nat := 0
deriving DecidableEq, Repr

abbrev TableId := Nat

/-- The phrases of a table by key. -/
abbrev Entries := Std.TreeMap String Shared

structure Table where
  name : String
  entries : Entries := ∅
  /-- The table that is asked for keys that this one lacks. -/
  fallback : Option TableId := none
  /-- Whether the library's listeners hear of missing keys, before the table's observers do. -/
  relays : Bool := false
  observers : List Observer := []
  status : Status := {}
  /-- How often the entries were replaced as a whole. -/
  generation : Nat := 0

instance : Inhabited Table := ⟨{ name := "" }⟩

inductive EntryError where
  | template (error : TemplateError)
  | duplicateKey (table key : String)
deriving DecidableEq, Repr

def EntryError.message : EntryError → String
  | template error => error.message
  | duplicateKey table key =>
    "key " ++ code key ++ " already exists in string table " ++ code table

inductive TableError where
  | entry (error : EntryError)
  | lookup (error : LookupError)
  | document (location : String) (fault : Document.Fault)
  | notFound (location : String)
  /-- A resource could not be opened, for a reason that the system words. -/
  | unreadable (location reason : String)
  | fallbackCycle (table fallback : String)
  /-- Entries of a resource were left out. -/
  | rejected (location : String) (errors : List EntryError)
deriving DecidableEq, Repr

namespace TableError

def message : TableError → String
  | entry error => error.message
  | lookup error => error.message
  | document location fault => "malformed string table " ++ code location ++ ": " ++ fault.message
  | notFound location => "string table resource " ++ code location ++ " not found"
  | unreadable location reason => "I/O error reading " ++ code location ++ ": " ++ reason
  | fallbackCycle table fallback =>
    "making " ++ code fallback ++ " the fallback of " ++ code table ++ " would create a cycle"
  | rejected location errors =>
    "string table " ++ code location ++ " rejected " ++ Numeral.decimal errors.length ++
      " entries; first: " ++ (errors.head?.map EntryError.message).getD ""

/-- Whether the resource of a table is to blame, and not what its entries say. -/
def isResourceError : TableError → Bool
  | document _ _ => true
  | notFound _ => true
  | unreadable _ _ => true
  | _ => false

end TableError

structure Library where
  tables : Std.TreeMap TableId Table := ∅
  nextTable : TableId := 0
  nextIdentity : Nat := 0
  /-- The stand-ins for missing keys, by table. -/
  standIns : Std.TreeMap TableId (Std.TreeMap String Shared) := ∅
  /-- Observers of all tables that relay. -/
  listeners : List Observer := []
  notices : List Notice := []
  journal : Journal := {}

abbrev LibraryM := StateM Library

namespace Library

def table (library : Library) (id : TableId) : Table := library.tables.getD id default

def modifyTable (id : TableId) (f : Table → Table) (library : Library) : Library :=
  { library with tables := library.tables.modify id f }

def log (event : LibraryEvent) : LibraryM Unit :=
  modify fun library => { library with journal := library.journal.log event }

def logAll (events : List LibraryEvent) : LibraryM Unit :=
  modify fun library => { library with journal := events.foldl Journal.log library.journal }

/-- Adds a table without entries. -/
def addTable (name : String) (relays : Bool) : LibraryM TableId := do
  let library ← get
  let id := library.nextTable
  set { library with
    tables := library.tables.insert id { name := name, relays := relays }
    nextTable := id + 1 }
  return id

/-- Removes a table that nobody uses any more, with its stand-ins. -/
def dropTable (id : TableId) : LibraryM Unit :=
  modify fun library =>
    { library with tables := library.tables.erase id, standIns := library.standIns.erase id }

/-- Gives a phrase an identity. -/
def share (phrase : Phrase) : LibraryM Shared := do
  let library ← get
  set { library with nextIdentity := library.nextIdentity + 1 }
  return ⟨library.nextIdentity, phrase⟩

/-- The stand-in for a key that a table lacks, which is made when it is first asked for. -/
def standIn (id : TableId) (key : String) : LibraryM Shared := do
  let library ← get
  let known := library.standIns.getD id ∅
  match known[key]? with
  | some shared => return shared
  | none =>
    let shared ← share (.missing key)
    modify fun library => { library with standIns := library.standIns.insert id (known.insert key shared) }
    return shared

def standInCount (library : Library) (id : TableId) : Nat := (library.standIns.getD id ∅).size

def forgetStandIns (id : TableId) : LibraryM Unit :=
  modify fun library => { library with standIns := library.standIns.erase id }

/-- Puts a phrase into a table under its own name. Unless `overwrite` is set, a key that is taken
keeps its phrase. -/
def insert (id : TableId) (phrase : Phrase) (overwrite : Bool) :
    LibraryM (Except EntryError Shared) := do
  let shared ← share phrase
  let table := (← get).table id
  if !overwrite && table.entries.contains phrase.name then
    return .error (.duplicateKey table.name phrase.name)
  modify (modifyTable id fun table =>
    { table with entries := table.entries.insert phrase.name shared })
  return .ok shared

def add (id : TableId) (key text : String) (overwrite : Bool) :
    LibraryM (Except EntryError Shared) :=
  match Phrase.read .template key text with
  | .ok phrase => insert id phrase overwrite
  | .error error => return .error (.template error)

def addRaw (id : TableId) (key text : String) (overwrite : Bool) :
    LibraryM (Except EntryError Shared) :=
  insert id (.raw key text) overwrite

def clear (id : TableId) : LibraryM Unit :=
  modify (modifyTable id fun table =>
    { table with entries := ∅, generation := table.generation + 1 })

/-- Lets an observer hear of the keys that a table lacks. -/
def observe (id : TableId) (observer : Observer) : LibraryM Unit :=
  modify (modifyTable id fun table => { table with observers := table.observers ++ [observer] })

/-- Lets an observer hear of the keys that any relaying table lacks. -/
def listen (observer : Observer) : LibraryM Unit :=
  modify fun library => { library with listeners := library.listeners ++ [observer] }

def setStatus (id : TableId) (status : Status) : LibraryM Unit :=
  modify (modifyTable id fun table => { table with status := status })

/-- The tables that a lookup asks one after the other, at most `fuel` of them after the first. -/
def chain (library : Library) : Nat → TableId → List TableId
  | 0, id => [id]
  | fuel + 1, id =>
    match (library.table id).fallback with
    | some next => id :: library.chain fuel next
    | none => [id]

def lookupPath (library : Library) (id : TableId) : List TableId :=
  library.chain library.tables.size id

/-- Sets or removes the table that is asked for keys that a table lacks. A table that would come to
ask itself is refused. -/
def setFallback (id : TableId) (fallback : Option TableId) : LibraryM (Except TableError Unit) := do
  let library ← get
  match fallback with
  | some next =>
    if (library.lookupPath next).contains id then
      return .error (.fallbackCycle (library.table id).name (library.table next).name)
  | none => pure ()
  set (modifyTable id (fun table => { table with fallback := fallback }) library)
  return .ok ()

end Library

def describeOption : Option String → String
  | some s => "Some(" ++ Text.quoted s ++ ")"
  | none => "None"

def Status.describe (status : Status) : String :=
  "TableStatus \x7b locale: " ++ describeOption status.locale ++
    ", missing_resource: " ++ (if status.missing then "true" else "false") ++
    ", location: " ++ describeOption status.location ++
    ", rejected: " ++ Numeral.decimal status.rejected ++ " \x7d"

def Library.describe (library : Library) (id : TableId) : String :=
  let table := library.table id
  "Table \x7b name: " ++ Text.quoted table.name ++
    ", entries: " ++ Numeral.decimal table.entries.size ++
    ", fallback: " ++ describeOption (table.fallback.map fun next => (library.table next).name) ++
    ", status: " ++ table.status.describe ++ " \x7d"

end Phrasebook
