import Phrasebook.Library.Basic
import Phrasebook.Output.Rendering
import Phrasebook.Text.Blank

/-!
# Looking Up

A lookup asks a table, and on a miss tells those who want to hear of it and goes on with the table's
fallback. The last table of the chain answers for a key that none has: with its stand-in if the key
is optional, with an error otherwise. An observer that breaks down is noted and harms nobody else.
-/

namespace Phrasebook.Library

def notice (notice : Notice) : LibraryM Unit :=
  modify fun library => { library with notices := library.notices ++ [notice] }

def notifyOne (id : TableId) (key : String) (observer : Observer) : LibraryM Unit := do
  let table := (← get).table id
  let leave (finding : Finding) := notice ⟨observer.label, table.name, key, finding⟩
  match observer.reaction with
  | .note => leave .heard
  | .probe => leave (.probed (table.entries.contains key) table.entries.size)
  | .supply text =>
    match ← addRaw id key text false with
    | .ok _ => leave (.supplied true)
    | .error _ => leave (.supplied false)
  | .fail => log (.observerFailed table.name key)

/-- Lets observers hear of a key that a table lacks, one after the other. -/
def notifyAll (id : TableId) (key : String) : List Observer → LibraryM Unit
  | [] => pure ()
  | observer :: rest => do
    notifyOne id key observer
    notifyAll id key rest

/-- Lets everybody hear of a key that a table lacks: the listeners first if the table relays, and
then its own observers. -/
def notify (id : TableId) (key : String) : LibraryM Unit := do
  let library ← get
  let table := library.table id
  let relayed := if table.relays then library.listeners else []
  notifyAll id key (relayed ++ table.observers)

/-- Asks tables one after the other; the last one answers for a key that none has. -/
def getAlong (key : String) (optional : Bool) :
    List TableId → LibraryM (Except LookupError Shared)
  | [] => return .error (.keyNotFound "" key)
  | id :: rest => do
    let table := (← get).table id
    match table.entries[key]? with
    | some shared => return .ok shared
    | none =>
      log (.missingString table.name key optional)
      notify id key
      match rest with
      | next :: rest => getAlong key optional (next :: rest)
      | [] =>
        if optional then return .ok (← standIn id key)
        else return .error (.keyNotFound table.name key)

def find (id : TableId) (key : String) (optional : Bool) :
    LibraryM (Except LookupError Shared) := do
  if Text.isBlankText key then return .error .blankKey
  getAlong key optional ((← get).lookupPath id)

/-- A table as the source of nested templates: absent keys lead to stand-ins. -/
def source (id : TableId) : Source Library := fun key library =>
  match (find id key true).run library with
  | (.ok shared, library) => (.ok shared.phrase, library)
  | (.error e, library) => (.error e, library)

/-- The number format of the locale that a table was filled for. -/
def numberFormat (library : Library) (id : TableId) : NumberFormat :=
  match (library.table id).status.locale with
  | some locale => .forLocale locale
  | none => {}

/-- Renders the phrase that a table has under a key, with the table as the source of nested
templates. -/
def render (id : TableId) (key : String) (resolve : Resolver Library) :
    LibraryM (Except Failure String) := do
  match ← find id key true with
  | .error e => return .error (.render (.lookup e))
  | .ok shared =>
    let library ← get
    let desk : Desk Library :=
      { output := { format := library.numberFormat id }, pool := {}, world := library }
    let (result, desk) := shared.phrase.render resolve desk
    set desk.world
    match result with
    | .ok () => return .ok desk.output.text
    | .error e => return .error e

end Phrasebook.Library
