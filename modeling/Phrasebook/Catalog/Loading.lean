import Phrasebook.Catalog.Basic

/-!
# Loading Tables

A table that is not kept yet is filled from its resource and then kept, unless someone else was
faster; a table that is kept is filled again in place if it is stale. An optional table whose resource
is absent or unreadable is empty and says so. Entries that cannot be loaded fail a load in any case.

Opening a resource is where others may act. How they do is a parameter of each step here, and
`perform` supplies it: an interruption takes place once, so the number of interruptions bounds how
deep they can be nested.
-/

namespace Phrasebook.Catalog

open Phrasebook.Storage

/-- What others do at an opening. -/
abbrev Interleave := List Action → CatalogM Unit

/-- Opens a location before anyone else can act. -/
def openNow (location : String) : CatalogM Opened := do
  let catalog ← get
  let (opened, store) := catalog.store.openAt location
  set { catalog with store := store }
  return opened

/-- Empties a table and notes that its resource is missing. -/
def markMissing (id : TableId) (location locale : String) : LibraryM Unit := do
  Library.clear id
  Library.setStatus id { locale := some locale, missing := true, location := some location }

/-- Whether the resource of a table was missing when the table was last filled. -/
def isMissing (id : TableId) : CatalogM Bool := do
  return ((← get).library.table id).status.missing

/-- What comes of reading a resource that was opened; an absent one is no failure if `lenient`. -/
def readOpened (id : TableId) (location : String) (lenient : Bool) :
    Opened → LibraryM (Except TableError (Option LoadReport))
  | .content stream => do
    match ← Library.reload id location stream with
    | .ok report => return .ok (some report)
    | .error error => return .error error
  | .absent => if lenient then return .ok none else return .error (.notFound location)
  | .failed reason => return .error (.unreadable location reason)

/-- Fills a table from a resource that was opened and notes the outcome in its status. -/
def takeIn (id : TableId) (location locale : String) (optional reloading : Bool)
    (opened : Opened) : LibraryM (Except TableError Unit) := do
  match ← readOpened id location (optional || reloading) opened with
  | .ok (some report) =>
    let name := ((← get).table id).name
    Library.log (.loaded name location locale report.loaded report.rejected.length)
    Library.setStatus id
      { locale := some locale, location := some location, rejected := report.rejected.length }
    if report.isClean then return .ok () else return .error (.rejected location report.rejected)
  | .ok none =>
    let table := (← get).table id
    if reloading && !table.status.missing then
      Library.log (.resourceVanished table.name location locale)
    else Library.log (.resourceAbsent table.name location locale)
    markMissing id location locale
    return .ok ()
  | .error error =>
    if optional then
      Library.log (.resourceIgnored ((← get).table id).name location error.message)
      markMissing id location locale
      return .ok ()
    else return .error error

/-- A table that is about to be filled from a location that was opened. -/
structure Filling where
  key : TableKey
  id : TableId
  location : String
  target : String
  optional : Bool
  opened : Opened

def openFor (key : TableKey) (id : TableId) (target : String) (optional : Bool) :
    CatalogM Filling := do
  let location := (← get).locate key target
  let opened ← openNow location
  return ⟨key, id, location, target, optional, opened⟩

def openNew (key : TableKey) (target : String) (optional : Bool) : CatalogM Filling := do
  let id ← inLibrary (Library.addTable key.text true)
  openFor key id target optional

def openAgain (key : TableKey) (id : TableId) (target : String) (optional : Bool) :
    CatalogM Filling := do
  log (.reloading key.text ((← get).locate key target) target)
  openFor key id target optional

namespace Filling

/-- Lets others act if an interruption is put down for the location, before anything is read and
whether or not the opening failed. -/
def await (interleave : Interleave) (filling : Filling) : CatalogM Unit := do
  match (← get).interruptions[filling.location]? with
  | none => pure ()
  | some actions =>
    modify fun catalog =>
      { catalog with interruptions := catalog.interruptions.erase filling.location }
    interleave actions

/-- Reads what was opened, as it is by now, and fills the table with it. -/
def finish (filling : Filling) (reloading : Bool) : CatalogM (Except TableError Unit) := do
  let opened := (← get).store.contentNow filling.location filling.opened
  inLibrary (takeIn filling.id filling.location filling.target filling.optional reloading opened)

/-- Keeps a new table. If a table was kept for its key in the meantime, the new one is dropped and the
other one is the answer. -/
def keep (filling : Filling) : CatalogM (Option TableId) := do
  match (← get).cached? filling.key with
  | none =>
    modify fun catalog => { catalog with cache := catalog.cache.insert filling.key filling.id }
    return none
  | some winner =>
    log (.duplicateDiscarded filling.key.text)
    inLibrary (Library.dropTable filling.id)
    return some winner

end Filling

/-- Fills a table that is kept anew. -/
def reloadTable (interleave : Interleave) (key : TableKey) (id : TableId) (target : String)
    (optional : Bool) : CatalogM (Except TableError Unit) := do
  let filling ← openAgain key id target optional
  filling.await interleave
  filling.finish true

/-- Whether a table holds all entries for a locale. -/
def isCurrent (catalog : Catalog) (id : TableId) (target : String) : Bool :=
  let status := (catalog.library.table id).status
  status.rejected == 0 && status.locale == some target

/-- Fills a table that is kept anew if it is stale or if `force` is set. -/
def refresh (interleave : Interleave) (key : TableKey) (id : TableId) (target : String)
    (optional force : Bool) : CatalogM (Except TableError Unit) := do
  if !force && (← get).isCurrent id target then return .ok ()
  else reloadTable interleave key id target optional

/-- Fills a new table and keeps it; if a table was kept for the key in the meantime, the new one is
dropped. -/
def loadNew (interleave : Interleave) (key : TableKey) (target : String) (optional : Bool) :
    CatalogM (Except TableError TableId) := do
  let filling ← openNew key target optional
  filling.await interleave
  match ← filling.finish false with
  | .error error =>
    inLibrary (Library.dropTable filling.id)
    return .error error
  | .ok () =>
    match ← filling.keep with
    | none => return .ok filling.id
    | some winner =>
      match ← refresh interleave key winner target optional false with
      | .ok () => return .ok winner
      | .error error => return .error error

/-- Fills the table of a key for a locale if it is stale, or loads it if it is not kept yet. -/
def request (interleave : Interleave) (key : TableKey) (target : String) (optional force : Bool) :
    CatalogM (Except TableError TableId) := do
  match (← get).cached? key with
  | some id =>
    match ← refresh interleave key id target optional force with
    | .ok () => return .ok id
    | .error error => return .error error
  | none => loadNew interleave key target optional

def loadWith (interleave : Interleave) (key : TableKey) (optional force : Bool) :
    CatalogM (Except TableError TableId) := do
  let target := (← get).locale
  inLibrary (modify fun library => { library with journal := library.journal.enter })
  let result ← request interleave key target optional force
  inLibrary (modify fun library => { library with journal := library.journal.leave })
  return result

/-- What came of reloading all tables; every list is in the order of the keys. -/
structure ReloadReport where
  reloaded : List TableKey := []
  /-- Tables without a resource, which are empty now. -/
  missing : List TableKey := []
  /-- Tables without those of their entries that could not be loaded. -/
  rejected : List (TableKey × TableError) := []
  /-- Tables that were left as they were. -/
  failed : List (TableKey × TableError) := []
deriving DecidableEq, Repr

/-- Whether all tables hold all of their entries. -/
def ReloadReport.isClean (report : ReloadReport) : Bool :=
  report.failed.isEmpty && report.rejected.isEmpty

/-- Fills a table that is kept anew and adds what came of it to a report. -/
def Filling.report (filling : Filling) (report : ReloadReport) : CatalogM ReloadReport := do
  match ← filling.finish true with
  | .ok () =>
    if ← isMissing filling.id then return { report with missing := report.missing ++ [filling.key] }
    else return { report with reloaded := report.reloaded ++ [filling.key] }
  | .error (.rejected location errors) =>
    let entry := (filling.key, TableError.rejected location errors)
    return { report with rejected := report.rejected ++ [entry] }
  | .error error =>
    log (.reloadFailed filling.key.text error.message)
    return { report with failed := report.failed ++ [(filling.key, error)] }

def reloadEach (interleave : Interleave) (target : String) :
    List (TableKey × TableId) → ReloadReport → CatalogM ReloadReport
  | [], report => do
    log (.reloadedAll report.reloaded.length report.missing.length report.rejected.length
      report.failed.length)
    return report
  | (key, id) :: rest, report => do
    let filling ← openAgain key id target false
    filling.await interleave
    reloadEach interleave target rest (← filling.report report)

def reloadAllWith (interleave : Interleave) : CatalogM ReloadReport := do
  let catalog ← get
  reloadEach interleave catalog.locale catalog.cache.toList {}

def performWith (interleave : Interleave) : Action → CatalogM Unit
  | .load key optional force => do
    let _ ← loadWith interleave key optional force
  | .setLocale locale => setLocale locale
  | .reloadAll => do
    let _ ← reloadAllWith interleave
  | .put location bytes => inStore (·.put location bytes)
  | .putForeign location bytes => inStore (·.putForeign location bytes)
  | .remove location => inStore fun store => (store.remove location).2

/-- Does what actions say, with interruptions up to a depth. -/
def perform : Nat → Interleave
  | 0, _ => pure ()
  | depth + 1, actions => actions.forM (performWith (perform depth))

/-- Lets all interruptions that are put down take place. -/
def interleave : Interleave := fun actions => do
  perform ((← get).interruptions.size + 1) actions

/-- Asks for the table of a key for the current locale. A stale table is filled anew, and any table
if `force` is set. -/
def load (key : TableKey) (optional force : Bool) : CatalogM (Except TableError TableId) :=
  loadWith interleave key optional force

/-- Fills all tables that are kept anew for the current locale. -/
def reloadAll : CatalogM ReloadReport := reloadAllWith interleave

end Phrasebook.Catalog
