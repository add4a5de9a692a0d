import Phrasebook.Library.Loading
import Phrasebook.Library.Lookup
import Phrasebook.Storage.Store

/-!
# Catalogs

A catalog hands out the string tables of one locale at a time, loads them from a store when they are
first asked for, and keeps them. When the locale changes, a table follows in place when it is next
asked for. While a resource is being opened others may act on the catalog; what they do is put down
beforehand as interruptions, each of which takes place at the next opening of its location, after the
resource was opened, or could not be opened, and before it is read.
-/

namespace Phrasebook

open Phrasebook.Storage

/-- What a table is asked for by. -/
structure TableKey where
  folder : String
  name : String
deriving DecidableEq, Repr

namespace TableKey

/-- Keys are ordered by folder and then by name. -/
instance : Ord TableKey := ⟨compareLex (compareOn TableKey.folder) (compareOn TableKey.name)⟩

instance : Std.TransOrd TableKey :=
  inferInstanceAs (Std.TransCmp (compareLex (compareOn TableKey.folder) (compareOn TableKey.name)))

instance : Std.LawfulEqOrd TableKey where
  eq_of_compare {a b} h := by
    have h : (compare a.folder b.folder).then (compare a.name b.name) = .eq := h
    rw [Ordering.then_eq_eq] at h
    cases a
    cases b
    simp_all

/-- A key in one text, which is also the name of its table. -/
def text (key : TableKey) : String :=
  if key.folder.isEmpty then key.name else key.folder ++ "/" ++ key.name

end TableKey

/-- What someone may do to a catalog while a resource is being opened. -/
inductive Action where
  | load (key : TableKey) (optional force : Bool)
  | setLocale (locale : String)
  | reloadAll
  | put (location : String) (bytes : Text.Bytes)
  | putForeign (location : String) (bytes : Text.Bytes)
  | remove (location : String)
deriving DecidableEq, Repr

structure Catalog where
  locale : String
  locator : Locator := {}
  store : Store := .inMemory
  library : Library := {}
  /-- The tables that were loaded. -/
  cache : Std.TreeMap TableKey TableId := ∅
  /-- The table without entries, once someone has asked for it. -/
  empty : Option TableId := none
  /-- What others do at the next opening of a location. -/
  interruptions : Std.TreeMap String (List Action) := ∅

abbrev CatalogM := StateM Catalog

namespace Catalog

def inLibrary {α : Type} (step : LibraryM α) : CatalogM α := do
  let catalog ← get
  let (a, library) := step.run catalog.library
  set { catalog with library := library }
  return a

def log (event : LibraryEvent) : CatalogM Unit := inLibrary (Library.log event)

/-- Changes the locale. Tables follow when they are next asked for. -/
def setLocale (locale : String) : CatalogM Unit := do
  let previous := (← get).locale
  modify fun catalog => { catalog with locale := locale }
  if previous ≠ locale then log (.localeChanged previous locale)

/-- Lets an observer hear of the keys that any loaded table lacks. -/
def listen (observer : Observer) : CatalogM Unit := inLibrary (Library.listen observer)

def cached? (catalog : Catalog) (key : TableKey) : Option TableId := catalog.cache[key]?

def size (catalog : Catalog) : Nat := catalog.cache.size

/-- Lets go of all tables. Those who hold one may go on using it. -/
def clearCache : CatalogM Unit := modify fun catalog => { catalog with cache := ∅ }

/-- A table without entries, always the same. -/
def emptyTable : CatalogM TableId := do
  match (← get).empty with
  | some id => return id
  | none =>
    let id ← inLibrary (Library.addTable "<empty>" false)
    modify fun catalog => { catalog with empty := some id }
    return id

def locate (catalog : Catalog) (key : TableKey) (locale : String) : String :=
  catalog.locator.locate key.folder key.name locale

def inStore (f : Store → Store) : CatalogM Unit :=
  modify fun catalog => { catalog with store := f catalog.store }

/-- Puts down what others do at the next opening of a location. -/
def interrupt (location : String) (actions : List Action) : CatalogM Unit :=
  modify fun catalog => { catalog with interruptions := catalog.interruptions.insert location actions }

def describe (catalog : Catalog) : String :=
  let names := (catalog.cache.keys.map TableKey.text).mergeSort fun a b => decide (a ≤ b)
  "TableCollection \x7b locale: " ++ Text.quoted catalog.locale ++
    ", tables: [" ++ ", ".intercalate (names.map Text.quoted) ++ "], .. \x7d"

end Catalog

end Phrasebook
