import Phrasebook.Numeral.Digits

/-!
# Journals

What happened to a library, in order, for whoever keeps watch over it. An event that happens while a
table is being loaded says so.
-/

namespace Phrasebook

inductive Severity where
  | debug
  | warning
deriving DecidableEq, Repr

def Severity.name : Severity → String
  | debug => "DEBUG"
  | warning => "WARN"

inductive LibraryEvent where
  | missingString (table key : String) (optional : Bool)
  | observerFailed (table key : String)
  | readingDocument (table location locale : String)
  | sectionRead (path : String) (entries : Nat)
  | entryRejected (table location error : String)
  | localeChanged (previous next : String)
  | reloading (table location locale : String)
  | loaded (table location locale : String) (entries rejected : Nat)
  | resourceVanished (table location locale : String)
  | resourceAbsent (table location locale : String)
  | resourceIgnored (table location error : String)
  | duplicateDiscarded (table : String)
  | reloadFailed (table error : String)
  | reloadedAll (reloaded missing rejected failed : Nat)
deriving DecidableEq, Repr

namespace LibraryEvent

def severity : LibraryEvent → Severity
  | observerFailed _ _ => .warning
  | entryRejected _ _ _ => .warning
  | resourceVanished _ _ _ => .warning
  | resourceIgnored _ _ _ => .warning
  | reloadFailed _ _ => .warning
  | _ => .debug

def topic : LibraryEvent → String
  | missingString _ _ _ => "fstr.table"
  | observerFailed _ _ => "fstr.table"
  | readingDocument _ _ _ => "fstr.table"
  | entryRejected _ _ _ => "fstr.table"
  | sectionRead _ _ => "fstr.doc"
  | _ => "fstr.collection"

def summary : LibraryEvent → String
  | missingString _ _ _ => "missing string"
  | observerFailed _ _ => "missing-string hook panicked"
  | readingDocument _ _ _ => "reading document"
  | sectionRead _ _ => "read file section"
  | entryRejected _ _ _ => "rejected string table entry"
  | localeChanged _ _ => "target locale changed"
  | reloading _ _ _ => "reloading string table"
  | loaded _ _ _ _ _ => "loaded string table"
  | resourceVanished _ _ _ => "string table resource vanished"
  | resourceAbsent _ _ _ => "string table resource absent"
  | resourceIgnored _ _ _ => "unreadable optional string table treated as missing"
  | duplicateDiscarded _ => "concurrent load won, discarding duplicate"
  | reloadFailed _ _ => "reload failed"
  | reloadedAll _ _ _ _ => "reloaded all tables"

/-- The particulars of the event, by name in alphabetical order. -/
def details : LibraryEvent → List (String × String)
  | missingString table key optional =>
    [("key", key), ("optional", if optional then "true" else "false"), ("table", table)]
  | observerFailed table key => [("key", key), ("table", table)]
  | readingDocument table location locale =>
    [("locale", locale), ("location", location), ("table", table)]
  | sectionRead path entries => [("entries", Numeral.decimal entries), ("file", path)]
  | entryRejected table location error =>
    [("error", error), ("location", location), ("table", table)]
  | localeChanged previous next => [("from", previous), ("to", next)]
  | reloading table location locale =>
    [("locale", locale), ("location", location), ("table", table)]
  | loaded table location locale entries rejected =>
    [("entries", Numeral.decimal entries), ("locale", locale), ("location", location),
      ("rejected", Numeral.decimal rejected), ("table", table)]
  | resourceVanished table location locale =>
    [("locale", locale), ("location", location), ("table", table)]
  | resourceAbsent table location locale =>
    [("locale", locale), ("location", location), ("table", table)]
  | resourceIgnored table location error =>
    [("error", error), ("location", location), ("table", table)]
  | duplicateDiscarded table => [("table", table)]
  | reloadFailed table error => [("error", error), ("table", table)]
  | reloadedAll reloaded missing rejected failed =>
    [("failed", Numeral.decimal failed), ("missing", Numeral.decimal missing),
      ("rejected", Numeral.decimal rejected), ("reloaded", Numeral.decimal reloaded)]

end LibraryEvent

/-- An event, and whether it happened during a load. -/
structure Record where
  event : LibraryEvent
  loading : Bool
deriving DecidableEq, Repr

/-- The name of the work that a record was made during. -/
def Record.work? (record : Record) : Option String :=
  if record.loading then some "fstr.collection.load" else none

/-- The records so far, and how many loads are under way, one inside the other. -/
structure Journal where
  records : List Record := []
  loads : Nat := 0
deriving DecidableEq, Repr

namespace Journal

def log (journal : Journal) (event : LibraryEvent) : Journal :=
  { journal with records := journal.records ++ [⟨event, decide (0 < journal.loads)⟩] }

def enter (journal : Journal) : Journal := { journal with loads := journal.loads + 1 }

def leave (journal : Journal) : Journal := { journal with loads := journal.loads - 1 }

end Journal

end Phrasebook
