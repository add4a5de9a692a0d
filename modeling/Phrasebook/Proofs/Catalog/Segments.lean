import Phrasebook.Proofs.Catalog.Filling

/-!
# The parts of a load

A load and a reload do their work in parts, between which others may act: a resource is opened, and
what was opened is read. Each part has its equation here. No part changes the setting of a catalog,
its locale and what its store holds; only the openings are noted.
-/

namespace Phrasebook

open Phrasebook.Document (Entry)
open Phrasebook.Storage

namespace Catalog

/-- What opening a location gives. -/
def found (catalog : Catalog) (location : String) : Opened := (catalog.store.openAt location).1

theorem contentNow_lookup {store : Store} {backing : Backing} (same : store.backing = backing)
    (location : String) :
    store.contentNow location (Store.lookup backing location) = Store.lookup backing location := by
  cases h : Store.lookup backing location with
  | absent => rfl
  | failed reason => rfl
  | content stream =>
    unfold Store.contentNow
    rw [same]
    cases backing with
    | memory documents foreign => rfl
    | disk tree =>
      dsimp only
      cases read : tree.read location with
      | error error => rfl
      | ok bytes =>
        unfold Store.lookup at h
        dsimp only at h
        split at h
        · simpa [read, markupOf] using h
        · cases h
        · cases h

/-- The catalogs find the same at every location. -/
structure SameStore (before after : Catalog) : Prop where
  locator : after.locator = before.locator
  backing : after.store.backing = before.store.backing
  broken : after.store.broken = before.store.broken

namespace SameStore

variable {before middle after : Catalog}

theorem refl (catalog : Catalog) : SameStore catalog catalog := ⟨rfl, rfl, rfl⟩

theorem trans (first : SameStore before middle) (second : SameStore middle after) :
    SameStore before after where
  locator := second.locator.trans first.locator
  backing := second.backing.trans first.backing
  broken := second.broken.trans first.broken

theorem locate (same : SameStore before after) (key : TableKey) (locale : String) :
    after.locate key locale = before.locate key locale := by
  rw [Catalog.locate, Catalog.locate, same.locator]

theorem found (same : SameStore before after) (location : String) :
    after.found location = before.found location := by
  unfold Catalog.found Store.openAt
  rw [same.broken, same.backing]
  cases before.store.broken[location]? with
  | none => rfl
  | some reason => rfl

/-- What was opened is still there when it is read. -/
theorem contentNow (same : SameStore before after) (location : String) :
    after.store.contentNow location (before.found location) = before.found location := by
  unfold Catalog.found Store.openAt
  cases before.store.broken[location]? with
  | some reason => rfl
  | none => exact contentNow_lookup same.backing location

end SameStore

/-- The catalogs have the same locale and find the same at every location. -/
structure SameSetting (before after : Catalog) : Prop extends SameStore before after where
  locale : after.locale = before.locale

namespace SameSetting

variable {before middle after : Catalog}

theorem refl (catalog : Catalog) : SameSetting catalog catalog := ⟨.refl catalog, rfl⟩

theorem trans (first : SameSetting before middle) (second : SameSetting middle after) :
    SameSetting before after :=
  ⟨first.toSameStore.trans second.toSameStore, second.locale.trans first.locale⟩

end SameSetting

/-- Every table that is kept is there, and no table is kept for two keys. -/
structure Indexed (catalog : Catalog) : Prop where
  bounded : ∀ id, id ∈ catalog.library.tables → id < catalog.library.nextTable
  known : ∀ key id, catalog.cached? key = some id → id ∈ catalog.library.tables
  distinct : ∀ key other id, catalog.cached? key = some id → catalog.cached? other = some id →
    key = other

/-- Nothing changed but the journal and the openings of the store. -/
structure Noted (before after : Catalog) : Prop where
  setting : SameSetting before after
  interruptions : after.interruptions = before.interruptions
  cache : after.cache = before.cache
  empty : after.empty = before.empty
  recorded : Library.Recorded before.library after.library

theorem Noted.refl (catalog : Catalog) : Noted catalog catalog :=
  ⟨.refl catalog, rfl, rfl, rfl, _, rfl⟩

theorem Noted.trans {before middle after : Catalog} (first : Noted before middle)
    (second : Noted middle after) : Noted before after where
  setting := first.setting.trans second.setting
  interruptions := second.interruptions.trans first.interruptions
  cache := second.cache.trans first.cache
  empty := second.empty.trans first.empty
  recorded := first.recorded.trans second.recorded

/-! ## Opening -/

@[simps locale locator library cache empty interruptions]
def afterOpening (catalog : Catalog) (location : String) : Catalog :=
  { catalog with store := (catalog.store.openAt location).2 }

theorem noted_afterOpening (catalog : Catalog) (location : String) :
    Noted catalog (catalog.afterOpening location) := by
  unfold afterOpening Store.openAt
  cases catalog.store.broken[location]? with
  | none => exact ⟨⟨⟨rfl, rfl, rfl⟩, rfl⟩, rfl, rfl, rfl, _, rfl⟩
  | some reason => exact ⟨⟨⟨rfl, rfl, rfl⟩, rfl⟩, rfl, rfl, rfl, _, rfl⟩

/-- The table of a key with its resource as it is found for a locale. -/
def filling (catalog : Catalog) (key : TableKey) (id : TableId) (target : String)
    (optional : Bool) : Filling :=
  ⟨key, id, catalog.locate key target, target, optional,
    catalog.found (catalog.locate key target)⟩

theorem SameStore.filling {before after : Catalog} (same : SameStore before after)
    (key : TableKey) (id : TableId) (target : String) (optional : Bool) :
    after.filling key id target optional = before.filling key id target optional := by
  rw [Catalog.filling, Catalog.filling, same.locate, same.found]

@[simps locale locator store library cache empty interruptions]
def journaling (catalog : Catalog) (f : Journal → Journal) : Catalog :=
  { catalog with library.journal := f catalog.library.journal }

theorem noted_journaling (catalog : Catalog) (f : Journal → Journal) :
    Noted catalog (catalog.journaling f) :=
  ⟨⟨⟨rfl, rfl, rfl⟩, rfl⟩, rfl, rfl, rfl, _, rfl⟩

@[simp] theorem log_run (event : LibraryEvent) (catalog : Catalog) :
    (log event).run catalog = ((), catalog.journaling (·.log event)) := rfl

@[simp] theorem enter_run (catalog : Catalog) :
    (inLibrary (modify fun library ↦ { library with journal := library.journal.enter })).run catalog =
      ((), catalog.journaling .enter) := rfl

@[simp] theorem leave_run (catalog : Catalog) :
    (inLibrary (modify fun library ↦ { library with journal := library.journal.leave })).run catalog =
      ((), catalog.journaling .leave) := rfl

theorem noted_log (event : LibraryEvent) (catalog : Catalog) :
    Noted catalog ((log event).run catalog).2 :=
  noted_journaling catalog (·.log event)

/-- The catalog after the resource of a table that is kept was opened. -/
def openedAgain (catalog : Catalog) (key : TableKey) (target : String) : Catalog :=
  (catalog.journaling (·.log (.reloading key.text (catalog.locate key target) target))).afterOpening
    (catalog.locate key target)

theorem noted_openedAgain (catalog : Catalog) (key : TableKey) (target : String) :
    Noted catalog (catalog.openedAgain key target) :=
  (noted_journaling catalog _).trans (noted_afterOpening _ _)

@[simp] theorem openAgain_run (key : TableKey) (id : TableId) (target : String) (optional : Bool)
    (catalog : Catalog) :
    (openAgain key id target optional).run catalog =
      (catalog.filling key id target optional, catalog.openedAgain key target) := rfl

@[simps locale locator store library cache empty interruptions]
def adding (catalog : Catalog) (name : String) : Catalog :=
  { catalog with library := catalog.library.adding name true }

def openedNew (catalog : Catalog) (key : TableKey) (target : String) : Catalog :=
  (catalog.adding key.text).afterOpening (catalog.locate key target)

theorem noted_openedNew (catalog : Catalog) (key : TableKey) (target : String) :
    Noted (catalog.adding key.text) (catalog.openedNew key target) :=
  noted_afterOpening _ _

theorem sameSetting_adding (catalog : Catalog) (name : String) :
    SameSetting catalog (catalog.adding name) := ⟨⟨rfl, rfl, rfl⟩, rfl⟩

@[simp] theorem openNew_run (key : TableKey) (target : String) (optional : Bool) (catalog : Catalog) :
    (openNew key target optional).run catalog =
      (catalog.filling key catalog.library.nextTable target optional,
        catalog.openedNew key target) := rfl

/-! ## Reading -/

theorem finish_run (filling : Filling) (reloading : Bool) (catalog : Catalog) :
    (filling.finish reloading).run catalog =
      let opened := catalog.store.contentNow filling.location filling.opened
      let filled := (takeIn filling.id filling.location filling.target filling.optional reloading
        opened).run catalog.library
      (filled.1, { catalog with library := filled.2 }) := rfl

/-- Filling a table changes nothing but the library, and in it no other table. -/
structure Finished (filling : Filling) (reloading : Bool) (before after : Catalog)
    (result : Except TableError Unit) : Prop where
  others : after = { before with library := after.library }
  frame : Library.SameBut filling.id before.library after.library
  outcome : Outcome filling.location filling.target filling.optional reloading
    (before.library.table filling.id) (after.library.table filling.id)
    (contentsOf filling.location (before.store.contentNow filling.location filling.opened)) result

theorem finished_run (filling : Filling) (reloading : Bool) {catalog : Catalog}
    (known : filling.id ∈ catalog.library.tables) :
    Finished filling reloading catalog ((filling.finish reloading).run catalog).2
      ((filling.finish reloading).run catalog).1 := by
  obtain ⟨frame, outcome⟩ := takeIn_run filling.location filling.target filling.optional reloading
    (catalog.store.contentNow filling.location filling.opened) known
  exact ⟨rfl, frame, outcome⟩

theorem isCurrent_iff {catalog : Catalog} {id : TableId} {target : String} :
    catalog.isCurrent id target = true ↔ (catalog.library.table id).status.rejected = 0 ∧
      (catalog.library.table id).status.locale = some target := by
  simp [isCurrent]

/-- A table that was filled without a failure holds all entries for the locale. -/
theorem Finished.isCurrent {filling : Filling} {reloading : Bool} {before after : Catalog}
    (finished : Finished filling reloading before after (.ok ())) :
    after.isCurrent filling.id filling.target = true := by
  obtain ⟨locale, rejected, -⟩ := finished.outcome.rejected_of_ok
  exact isCurrent_iff.2 ⟨rejected, locale⟩

@[simps locale locator store library cache empty interruptions]
def keeping (catalog : Catalog) (key : TableKey) (id : TableId) : Catalog :=
  { catalog with cache := catalog.cache.insert key id }

@[simps locale locator store library cache empty interruptions]
def dropping (catalog : Catalog) (id : TableId) : Catalog :=
  { catalog with library := catalog.library.dropping id }

@[simp] theorem dropTable_run (id : TableId) (catalog : Catalog) :
    (inLibrary (Library.dropTable id)).run catalog = ((), catalog.dropping id) := rfl

section

variable (catalog : Catalog) (key : TableKey) (id : TableId)

@[simp] theorem cached?_journaling (f : Journal → Journal) :
    (catalog.journaling f).cached? key = catalog.cached? key := rfl

@[simp] theorem cached?_dropping : (catalog.dropping id).cached? key = catalog.cached? key := rfl

@[simp] theorem cached?_keeping (owner : TableKey) : (catalog.keeping owner id).cached? key =
    if owner = key then some id else catalog.cached? key := by
  simp [cached?, Std.TreeMap.getElem?_insert]

variable {catalog key id} in
theorem of_cached?_keeping {owner : TableKey} {number : TableId}
    (held : (catalog.keeping owner id).cached? key = some number) :
    key = owner ∧ number = id ∨ catalog.cached? key = some number := by
  rw [cached?_keeping] at held
  split at held
  · next same => exact .inl ⟨same.symm, (Option.some.inj held).symm⟩
  · exact .inr held

variable {catalog id} in
/-- A new table is kept for one key only. -/
theorem distinct_keeping (new : ∀ key, catalog.cached? key ≠ some id)
    (distinct : ∀ key other number, catalog.cached? key = some number →
      catalog.cached? other = some number → key = other)
    {owner other : TableKey} {number : TableId}
    (held : (catalog.keeping owner id).cached? key = some number)
    (held' : (catalog.keeping owner id).cached? other = some number) : key = other := by
  rcases of_cached?_keeping held with ⟨rfl, rfl⟩ | before
  · rcases of_cached?_keeping held' with ⟨rfl, -⟩ | before'
    · rfl
    · exact absurd before' (new other)
  · rcases of_cached?_keeping held' with ⟨-, rfl⟩ | before'
    · exact absurd before (new key)
    · exact distinct key other number before before'

end

theorem keep_run_of_none {filling : Filling} {catalog : Catalog}
    (h : catalog.cached? filling.key = none) :
    filling.keep.run catalog = (none, catalog.keeping filling.key filling.id) := by
  simp [Filling.keep, h, keeping]

theorem keep_run_of_some {filling : Filling} {catalog : Catalog} {winner : TableId}
    (h : catalog.cached? filling.key = some winner) :
    filling.keep.run catalog =
      (some winner, (catalog.journaling (·.log (.duplicateDiscarded filling.key.text))).dropping
        filling.id) := by
  simp [Filling.keep, h]

@[simp] theorem isMissing_run (id : TableId) (catalog : Catalog) :
    (isMissing id).run catalog = ((catalog.library.table id).status.missing, catalog) := by
  simp [isMissing]

theorem noted_report (filling : Filling) (report : ReloadReport) (catalog : Catalog) :
    Noted ((filling.finish true).run catalog).2 ((filling.report report).run catalog).2 := by
  cases outcome : ((filling.finish true).run catalog).1 with
  | ok _ =>
    simp only [Filling.report, run_bind, outcome, ↓run_ite]
    split
    all_goals exact .refl _
  | error error =>
    cases error with
    | rejected location errors => simpa [Filling.report, outcome] using .refl _
    | _ => simpa [Filling.report, outcome] using noted_journaling _ _

/-! ## Changing the locale -/

theorem setLocale_run (locale : String) (catalog : Catalog) :
    ∃ journal, (setLocale locale).run catalog =
      ((), { catalog with locale := locale, library.journal := journal }) := by
  by_cases same : catalog.locale = locale
  · exact ⟨catalog.library.journal, by simp [setLocale, same]⟩
  · exact ⟨catalog.library.journal.log (.localeChanged catalog.locale locale),
      by simp [setLocale, same, journaling]⟩

/-! ## Asking for a table -/

section

variable {catalog : Catalog} {key : TableKey} {id : TableId}

theorem refresh_of_current {force : Bool} {target : String}
    (current : (!force && catalog.isCurrent id target) = true) (interleave : Interleave)
    (optional : Bool) :
    (refresh interleave key id target optional force).run catalog = (.ok (), catalog) := by
  obtain ⟨unforced, filled⟩ : force = false ∧ catalog.isCurrent id target = true := by
    simpa using current
  simp [refresh, unforced, filled]

theorem refresh_of_stale {force : Bool} {target : String}
    (stale : (!force && catalog.isCurrent id target) = false) (interleave : Interleave)
    (optional : Bool) :
    (refresh interleave key id target optional force).run catalog =
      (reloadTable interleave key id target optional).run catalog := by
  cases force with
  | true => simp [refresh]
  | false =>
    have old : catalog.isCurrent id target = false := stale
    simp [refresh, old]

theorem request_of_cached (h : catalog.cached? key = some id) (interleave : Interleave)
    (target : String) (optional force : Bool) :
    (request interleave key target optional force).run catalog =
      let refreshed := (refresh interleave key id target optional force).run catalog
      (refreshed.1.map fun _ ↦ id, refreshed.2) := by
  cases outcome : ((refresh interleave key id target optional force).run catalog).1 with
  | ok _ => simp [request, h, outcome, Except.map]
  | error error => simp [request, h, outcome, Except.map]

theorem request_of_absent (h : catalog.cached? key = none) (interleave : Interleave)
    (target : String) (optional force : Bool) :
    (request interleave key target optional force).run catalog =
      (loadNew interleave key target optional).run catalog := by
  simp [request, h]

theorem reloadAllWith_run (interleave : Interleave) (catalog : Catalog) :
    (reloadAllWith interleave).run catalog =
      (reloadEach interleave catalog.locale catalog.cache.toList {}).run catalog := by
  rw [reloadAllWith, run_bind, run_get]

theorem loadWith_run (interleave : Interleave) (optional force : Bool) :
    (loadWith interleave key optional force).run catalog =
      let answered := (request interleave key catalog.locale optional force).run
        (catalog.journaling .enter)
      (answered.1, answered.2.journaling .leave) := by
  simp [loadWith]

end

/-! ## Asking for the table without entries -/

section

variable {catalog : Catalog}

/-- The catalog after someone asked for the table without entries for the first time. -/
@[simps locale locator store library cache empty interruptions]
def makingEmpty (catalog : Catalog) : Catalog :=
  { catalog with
    library := catalog.library.adding "<empty>" false
    empty := some catalog.library.nextTable }

theorem emptyTable_run_of_some {id : TableId} (made : catalog.empty = some id) :
    emptyTable.run catalog = (id, catalog) := by
  simp [emptyTable, made]

theorem emptyTable_run_of_none (absent : catalog.empty = none) :
    emptyTable.run catalog = (catalog.library.nextTable, catalog.makingEmpty) := by
  simp [emptyTable, absent, inLibrary, makingEmpty]

/-- The table without entries is there already, or is added. -/
theorem emptyTable_run_cases (catalog : Catalog) :
    (emptyTable.run catalog).2 = catalog ∨ (emptyTable.run catalog).2 = catalog.makingEmpty := by
  cases made : catalog.empty with
  | some id => exact .inl (congrArg Prod.snd (emptyTable_run_of_some made))
  | none => exact .inr (congrArg Prod.snd (emptyTable_run_of_none made))

end

end Catalog

end Phrasebook
