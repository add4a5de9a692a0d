import Phrasebook.Proofs.Catalog.Verdicts

/-!
# Resources that are out of order

A document that is malformed, or a resource that cannot be read, fails a load unless the table is
optional; then the table is empty and says that its resource is missing. Such a table counts as filled.
So a load that insists on the resource is told of the failure as long as nobody has asked for the table
as an optional one, and afterwards it is given the empty table, until the table is let go of or filled
for another locale.
-/

namespace Phrasebook.Catalog

open Phrasebook.Document (Entry)
open Phrasebook.Storage

/-- A location holds a malformed document, or what it holds cannot be read. -/
def BrokenAt (catalog : Catalog) (location : String) : Prop :=
  ∃ error, contentsOf location (catalog.found location) = .error error

/-- A table is kept for a key, was last filled for a locale, and lacks no entry. -/
structure FilledAs (catalog : Catalog) (key : TableKey) (locale : String) (id : TableId) : Prop where
  cached : catalog.cached? key = some id
  locale : (catalog.library.table id).status.locale = some locale
  complete : (catalog.library.table id).status.rejected = 0

/-- An optional load of a key emptied its table for a locale, and the table has been kept since then, and
has said that its resource is missing. -/
def Excused (start : Catalog) (happenings : List Happening) (key : TableKey) (locale : String) : Prop :=
  ∃ earlier force later, happenings = earlier ++ .operation (.load key true force) :: later ∧
    (start.afterAll earlier).locale = locale ∧
    ∀ seen, seen <+: later →
      let since := start.afterAll (earlier ++ .operation (.load key true force) :: seen)
      ∃ id, since.cached? key = some id ∧
        (since.library.table id).status = missingStatus (start.locate key locale) locale

section

variable {start catalog before after : Catalog} {key : TableKey} {id : TableId}
  {optional force reloading : Bool} {location target locale : String} {table filled : Table}
  {contents : Except TableError (Option (List Entry))} {happenings : List Happening}

/-- A table that is filled from a broken resource is emptied or kept as it was. -/
theorem Outcome.of_broken {result : Except TableError Unit}
    (outcome : Outcome location target optional reloading table filled contents result)
    (recorded : filled.status.locale = some locale)
    (broken : target = locale → ∃ error, contents = .error error) :
    (filled = table ∧ ∃ error, result = .error error) ∨
      optional = true ∧ target = locale ∧ filled.status = missingStatus location locale := by
  cases outcome with
  | kept strict cause same => exact .inl ⟨same, _, rfl⟩
  | filled mirrors same =>
    rw [same] at recorded
    obtain ⟨error, failed⟩ := broken (Option.some.inj recorded)
    cases failed
  | emptied lenient same =>
    rw [same] at recorded ⊢
    obtain rfl : target = locale := Option.some.inj recorded
    obtain ⟨error, rfl⟩ := broken rfl
    exact .inr ⟨(lenient.resolve_left nofun).2, rfl, rfl⟩

/-- A load from a broken location completes no table, unless it is optional and empties it. -/
theorem Load.of_broken {result : Except TableError TableId}
    (load : Load before key optional force after result)
    (filled : after.FilledAs key locale id)
    (broken : before.BrokenAt (before.locate key locale)) :
    before.FilledAs key locale id ∧
        (after.library.table id).status = (before.library.table id).status ∨
      optional = true ∧ before.locale = locale ∧
        (after.library.table id).status = missingStatus (before.locate key locale) locale := by
  have failed (same : before.locale = locale) : ∃ error, before.contents key = .error error := by
    subst same
    exact broken
  have emptied (empty : optional = true ∧ before.locale = locale ∧
      (after.library.table id).status = missingStatus (before.resource key) locale) :
      optional = true ∧ before.locale = locale ∧
        (after.library.table id).status = missingStatus (before.locate key locale) locale := by
    obtain ⟨lenient, rfl, status⟩ := empty
    exact ⟨lenient, rfl, status⟩
  obtain ⟨cached, recorded, complete⟩ := filled
  cases load with
  | @current number held idle current cache tables =>
    rw [cached?, cache] at cached
    rw [tables] at recorded complete ⊢
    exact .inl ⟨⟨cached, recorded, complete⟩, rfl⟩
  | @refilled number result held stale store cache tables outcome =>
    rw [cached?, cache] at cached
    obtain rfl : number = id := Option.some.inj (held.symm.trans cached)
    rcases outcome.of_broken recorded failed with ⟨same, -⟩ | empty
    · rw [same] at recorded complete ⊢
      exact .inl ⟨⟨cached, recorded, complete⟩, rfl⟩
    · exact .inr (emptied empty)
  | made absent store cache tables outcome =>
    rw [cached?, cache, Std.TreeMap.getElem?_insert_self] at cached
    obtain rfl := Option.some.inj cached
    rcases outcome.of_broken recorded failed with ⟨-, error, same⟩ | empty
    · cases same
    · exact .inr (emptied empty)
  | dropped absent store cache tables outcome =>
    rw [cached?, cache] at cached
    cases absent.symm.trans cached

/-- Filling all tables anew completes none whose location is broken. -/
theorem FilledAs.reloadAll (order : InOrder catalog)
    (filled : (Catalog.reloadAll.run catalog).2.FilledAs key locale id)
    (broken : catalog.BrokenAt (catalog.locate key locale)) :
    catalog.FilledAs key locale id ∧
      ((Catalog.reloadAll.run catalog).2.library.table id).status =
        (catalog.library.table id).status := by
  have refreshed : Refreshed catalog (Catalog.reloadAll.run catalog).2 :=
    reloadAllWith_refreshed order interleave
  obtain ⟨cached, recorded, complete⟩ := filled
  rw [refreshed.cached] at cached
  have unbroken {found : Option (List Entry)} {status : Status}
      (noted : ((Catalog.reloadAll.run catalog).2.library.table id).status = status)
      (target : status.locale = some catalog.locale) (read : catalog.contents key = .ok found) :
      False := by
    rw [noted, target] at recorded
    obtain rfl := Option.some.inj recorded
    obtain ⟨error, failed⟩ := broken
    cases read.symm.trans failed
  cases (reloadAllWith_judged order interleave).2 key id cached with
  | reloaded listed offered mirrors status =>
    exact (unbroken status rfl (offers_iff.1 offered)).elim
  | missing listed absent empty status =>
    exact (unbroken status rfl (contentsOf_eq_none_iff.2 absent)).elim
  | rejected listed offered some sifted mirrors status =>
    exact (unbroken status rfl (offers_iff.1 offered)).elim
  | failed listed cause broken kept =>
    have same : (Catalog.reloadAll.run catalog).2.library.table id = catalog.library.table id := kept
    rw [same] at recorded complete
    exact ⟨⟨cached, recorded, complete⟩, congrArg Table.status same⟩

/-- A table counts as filled for a locale whose resource is broken only if it did so before or an optional
load has emptied it. -/
theorem FilledAs.take {happening : Happening} (order : InOrder catalog)
    (filled : (happening.take catalog).FilledAs key locale id)
    (broken : catalog.BrokenAt (catalog.locate key locale)) :
    catalog.FilledAs key locale id ∧
        ((happening.take catalog).library.table id).status = (catalog.library.table id).status ∨
      (∃ force, happening = .operation (.load key true force)) ∧ catalog.locale = locale ∧
        ((happening.take catalog).library.table id).status =
          missingStatus (catalog.locate key locale) locale := by
  by_cases asked : happening.Loads key
  · obtain ⟨optional, force, rfl⟩ := Happening.loads_iff.1 asked
    refine ((load_outcome order key optional force).of_broken filled broken).imp_right ?_
    rintro ⟨rfl, emptied⟩
    exact ⟨⟨force, rfl⟩, emptied⟩
  · by_cases reload : happening = .operation .reloadAll
    · subst reload
      exact .inl (filled.reloadAll order broken)
    · obtain ⟨kept, status⟩ := happening.status_take order asked reload filled.cached
      have recorded := filled.locale
      have complete := filled.complete
      rw [status] at recorded complete
      exact .inl ⟨⟨kept, recorded, complete⟩, status⟩

/-! ## Runs -/

theorem Happening.locator_take (happening : Happening) (order : InOrder catalog) :
    (happening.take catalog).locator = catalog.locator := by
  cases happening with
  | operation done => exact (done.advanced order).locator
  | use step keeps => rfl
  | emptyTable =>
    rcases catalog.emptyTable_run_cases with ran | ran
    · rw [take, ran]
    · rw [take, ran, makingEmpty_locator]

theorem locate_afterAll (order : InOrder start) (happenings : List Happening) (key : TableKey)
    (locale : String) : (start.afterAll happenings).locate key locale = start.locate key locale := by
  induction happenings generalizing start with
  | nil => rfl
  | cons happening rest ih =>
    refine (ih (happening.inOrder order)).trans ?_
    rw [locate, locate, happening.locator_take order]

theorem afterAll_concat (start : Catalog) (happenings : List Happening) (happening : Happening) :
    start.afterAll (happenings ++ [happening]) = happening.take (start.afterAll happenings) :=
  List.foldl_concat ..

/-- An optional load that empties the table is an excuse from then on. -/
theorem Excused.concat (excused : Excused start happenings key locale) {happening : Happening}
    (kept : (start.afterAll (happenings ++ [happening])).cached? key = some id)
    (status : ((start.afterAll (happenings ++ [happening])).library.table id).status =
      missingStatus (start.locate key locale) locale) :
    Excused start (happenings ++ [happening]) key locale := by
  obtain ⟨earlier, force, later, rfl, same, since⟩ := excused
  refine ⟨earlier, force, later ++ [happening], by simp, same, fun seen h ↦ ?_⟩
  rcases List.prefix_concat_iff.1 h with rfl | h
  · rw [List.append_assoc, List.cons_append] at kept status
    exact ⟨id, kept, status⟩
  · exact since seen h

theorem Excused.filledAs (excused : Excused start happenings key locale) :
    ∃ id, (start.afterAll happenings).FilledAs key locale id ∧
      ((start.afterAll happenings).library.table id).status =
        missingStatus (start.locate key locale) locale := by
  obtain ⟨earlier, force, later, rfl, -, since⟩ := excused
  obtain ⟨id, cached, status⟩ := since later List.prefix_rfl
  exact ⟨id, ⟨cached, by rw [status]; rfl, by rw [status]; rfl⟩, status⟩

/-- While the resource stays broken, nothing but an optional load makes a table count as filled, by
induction on what happened last. -/
theorem FilledAs.excused (order : InOrder start) (empty : start.cache = ∅)
    (broken : ∀ earlier, earlier <+: happenings →
      (start.afterAll earlier).BrokenAt (start.locate key locale))
    (filled : (start.afterAll happenings).FilledAs key locale id) :
    Excused start happenings key locale := by
  induction happenings using List.reverseRecOn generalizing id with
  | nil =>
    have cached : start.cached? key = some id := filled.cached
    simp [cached?, empty] at cached
  | append_singleton happenings happening ih =>
    have broken_then := broken happenings (List.prefix_append _ _)
    rw [← locate_afterAll order happenings] at broken_then
    have cached := filled.cached
    rw [afterAll_concat] at filled
    rcases filled.take (inOrder_afterAll order happenings) broken_then with
      ⟨before, same⟩ | ⟨⟨force, rfl⟩, locale_then, emptied⟩
    · have excused := ih (fun earlier h ↦ broken earlier (h.trans (List.prefix_append _ _))) before
      obtain ⟨number, held, status⟩ := excused.filledAs
      obtain rfl : number = id := Option.some.inj (held.cached.symm.trans before.cached)
      exact excused.concat cached (by rw [afterAll_concat, same, status])
    · refine ⟨happenings, force, [], rfl, locale_then, fun seen h ↦ ?_⟩
      obtain rfl := List.prefix_nil.1 h
      refine ⟨id, cached, ?_⟩
      rw [afterAll_concat, emptied, locate_afterAll order]

/-! ## Loads that insist on a resource -/

theorem Outcome.of_failed {result : Except TableError Unit} {error : TableError}
    (outcome : Outcome location target false reloading table filled (.error error) result) :
    result = .error error := by
  generalize failed : Except.error error = contents at outcome
  cases outcome with
  | filled mirrors same => cases failed
  | emptied lenient same =>
    rcases lenient with ⟨rfl, -⟩ | ⟨-, optional⟩
    · cases failed
    · cases optional
  | kept strict cause same =>
    rcases cause with rfl | ⟨rfl, -⟩
    · cases failed
      rfl
    · cases failed

/-- A load that insists on a broken resource is told of the failure or given a table that counts as
filled. -/
theorem Load.required {result : Except TableError TableId} {error : TableError}
    (load : Load before key false force after result) (failed : before.contents key = .error error) :
    (result = .error error ∧ (force = true ∨ ∀ id, ¬ before.FilledAs key before.locale id)) ∨
      force = false ∧ ∃ id, result = .ok id ∧ before.FilledAs key before.locale id := by
  cases load with
  | @current id cached idle current cache tables =>
    obtain ⟨complete, recorded⟩ := isCurrent_iff.1 current
    exact .inr ⟨idle, id, rfl, cached, recorded, complete⟩
  | @refilled id result cached stale store cache tables outcome =>
    rw [failed] at outcome
    rw [outcome.of_failed]
    refine .inl ⟨rfl, (stale id cached).imp_right fun outdated number filled ↦ ?_⟩
    obtain rfl : id = number := Option.some.inj (cached.symm.trans filled.cached)
    rw [isCurrent_iff.2 ⟨filled.complete, filled.locale⟩] at outdated
    cases outdated
  | made absent store cache tables outcome =>
    rw [failed] at outcome
    cases outcome.of_failed
  | dropped absent store cache tables outcome =>
    rw [failed] at outcome
    cases outcome.of_failed
    exact .inl ⟨rfl, .inr fun id filled ↦ by cases absent.symm.trans filled.cached⟩

/-- Where a resource has been malformed or unreadable all the time, a load that insists on it reports just
that, at its location, exactly if it is forced or no optional load has left an empty table behind that is
still kept; otherwise it is given that table. -/
theorem required_load_reports_broken_iff_not_excused (locale : String) (locator : Locator)
    (store : Store) (happenings : List Happening) (key : TableKey) (force : Bool) :
    let start : Catalog := { locale := locale, locator := locator, store := store }
    let now := start.afterAll happenings
    let answer := ((load key false force).run now).1
    (∀ earlier, earlier <+: happenings → (start.afterAll earlier).BrokenAt (now.resource key)) →
      ((∃ error, answer = .error error ∧ ((∃ fault, error = .document (now.resource key) fault) ∨
          ∃ reason, error = .unreadable (now.resource key) reason)) ↔
        force = true ∨ ¬ Excused start happenings key now.locale) ∧
      (force = false → Excused start happenings key now.locale → ∃ id, answer = .ok id ∧
        now.cached? key = some id ∧
        (now.library.table id).status = missingStatus (now.resource key) now.locale) := by
  intro start now answer broken
  have new : InOrder start := inOrder_new locale locator store
  have order : InOrder now := inOrder_afterAll new happenings
  have resource : now.resource key = start.locate key now.locale :=
    locate_afterAll new happenings key now.locale
  obtain ⟨error, failed⟩ : ∃ error, now.contents key = .error error :=
    broken happenings List.prefix_rfl
  have cause := contentsOf_eq_error failed
  rcases (load_outcome order key false force).required failed with
    ⟨refused, why⟩ | ⟨idle, id, handed, filled⟩
  · have allowed : force = true ∨ ¬ Excused start happenings key now.locale :=
      why.imp_right fun none_filled excused ↦ none_filled _ excused.filledAs.choose_spec.1
    refine ⟨iff_of_true ⟨error, refused, cause⟩ allowed, fun idle excused ↦ ?_⟩
    rcases allowed with forced | unexcused
    · cases idle.symm.trans forced
    · exact absurd excused unexcused
  · rw [resource] at broken
    have excused := filled.excused new rfl broken
    obtain ⟨number, held, status⟩ := excused.filledAs
    obtain rfl : number = id := Option.some.inj (held.cached.symm.trans filled.cached)
    rw [← resource] at status
    refine ⟨iff_of_false ?_ ?_, fun _ _ ↦ ⟨number, handed, held.cached, status⟩⟩
    · rintro ⟨other, refused, -⟩
      cases handed.symm.trans refused
    · rintro (forced | unexcused)
      · cases idle.symm.trans forced
      · exact unexcused excused

/-- A malformed document, after an optional load in the same locale: a forced load is told of it, and one
that is not forced is given the empty table. -/
theorem required_load_reports_broken_iff_not_excused_menu :
    let store := Store.inMemory.put "menu_en.xml"
      (Text.Utf8.encode "<StringTable><File></File></StringTable>")
    let start : Catalog := { locale := "en", store := store }
    let happenings : List Happening := [.operation (.load ⟨"", "menu"⟩ true false)]
    let now := start.afterAll happenings
    Excused start happenings ⟨"", "menu"⟩ now.locale ∧
      (∃ error, ((load ⟨"", "menu"⟩ false true).run now).1 = .error error) ∧
      ∃ id, ((load ⟨"", "menu"⟩ false false).run now).1 = .ok id := by
  intro store start happenings now
  have broken : ∀ earlier, earlier <+: happenings →
      (start.afterAll earlier).BrokenAt (now.resource ⟨"", "menu"⟩) := by
    intro earlier h
    refine ⟨.document "menu_en.xml" (.missingAttribute ⟨19, none⟩ "File" "SourcePath"), ?_⟩
    rcases List.prefix_concat_iff.1 (show earlier <+: [] ++ happenings from h) with rfl | h
    · decide +kernel
    · rw [List.prefix_nil.1 h]
      decide +kernel
  have emptied : now.cached? ⟨"", "menu"⟩ = some 0 ∧ (now.library.table 0).status =
      missingStatus (start.locate ⟨"", "menu"⟩ now.locale) now.locale := by decide +kernel
  have excused : Excused start happenings ⟨"", "menu"⟩ now.locale := by
    refine ⟨[], false, [], rfl, by decide +kernel, fun seen h ↦ ?_⟩
    rw [List.prefix_nil.1 h]
    exact ⟨0, emptied⟩
  have forced := required_load_reports_broken_iff_not_excused "en" {} store happenings ⟨"", "menu"⟩ true
    broken
  have unforced := required_load_reports_broken_iff_not_excused "en" {} store happenings ⟨"", "menu"⟩ false
    broken
  obtain ⟨error, refused, -⟩ := forced.1.2 (.inl rfl)
  obtain ⟨id, handed, -⟩ := unforced.2 rfl excused
  exact ⟨excused, ⟨error, refused⟩, id, handed⟩

/-- A load that insists on a malformed document is told of it, and is given an empty table if someone has
asked for the table as an optional one before, though the document is as malformed as ever. -/
theorem optional_load_hides_broken_resource :
    let key : TableKey := ⟨"s", "t"⟩
    let store := Store.inMemory.put "s/t_en.xml"
      (Text.Utf8.encode "<StringTable><File></File></StringTable>")
    let start : Catalog := { locale := "en", store := store }
    let asked := ((load key true false).run start).2
    let malformed := TableError.document "s/t_en.xml"
      (.missingAttribute ⟨19, none⟩ "File" "SourcePath")
    start.contents key = .error malformed ∧ asked.contents key = .error malformed ∧
      ((load key false false).run start).1 = .error malformed ∧
      ((load key false false).run asked).1 = .ok 0 ∧
      (asked.library.table 0).entries.isEmpty := by
  decide +kernel

end

end Phrasebook.Catalog
