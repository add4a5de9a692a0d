import Phrasebook.Proofs.Catalog.Segments

/-!
# Loading while nobody interferes

When no interruption is put down, a load or a reload is one step of the catalog. Such a step either
leaves a table that is kept as it was or fills it for the current locale from what the store holds,
which raises the table's generation; and the catalog stays in order.
-/

namespace Phrasebook

open Phrasebook.Document (Entry)
open Phrasebook.Storage
open Library (SameBut)

namespace Catalog

/-- The table was filled for a locale from what the catalog finds for it. -/
def FilledFor (catalog : Catalog) (key : TableKey) (locale : String) (table : Table) : Prop :=
  FilledFrom (contentsOf (catalog.locate key locale) (catalog.found (catalog.locate key locale)))
    (catalog.locate key locale) locale table

theorem SameStore.filledFor {before after : Catalog} (same : SameStore before after)
    {key : TableKey} {locale : String} {table : Table} (filled : after.FilledFor key locale table) :
    before.FilledFor key locale table := by
  unfold FilledFor at filled
  rwa [same.locate, same.found] at filled

/-- The tables that are kept are in order, and no interruption is put down. -/
structure InOrder (catalog : Catalog) : Prop extends Indexed catalog where
  quiet : catalog.interruptions = ∅

/-- What filling tables that are kept does: some of them are filled for the current locale, and
nothing else changes. -/
structure Refreshed (before after : Catalog) : Prop where
  setting : SameSetting before after
  interruptions : after.interruptions = before.interruptions
  cache : after.cache = before.cache
  known : ∀ id, id ∈ after.library.tables ↔ id ∈ before.library.tables
  next : after.library.nextTable = before.library.nextTable
  tables : ∀ key id, before.cached? key = some id →
    after.library.table id = before.library.table id ∨
      (before.library.table id).generation < (after.library.table id).generation ∧
        before.FilledFor key before.locale (after.library.table id)

namespace Refreshed

variable {before middle after : Catalog}

theorem refl (catalog : Catalog) : Refreshed catalog catalog where
  setting := .refl catalog
  interruptions := rfl
  cache := rfl
  known _ := Iff.rfl
  next := rfl
  tables _ _ _ := .inl rfl

theorem of_noted (noted : Noted before after) : Refreshed before after where
  setting := noted.setting
  interruptions := noted.interruptions
  cache := noted.cache
  known id := (noted.recorded.sameBut id).known id
  next := (noted.recorded.sameBut 0).next
  tables _ id _ := .inl (noted.recorded.table id)

theorem cached (refreshed : Refreshed before after) (key : TableKey) :
    after.cached? key = before.cached? key := by
  rw [cached?, cached?, refreshed.cache]

theorem trans (first : Refreshed before middle) (second : Refreshed middle after) :
    Refreshed before after where
  setting := first.setting.trans second.setting
  interruptions := second.interruptions.trans first.interruptions
  cache := second.cache.trans first.cache
  known id := (second.known id).trans (first.known id)
  next := second.next.trans first.next
  tables key id h := by
    have later := second.tables key id ((first.cached key).trans h)
    rw [first.setting.locale] at later
    rcases first.tables key id h with kept | ⟨raised, filled⟩
    · rw [kept] at later
      exact later.imp_right fun ⟨raised, filled⟩ ↦ ⟨raised, first.setting.filledFor filled⟩
    · rcases later with kept | ⟨again, refilled⟩
      · rw [kept]
        exact .inr ⟨raised, filled⟩
      · exact .inr ⟨Nat.lt_trans raised again, first.setting.filledFor refilled⟩

theorem inOrder (refreshed : Refreshed before after) (order : InOrder before) :
    InOrder after where
  quiet := refreshed.interruptions.trans order.quiet
  bounded id h := by
    rw [refreshed.next]
    exact order.bounded id ((refreshed.known id).1 h)
  known key id h := by
    rw [refreshed.cached] at h
    exact (refreshed.known id).2 (order.known key id h)
  distinct key other id h h' := by
    rw [refreshed.cached] at h h'
    exact order.distinct key other id h h'

end Refreshed

/-! ## Loads and reloads -/

section

variable {catalog : Catalog} {key : TableKey} {id : TableId}

theorem await_run (quiet : catalog.interruptions = ∅) (interleave : Interleave)
    (filling : Filling) : (filling.await interleave).run catalog = ((), catalog) := by
  have none_left : catalog.interruptions[filling.location]? = none := by simp [quiet]
  simp [Filling.await, none_left]

/-- A kept table that is filled for the current locale is current if that works. -/
theorem finish_refreshed (order : InOrder catalog) (h : catalog.cached? key = some id)
    (optional : Bool) {result : Except TableError Unit} {after : Catalog}
    (finished : Finished (catalog.filling key id catalog.locale optional) true catalog after
      result) :
    Refreshed catalog after ∧ (result = .ok () → after.isCurrent id catalog.locale = true) := by
  have same := finished.others
  have outcome := finished.outcome
  rw [filling, (SameStore.refl catalog).contentNow] at outcome
  refine ⟨⟨?_, ?_, ?_, finished.frame.known, finished.frame.next, ?_⟩, ?_⟩
  · rw [same]
    exact ⟨⟨rfl, rfl, rfl⟩, rfl⟩
  · rw [same]
  · rw [same]
  · intro other number hother
    by_cases this : number = id
    · subst this
      obtain rfl := order.distinct key other number h hother
      exact outcome.kept_or_filled
    · exact .inl (finished.frame.others number this)
  · intro ok
    rw [ok] at outcome
    obtain ⟨locale, rejected, -⟩ := outcome.rejected_of_ok
    exact isCurrent_iff.2 ⟨rejected, locale⟩

theorem reloadTable_run (quiet : catalog.interruptions = ∅) (interleave : Interleave)
    (target : String) (optional : Bool) :
    (reloadTable interleave key id target optional).run catalog =
      ((catalog.filling key id target optional).finish true).run
        (catalog.openedAgain key target) := by
  have opening := catalog.noted_openedAgain key target
  rw [reloadTable, run_bind, openAgain_run, run_bind,
    await_run (opening.interruptions.trans quiet)]

theorem reloadTable_refreshed (order : InOrder catalog) (h : catalog.cached? key = some id)
    (interleave : Interleave) (optional : Bool) :
    Refreshed catalog ((reloadTable interleave key id catalog.locale optional).run catalog).2 ∧
      (((reloadTable interleave key id catalog.locale optional).run catalog).1 = .ok () →
        ((reloadTable interleave key id catalog.locale optional).run catalog).2.isCurrent id
          catalog.locale = true) := by
  have opening := Refreshed.of_noted (catalog.noted_openedAgain key catalog.locale)
  have order' := opening.inOrder order
  have h' := (opening.cached key).trans h
  have finished := finished_run
    ((catalog.openedAgain key catalog.locale).filling key id
      (catalog.openedAgain key catalog.locale).locale optional) true (order'.known key id h')
  obtain ⟨refreshed, current⟩ := finish_refreshed order' h' optional finished
  rw [opening.setting.filling, opening.setting.locale] at refreshed current
  rw [reloadTable_run order.quiet]
  exact ⟨opening.trans refreshed, current⟩

theorem refresh_refreshed (order : InOrder catalog) (h : catalog.cached? key = some id)
    (interleave : Interleave) (optional force : Bool) :
    Refreshed catalog ((refresh interleave key id catalog.locale optional force).run catalog).2 ∧
      (((refresh interleave key id catalog.locale optional force).run catalog).1 = .ok () →
        ((refresh interleave key id catalog.locale optional force).run catalog).2.isCurrent id
          catalog.locale = true) := by
  cases current : !force && catalog.isCurrent id catalog.locale with
  | true =>
    rw [refresh_of_current current]
    exact ⟨.refl catalog, fun _ ↦ (Bool.and_eq_true_iff.1 current).2⟩
  | false =>
    rw [refresh_of_stale current]
    exact reloadTable_refreshed order h interleave optional

/-- A reload of several tables fills the first of them and goes on with the others. -/
theorem reloadEach_cons_run (quiet : catalog.interruptions = ∅) (interleave : Interleave)
    (target : String) (pair : TableKey × TableId) (rest : List (TableKey × TableId))
    (report : ReloadReport) :
    (reloadEach interleave target (pair :: rest) report).run catalog =
      let reported := ((catalog.filling pair.1 pair.2 target false).report report).run
        (catalog.openedAgain pair.1 target)
      (reloadEach interleave target rest reported.1).run reported.2 := by
  have opening := catalog.noted_openedAgain pair.1 target
  rw [reloadEach, run_bind, openAgain_run, run_bind,
    await_run (opening.interruptions.trans quiet), run_bind]

theorem report_refreshed (order : InOrder catalog) (h : catalog.cached? key = some id)
    (report : ReloadReport) :
    Refreshed catalog (((catalog.filling key id catalog.locale false).report report).run
      (catalog.openedAgain key catalog.locale)).2 := by
  obtain ⟨refreshed, -⟩ := reloadTable_refreshed order h interleave false
  rw [reloadTable_run order.quiet] at refreshed
  exact refreshed.trans (.of_noted (noted_report _ report _))

/-- Filling kept tables one after the other refreshes them. -/
theorem reloadEach_refreshed (interleave : Interleave) (tables : List (TableKey × TableId))
    (report : ReloadReport) (order : InOrder catalog)
    (cached : ∀ key id, (key, id) ∈ tables → catalog.cached? key = some id) :
    Refreshed catalog ((reloadEach interleave catalog.locale tables report).run catalog).2 := by
  induction tables generalizing catalog report with
  | nil => exact .of_noted (noted_log _ catalog)
  | cons pair rest ih =>
    have first := report_refreshed order (cached pair.1 pair.2 List.mem_cons_self) report
    have others := fun key id h ↦
      (first.cached key).trans (cached key id (List.mem_cons_of_mem _ h))
    have later := ih (((catalog.filling pair.1 pair.2 catalog.locale false).report report).run
      (catalog.openedAgain pair.1 catalog.locale)).1 (first.inOrder order) others
    rw [first.setting.locale] at later
    rw [reloadEach_cons_run order.quiet]
    exact first.trans later

theorem reloadAllWith_refreshed (order : InOrder catalog) (interleave : Interleave) :
    Refreshed catalog ((reloadAllWith interleave).run catalog).2 := by
  rw [reloadAllWith_run]
  refine reloadEach_refreshed interleave _ _ order fun key id h ↦ ?_
  exact Std.TreeMap.mem_toList_iff_getElem?_eq_some.1 h

/-- A step of a catalog that nobody interferes with: every table that is kept is one that was kept
before and did not change, or was filled for the current locale in this step. -/
structure Advanced (before after : Catalog) : Prop where
  order : InOrder after
  locator : after.locator = before.locator
  tables : ∀ key id, after.cached? key = some id →
    (before.cached? key = some id ∧ after.library.table id = before.library.table id) ∨
      (before.library.table id).generation < (after.library.table id).generation ∧
        before.FilledFor key before.locale (after.library.table id)

theorem Refreshed.advanced {before after : Catalog} (refreshed : Refreshed before after)
    (order : InOrder before) : Advanced before after where
  order := refreshed.inOrder order
  locator := refreshed.setting.locator
  tables key id h := by
    have h := (refreshed.cached key).symm.trans h
    exact (refreshed.tables key id h).imp_left fun kept ↦ ⟨h, kept⟩

/-- If nobody interferes, a new table is kept if it could be filled and dropped otherwise. -/
theorem loadNew_run (quiet : catalog.interruptions = ∅) (absent : catalog.cached? key = none)
    (interleave : Interleave) (target : String) (optional : Bool) :
    (loadNew interleave key target optional).run catalog =
      let filled := ((catalog.filling key catalog.library.nextTable target optional).finish
        false).run (catalog.openedNew key target)
      match filled.1 with
      | .error error => (.error error, filled.2.dropping catalog.library.nextTable)
      | .ok () => (.ok catalog.library.nextTable,
        filled.2.keeping key catalog.library.nextTable) := by
  have opening := catalog.noted_openedNew key target
  rw [loadNew, run_bind, openNew_run, run_bind, await_run (opening.interruptions.trans quiet),
    run_bind]
  dsimp only
  cases h : (((catalog.filling key catalog.library.nextTable target optional).finish false).run
    (catalog.openedNew key target)).1 with
  | error error => rfl
  | ok _ =>
    have still : (((catalog.filling key catalog.library.nextTable target optional).finish
        false).run (catalog.openedNew key target)).2.cached? key = none := by
      rw [cached?, finish_run]
      exact (congrArg (·[key]?) opening.cache).trans absent
    dsimp only
    rw [run_bind, keep_run_of_none still]
    rfl

/-- What a new table and its catalog are like after the table was filled. -/
structure NewlyFilled (catalog : Catalog) (key : TableKey) (after : Catalog)
    (result : Except TableError Unit) : Prop where
  setting : SameSetting catalog after
  interruptions : after.interruptions = catalog.interruptions
  cache : after.cache = catalog.cache
  known : ∀ id, id ∈ after.library.tables ↔
    id = catalog.library.nextTable ∨ id ∈ catalog.library.tables
  next : after.library.nextTable = catalog.library.nextTable + 1
  others : ∀ id, id ≠ catalog.library.nextTable →
    after.library.table id = catalog.library.table id
  filled : result = .ok () → 0 < (after.library.table catalog.library.nextTable).generation ∧
    after.isCurrent catalog.library.nextTable catalog.locale = true ∧
    catalog.FilledFor key catalog.locale (after.library.table catalog.library.nextTable)

/-- A table that was added for a key and filled is new, and the others are as they were. -/
theorem newlyFilled (catalog : Catalog) (key : TableKey) (optional : Bool) {after : Catalog}
    {result : Except TableError Unit}
    (finished : Finished (catalog.filling key catalog.library.nextTable catalog.locale optional)
      false (catalog.openedNew key catalog.locale) after result) :
    NewlyFilled catalog key after result := by
  have opening := catalog.noted_openedNew key catalog.locale
  have setting := (catalog.sameSetting_adding key.text).trans opening.setting
  have same := finished.others
  have frame := finished.frame
  have unread := opening.recorded.sameBut
  have outcome := finished.outcome
  rw [filling, setting.contentNow, opening.recorded.table] at outcome
  have fresh :
      ((catalog.adding key.text).library.table catalog.library.nextTable).generation = 0 := by
    rw [adding, Library.table_adding_self]
  refine ⟨?_, ?_, ?_, fun id ↦ ?_, ?_, fun id h ↦ ?_, fun ok ↦ ?_⟩
  · rw [same]
    exact ⟨⟨setting.locator, setting.backing, setting.broken⟩, setting.locale⟩
  · rw [same]
    exact opening.interruptions
  · rw [same]
    exact opening.cache
  · rw [frame.known, (unread id).known]
    exact Library.mem_adding
  · exact frame.next.trans (unread 0).next
  · rw [frame.others id h, opening.recorded.table]
    exact Library.table_adding_of_ne h key.text true
  · rw [ok] at outcome
    obtain ⟨locale, rejected, raised⟩ := outcome.rejected_of_ok
    rw [fresh] at raised
    refine ⟨raised, isCurrent_iff.2 ⟨rejected, locale⟩, ?_⟩
    rcases outcome.kept_or_filled with kept | ⟨-, filled⟩
    · rw [kept, fresh] at raised
      exact absurd raised (Nat.lt_irrefl 0)
    · exact filled

namespace NewlyFilled

variable {after : Catalog} {result : Except TableError Unit}

/-- A new table that is dropped leaves no trace on those that are kept. -/
theorem dropped (new : NewlyFilled catalog key after result) (order : InOrder catalog) :
    Advanced catalog (after.dropping catalog.library.nextTable) := by
  have old : ∀ other number, catalog.cached? other = some number →
      number ≠ catalog.library.nextTable :=
    fun other number h ↦ Nat.ne_of_lt (order.bounded number (order.known other number h))
  have same : ∀ other, (after.dropping catalog.library.nextTable).cached? other =
      catalog.cached? other := by
    intro other
    rw [cached?, cached?, dropping, new.cache]
  refine ⟨⟨⟨fun number h ↦ ?_, fun other number h ↦ ?_, fun other third number h h' ↦ ?_⟩,
    new.interruptions.trans order.quiet⟩, new.setting.locator, fun other number h ↦ ?_⟩
  · obtain ⟨h, known⟩ := Library.mem_dropping.1 h
    have next : (after.dropping catalog.library.nextTable).library.nextTable =
      catalog.library.nextTable + 1 := new.next
    rw [next]
    exact Nat.lt_succ_of_lt (order.bounded number (((new.known number).1 known).resolve_left h))
  · rw [same] at h
    exact Library.mem_dropping.2
      ⟨old other number h, (new.known number).2 (.inr (order.known other number h))⟩
  · rw [same] at h h'
    exact order.distinct other third number h h'
  · rw [same] at h
    have table := @Library.table_dropping_of_ne after.library _ _ (old other number h)
    exact .inl ⟨h, table.trans (new.others number (old other number h))⟩

/-- A new table that is kept joins the others, filled for the current locale. -/
theorem kept (new : NewlyFilled catalog key after (.ok ())) (order : InOrder catalog)
    (absent : catalog.cached? key = none) :
    Advanced catalog (after.keeping key catalog.library.nextTable) := by
  obtain ⟨raised, -, filled⟩ := new.filled rfl
  have old : ∀ other number, catalog.cached? other = some number →
      number ≠ catalog.library.nextTable :=
    fun other number h ↦ Nat.ne_of_lt (order.bounded number (order.known other number h))
  have cached : ∀ other number,
      (after.keeping key catalog.library.nextTable).cached? other = some number →
      other = key ∧ number = catalog.library.nextTable ∨ catalog.cached? other = some number := by
    intro other number h
    have same : after.cached? other = catalog.cached? other := by rw [cached?, cached?, new.cache]
    exact same ▸ of_cached?_keeping h
  refine ⟨⟨⟨fun number h ↦ ?_, fun other number h ↦ ?_, fun other third number h h' ↦ ?_⟩,
    new.interruptions.trans order.quiet⟩, new.setting.locator, fun other number h ↦ ?_⟩
  · have next : (after.keeping key catalog.library.nextTable).library.nextTable =
      catalog.library.nextTable + 1 := new.next
    rw [next]
    rcases (new.known number).1 h with rfl | known
    · exact Nat.lt_succ_self _
    · exact Nat.lt_succ_of_lt (order.bounded number known)
  · rcases cached other number h with ⟨-, rfl⟩ | h
    · exact (new.known _).2 (.inl rfl)
    · exact (new.known number).2 (.inr (order.known other number h))
  · rcases cached other number h with ⟨rfl, rfl⟩ | h
    · rcases cached third _ h' with ⟨rfl, -⟩ | h'
      · rfl
      · exact absurd rfl (old third _ h')
    · rcases cached third number h' with ⟨-, rfl⟩ | h'
      · exact absurd rfl (old other _ h)
      · exact order.distinct other third number h h'
  · rcases cached other number h with ⟨rfl, rfl⟩ | h
    · refine .inr ⟨?_, filled⟩
      have unknown : catalog.library.nextTable ∉ catalog.library.tables :=
        fun known ↦ Nat.lt_irrefl _ (order.bounded _ known)
      rw [Library.table_of_not_mem unknown]
      exact raised
    · exact .inl ⟨h, new.others number (old other number h)⟩

end NewlyFilled

/-- What a load does: tables that are kept advance, and a load that works answers with the table
that is kept for its key, which holds all entries for the current locale. -/
structure Loaded (catalog : Catalog) (key : TableKey) (after : Catalog)
    (result : Except TableError TableId) : Prop where
  setting : SameSetting catalog after
  advanced : Advanced catalog after
  answered : ∀ id, result = .ok id →
    after.cached? key = some id ∧ after.isCurrent id catalog.locale = true

theorem loadNew_loaded (order : InOrder catalog) (absent : catalog.cached? key = none)
    (interleave : Interleave) (optional : Bool) :
    Loaded catalog key ((loadNew interleave key catalog.locale optional).run catalog).2
      ((loadNew interleave key catalog.locale optional).run catalog).1 := by
  have opening := catalog.noted_openedNew key catalog.locale
  have known : catalog.library.nextTable ∈ (catalog.openedNew key catalog.locale).library.tables :=
    ((opening.recorded.sameBut 0).known _).2 (Library.mem_adding.2 (.inl rfl))
  have new := newlyFilled catalog key optional (finished_run
    (catalog.filling key catalog.library.nextTable catalog.locale optional) false known)
  have setting := new.setting
  rw [loadNew_run order.quiet absent]
  dsimp only
  cases h : (((catalog.filling key catalog.library.nextTable catalog.locale optional).finish
    false).run (catalog.openedNew key catalog.locale)).1 with
  | error error =>
    exact ⟨⟨⟨setting.locator, setting.backing, setting.broken⟩, setting.locale⟩, new.dropped order,
      fun id ok ↦ by cases ok⟩
  | ok _ =>
    rw [h] at new
    refine ⟨⟨⟨setting.locator, setting.backing, setting.broken⟩, setting.locale⟩,
      new.kept order absent, fun id ok ↦ ?_⟩
    cases ok
    exact ⟨by simp, (new.filled rfl).2.1⟩

/-- A load advances the tables that are kept, and answers with the one of its key. -/
theorem request_loaded (order : InOrder catalog) (interleave : Interleave)
    (optional force : Bool) :
    Loaded catalog key ((request interleave key catalog.locale optional force).run catalog).2
      ((request interleave key catalog.locale optional force).run catalog).1 := by
  cases h : catalog.cached? key with
  | none =>
    rw [request_of_absent h]
    exact loadNew_loaded order h interleave optional
  | some id =>
    obtain ⟨refreshed, current⟩ := refresh_refreshed order h interleave optional force
    rw [request_of_cached h]
    refine ⟨refreshed.setting, refreshed.advanced order, fun number ok ↦ ?_⟩
    dsimp only at ok ⊢
    cases result : ((refresh interleave key id catalog.locale optional force).run catalog).1 with
    | error error =>
      rw [result] at ok
      cases ok
    | ok _ =>
      rw [result] at ok
      cases ok
      exact ⟨(refreshed.cached key).trans h, current result⟩

theorem Loaded.noted {first last after : Catalog} {result : Except TableError TableId}
    (entering : Noted catalog first) (loaded : Loaded first key last result)
    (leaving : Noted last after) : Loaded catalog key after result where
  setting := (entering.setting.trans loaded.setting).trans leaving.setting
  advanced := by
    have cached := (Refreshed.of_noted leaving).cached
    refine ⟨(Refreshed.of_noted leaving).inOrder loaded.advanced.order, ?_, fun key id h ↦ ?_⟩
    · exact ((entering.setting.trans loaded.setting).trans leaving.setting).locator
    · rw [cached] at h
      have table := loaded.advanced.tables key id h
      rw [(Refreshed.of_noted entering).cached, entering.recorded.table,
        entering.setting.locale] at table
      rw [leaving.recorded.table]
      exact table.imp_right fun ⟨raised, filled⟩ ↦ ⟨raised, entering.setting.filledFor filled⟩
  answered id ok := by
    obtain ⟨cached, current⟩ := loaded.answered id ok
    rw [isCurrent_iff, entering.setting.locale] at current
    rw [(Refreshed.of_noted leaving).cached, isCurrent_iff, leaving.recorded.table]
    exact ⟨cached, current⟩

theorem loadWith_loaded (order : InOrder catalog) (interleave : Interleave)
    (optional force : Bool) :
    Loaded catalog key ((loadWith interleave key optional force).run catalog).2
      ((loadWith interleave key optional force).run catalog).1 := by
  have entering := catalog.noted_journaling .enter
  have order' := (Refreshed.of_noted entering).inOrder order
  rw [loadWith_run]
  exact (request_loaded order' interleave optional force).noted entering (noted_journaling _ _)

end

end Catalog

end Phrasebook
