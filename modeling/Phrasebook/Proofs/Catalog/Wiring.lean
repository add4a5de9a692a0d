import Phrasebook.Proofs.Catalog.Evolution
import Phrasebook.Proofs.Library.Deeds

/-!
# Tables that relay

A table that is made for a load relays what it lacks to the listeners, and the table without entries does
not. The invariant `Wired` says so of every table that was handed out, is kept, or is still to be filled,
at any time in between the parts of the operations that wait. Since a table that is dropped belongs to the
load that made it and was handed out to nobody, the parts of an operation mind the tables that were: their
observers and the listeners stay.
-/

namespace Phrasebook

open Phrasebook.Storage

namespace Catalog

/-! ## Steps that leave the wiring alone -/

theorem spares_markMissing (id : TableId) (location locale : String) (library : Library) :
    Library.Spares library ((markMissing id location locale).run library).2 :=
  have respected := Library.respected_spares id
  (respected.clear library).trans (respected.setStatus _ _)

theorem spares_readOpened (id : TableId) (location : String) (lenient : Bool) (opened : Opened)
    (library : Library) :
    Library.Spares library ((readOpened id location lenient opened).run library).2 := by
  cases opened with
  | absent => cases lenient <;> exact .refl library
  | failed reason => exact .refl library
  | content stream =>
    have spares := (Library.respected_spares id).reload library location stream
    rw [readOpened, run_bind]
    generalize (Library.reload id location stream).run library = outcome at spares ⊢
    obtain ⟨answer, reloaded⟩ := outcome
    cases answer with
    | ok report | error error => exact spares

/-- Filling a table spares stand-ins, fallbacks and whoever hears of tables. -/
theorem spares_takeIn (id : TableId) (location locale : String) (optional reloading : Bool)
    (opened : Opened) (library : Library) :
    Library.Spares library
      ((takeIn id location locale optional reloading opened).run library).2 := by
  have spares := spares_readOpened id location (optional || reloading) opened library
  cases read : (readOpened id location (optional || reloading) opened).run library with
  | mk answer middle =>
    rw [read] at spares
    cases answer with
    | error error =>
      cases optional with
      | false =>
        rw [takeIn_of_error_of_strict read rfl]
        exact spares
      | true =>
        obtain ⟨logged, noted, ran⟩ := takeIn_of_error locale read rfl
        rw [ran]
        exact (spares.trans (.of_recorded noted)).trans (spares_markMissing id location locale logged)
    | ok contents =>
      cases contents with
      | none =>
        obtain ⟨logged, noted, ran⟩ := takeIn_of_none locale read
        rw [ran]
        exact (spares.trans (.of_recorded noted)).trans (spares_markMissing id location locale logged)
      | some report =>
        obtain ⟨logged, noted, ran⟩ := takeIn_of_report locale read
        rw [ran]
        exact (spares.trans (.of_recorded noted)).trans ((Library.respected_spares id).setStatus logged _)

/-- The same tables are kept, and everybody hears of the same ones. -/
structure Quiet (before after : Catalog) : Prop where
  cache : after.cache = before.cache
  empty : after.empty = before.empty
  spares : Library.Spares before.library after.library

theorem Quiet.trans {before middle after : Catalog} (first : Quiet before middle)
    (second : Quiet middle after) : Quiet before after where
  cache := second.cache.trans first.cache
  empty := second.empty.trans first.empty
  spares := first.spares.trans second.spares

theorem Noted.quiet {before after : Catalog} (noted : Noted before after) : Quiet before after :=
  ⟨noted.cache, noted.empty, .of_recorded noted.recorded⟩

theorem quiet_finish (filling : Filling) (reloading : Bool) (catalog : Catalog) :
    Quiet catalog ((filling.finish reloading).run catalog).2 :=
  ⟨rfl, rfl, spares_takeIn filling.id filling.location filling.target filling.optional reloading
    (catalog.store.contentNow filling.location filling.opened) catalog.library⟩

theorem quiet_report (filling : Filling) (report : ReloadReport) (catalog : Catalog) :
    Quiet catalog ((filling.report report).run catalog).2 :=
  (quiet_finish filling true catalog).trans (noted_report filling report catalog).quiet

/-! ## The invariant -/

/-- The tables that loads wait to fill and that nobody knows of yet. -/
def newTables (frames : List Frame) : List TableId := frames.filterMap Frame.newTable?

/-- The tables that an operation is to fill anew. -/
def Frame.oldTables : Frame → List TableId
  | .fresh _ => []
  | .stale filling => [filling.id]
  | .all filling rest _ => filling.id :: rest.map Prod.snd

/-- A table relays and was known before. -/
structure Relays (catalog : Catalog) (frames : List Frame) (id : TableId) : Prop where
  known : id ∈ catalog.library.tables
  relays : (catalog.library.table id).relays = true
  old : id ∉ newTables frames

/-- Every table that was handed out relays, but for the one without entries, and so does every table that
is kept or to be filled. -/
structure Wired (catalog : Catalog) (frames : List Frame) (handed : List TableId) : Prop where
  grounded : catalog.library.Grounded
  bounded : ∀ id, id ∈ catalog.library.tables → id < catalog.library.nextTable
  empty : ∀ id, catalog.empty = some id →
    id ∈ catalog.library.tables ∧ (catalog.library.table id).relays = false
  kept : ∀ key id, catalog.cached? key = some id → Relays catalog frames id
  waiting : ∀ frame ∈ frames, ∀ id ∈ frame.oldTables, Relays catalog frames id
  handed : ∀ id ∈ handed, catalog.empty = some id ∨ Relays catalog frames id
  new : ∀ id ∈ newTables frames,
    id ∈ catalog.library.tables ∧ (catalog.library.table id).relays = true
  distinct : (newTables frames).Nodup

/-- The listeners stay, and so does the audience of the tables. -/
structure Minds (ids : List TableId) (before after : Catalog) : Prop where
  listeners : after.library.listeners = before.library.listeners
  audience : ∀ id ∈ ids,
    (after.library.table id).audience = (before.library.table id).audience

theorem Minds.trans {ids : List TableId} {before middle after : Catalog}
    (first : Minds ids before middle) (second : Minds ids middle after) : Minds ids before after where
  listeners := second.listeners.trans first.listeners
  audience id mem := (second.audience id mem).trans (first.audience id mem)

theorem Quiet.minds {before after : Catalog} (quiet : Quiet before after) (ids : List TableId) :
    Minds ids before after :=
  ⟨quiet.spares.listeners, fun id _ ↦ quiet.spares.audience id⟩

section

variable {catalog after : Catalog} {frames : List Frame} {frame : Frame} {filling : Filling}
  {handed : List TableId} {id : TableId}

theorem newTables_cons_of_none (old : frame.newTable? = none) :
    newTables (frame :: frames) = newTables frames :=
  List.filterMap_cons_none old

theorem newTables_cons_fresh (filling : Filling) (frames : List Frame) :
    newTables (.fresh filling :: frames) = filling.id :: newTables frames :=
  List.filterMap_cons_some rfl

/-- What happens to a library concerns the wiring only where tables come or go, or change how they
relay. -/
theorem Wired.of_tables (wired : Wired catalog frames handed) (grounded : after.library.Grounded)
    (bounded : ∀ id, id ∈ after.library.tables → id < after.library.nextTable)
    (same : ∀ id, id ∈ catalog.library.tables → id ∈ after.library.tables ∧
      (after.library.table id).relays = (catalog.library.table id).relays)
    (empty : after.empty = catalog.empty)
    (cached : ∀ key id, after.cached? key = some id → catalog.cached? key = some id) :
    Wired after frames handed := by
  have relays {id : TableId} (before : Relays catalog frames id) : Relays after frames id := by
    obtain ⟨known, kept⟩ := same id before.known
    exact ⟨known, kept.trans before.relays, before.old⟩
  refine ⟨grounded, bounded, fun id held ↦ ?_, fun key id held ↦ relays (wired.kept key id (cached key id held)),
    fun frame mem id old ↦ relays (wired.waiting frame mem id old), fun id mem ↦ ?_,
    fun id mem ↦ ?_, wired.distinct⟩
  · rw [empty] at held
    obtain ⟨known, silent⟩ := wired.empty id held
    obtain ⟨known', kept⟩ := same id known
    exact ⟨known', kept.trans silent⟩
  · rw [empty]
    exact (wired.handed id mem).imp_right relays
  · obtain ⟨known, relaying⟩ := wired.new id mem
    obtain ⟨known', kept⟩ := same id known
    exact ⟨known', kept.trans relaying⟩

theorem Relays.quiet (relays : Relays catalog frames id) (quiet : Quiet catalog after) :
    Relays after frames id :=
  ⟨(quiet.spares.known id).2 relays.known, (quiet.spares.relays id).trans relays.relays, relays.old⟩

theorem Wired.quiet (wired : Wired catalog frames handed) (quiet : Quiet catalog after) :
    Wired after frames handed := by
  have spares := quiet.spares
  refine wired.of_tables (wired.grounded.of_fallbacks spares.fallbacks) (fun id known ↦ ?_)
    (fun id known ↦ ⟨(spares.known id).2 known, spares.relays id⟩) quiet.empty fun key id held ↦ ?_
  · rw [spares.next]
    exact wired.bounded id ((spares.known id).1 known)
  · rwa [cached?, quiet.cache] at held

/-! ## Operations that wait -/

/-- An operation waits to fill tables that were known before. -/
theorem Wired.wait (wired : Wired catalog frames handed) (old : frame.newTable? = none)
    (relays : ∀ id ∈ frame.oldTables, Relays catalog frames id) :
    Wired catalog (frame :: frames) handed := by
  have same := @newTables_cons_of_none frames frame old
  have lift {id : TableId} (before : Relays catalog frames id) : Relays catalog (frame :: frames) id :=
    ⟨before.known, before.relays, by rw [same]; exact before.old⟩
  refine ⟨wired.grounded, wired.bounded, wired.empty, fun key id held ↦ lift (wired.kept key id held),
    List.forall_mem_cons.2 ⟨fun id mem ↦ lift (relays id mem), fun other mem id old ↦ ?_⟩,
    fun id mem ↦ (wired.handed id mem).imp_right lift, by rw [same]; exact wired.new,
    by rw [same]; exact wired.distinct⟩
  exact lift (wired.waiting other mem id old)

theorem Relays.leave (relays : Relays catalog (frame :: frames) id) (old : frame.newTable? = none) :
    Relays catalog frames id :=
  ⟨relays.known, relays.relays, by rw [← newTables_cons_of_none old]; exact relays.old⟩

/-- An operation that filled tables that were known before waits no longer. -/
theorem Wired.leave (wired : Wired catalog (frame :: frames) handed) (old : frame.newTable? = none) :
    Wired catalog frames handed where
  grounded := wired.grounded
  bounded := wired.bounded
  empty := wired.empty
  kept key id held := (wired.kept key id held).leave old
  waiting other mem id among := (wired.waiting other (List.mem_cons_of_mem _ mem) id among).leave old
  handed id mem := (wired.handed id mem).imp_right fun relays ↦ relays.leave old
  new := by
    rw [← newTables_cons_of_none old]
    exact wired.new
  distinct := by
    rw [← newTables_cons_of_none old]
    exact wired.distinct

theorem Wired.hand (wired : Wired catalog frames handed)
    (relays : catalog.empty = some id ∨ Relays catalog frames id) :
    Wired catalog frames (id :: handed) :=
  { wired with handed := List.forall_mem_cons.2 ⟨relays, wired.handed⟩ }

theorem Wired.known (wired : Wired catalog frames handed) (mem : id ∈ handed) :
    id ∈ catalog.library.tables :=
  (wired.handed id mem).elim (fun empty ↦ (wired.empty id empty).1) fun relays ↦ relays.known

/-- A table that was handed out relays if it is not the one without entries. -/
theorem Wired.relays_iff (wired : Wired catalog frames handed) (mem : id ∈ handed) :
    (catalog.library.table id).relays = true ↔ catalog.empty ≠ some id := by
  constructor
  · intro relays empty
    rw [(wired.empty id empty).2] at relays
    cases relays
  · intro other
    exact ((wired.handed id mem).resolve_left other).relays

/-- A load makes a table that relays. -/
theorem Wired.adding (wired : Wired catalog frames handed)
    (next : filling.id = catalog.library.nextTable) (name : String) :
    Wired (catalog.adding name) (.fresh filling :: frames) handed ∧
      Minds handed catalog (catalog.adding name) := by
  have apart {id : TableId} (known : id ∈ catalog.library.tables) :
      id ≠ catalog.library.nextTable := Nat.ne_of_lt (wired.bounded id known)
  have table {id : TableId} (known : id ∈ catalog.library.tables) :
      (catalog.adding name).library.table id = catalog.library.table id :=
    Library.table_adding_of_ne (apart known) name true
  have old {id : TableId} (known : id ∈ catalog.library.tables) (before : id ∉ newTables frames) :
      id ∉ newTables (.fresh filling :: frames) := by
    rw [newTables_cons_fresh, next]
    exact List.not_mem_cons_of_ne_of_not_mem (apart known) before
  have added : Wired (catalog.adding name) frames handed :=
    wired.of_tables (wired.grounded.adding name true)
      (fun _ known ↦ Library.lt_nextTable_adding wired.bounded known)
      (fun id known ↦ ⟨Library.mem_adding.2 (.inr known), by rw [table known]⟩) rfl
      fun _ _ held ↦ held
  have lift {id : TableId} (known : id ∈ catalog.library.tables)
      (before : Relays (catalog.adding name) frames id) :
      Relays (catalog.adding name) (.fresh filling :: frames) id :=
    ⟨before.known, before.relays, old known before.old⟩
  refine ⟨⟨added.grounded, added.bounded, added.empty, fun key id held ↦ ?_, ?_, fun id mem ↦ ?_,
    ?_, ?_⟩, rfl, fun id mem ↦ congrArg Table.audience (table (wired.known mem))⟩
  · exact lift (wired.kept key id held).known (added.kept key id held)
  · refine List.forall_mem_cons.2 ⟨nofun, fun frame mem id among ↦ ?_⟩
    exact lift (wired.waiting frame mem id among).known (added.waiting frame mem id among)
  · exact (added.handed id mem).imp_right (lift (wired.known mem))
  · rw [newTables_cons_fresh, next]
    refine List.forall_mem_cons.2 ⟨⟨Library.mem_adding.2 (.inl rfl), ?_⟩, added.new⟩
    exact congrArg Table.relays (Library.table_adding_self catalog.library name true)
  · rw [newTables_cons_fresh, next]
    exact List.nodup_cons.2 ⟨fun mem ↦ apart (wired.new _ mem).1 rfl, wired.distinct⟩

theorem Relays.of_fresh (relays : Relays catalog (.fresh filling :: frames) id) :
    id ≠ filling.id ∧ Relays catalog frames id := by
  have old := relays.old
  rw [newTables_cons_fresh] at old
  exact ⟨List.ne_of_not_mem_cons old, relays.known, relays.relays, List.not_mem_of_not_mem_cons old⟩

/-- A load that fails drops the table it made, which nobody knows of. -/
theorem Wired.dropping (wired : Wired catalog (.fresh filling :: frames) handed) :
    Wired (catalog.dropping filling.id) frames handed ∧
      Minds handed catalog (catalog.dropping filling.id) := by
  obtain ⟨new, old⟩ := List.forall_mem_cons.1 (newTables_cons_fresh filling frames ▸ wired.new)
  obtain ⟨lone, distinct⟩ := List.nodup_cons.1 (newTables_cons_fresh filling frames ▸ wired.distinct)
  have survives {id : TableId} (known : id ∈ catalog.library.tables) (other : id ≠ filling.id) :
      id ∈ (catalog.dropping filling.id).library.tables ∧
        (catalog.dropping filling.id).library.table id = catalog.library.table id :=
    ⟨Library.mem_dropping.2 ⟨other, known⟩, Library.table_dropping_of_ne other⟩
  have lift {id : TableId} (before : Relays catalog (.fresh filling :: frames) id) :
      Relays (catalog.dropping filling.id) frames id := by
    obtain ⟨other, before⟩ := before.of_fresh
    obtain ⟨known, table⟩ := survives before.known other
    exact ⟨known, by rw [table]; exact before.relays, before.old⟩
  have apart {id : TableId} (empty : catalog.empty = some id) : id ≠ filling.id := by
    rintro rfl
    rw [(wired.empty _ empty).2] at new
    cases new.2
  refine ⟨⟨wired.grounded.dropping filling.id, fun id mem ↦ ?_, fun id held ↦ ?_,
    fun key id held ↦ lift (wired.kept key id held), fun frame mem id among ↦ ?_,
    fun id mem ↦ (wired.handed id mem).imp_right lift, fun id mem ↦ ?_, distinct⟩, rfl, fun id mem ↦ ?_⟩
  · exact wired.bounded id (Library.mem_dropping.1 mem).2
  · obtain ⟨known, silent⟩ := wired.empty id held
    obtain ⟨known', table⟩ := survives known (apart held)
    exact ⟨known', by rw [table]; exact silent⟩
  · exact lift (wired.waiting frame (List.mem_cons_of_mem _ mem) id among)
  · obtain ⟨known, relays⟩ := old id mem
    obtain ⟨known', table⟩ := survives known fun same ↦ lone (same ▸ mem)
    exact ⟨known', by rw [table]; exact relays⟩
  · have other : id ≠ filling.id :=
      (wired.handed id mem).elim apart fun relays ↦ relays.of_fresh.1
    exact congrArg Table.audience (survives (wired.known mem) other).2

/-- A load that succeeds keeps the table it made and hands it out. -/
theorem Wired.keeping (wired : Wired catalog (.fresh filling :: frames) handed) :
    Wired (catalog.keeping filling.key filling.id) frames (filling.id :: handed) ∧
      Minds handed catalog (catalog.keeping filling.key filling.id) := by
  obtain ⟨new, old⟩ := List.forall_mem_cons.1 (newTables_cons_fresh filling frames ▸ wired.new)
  obtain ⟨lone, distinct⟩ := List.nodup_cons.1 (newTables_cons_fresh filling frames ▸ wired.distinct)
  have lift {id : TableId} (before : Relays catalog (.fresh filling :: frames) id) :
      Relays (catalog.keeping filling.key filling.id) frames id :=
    ⟨before.known, before.relays, before.of_fresh.2.old⟩
  have relays : Relays (catalog.keeping filling.key filling.id) frames filling.id :=
    ⟨new.1, new.2, lone⟩
  refine ⟨⟨wired.grounded, wired.bounded, wired.empty, fun key id held ↦ ?_,
    fun frame mem id among ↦ lift (wired.waiting frame (List.mem_cons_of_mem _ mem) id among),
    List.forall_mem_cons.2 ⟨.inr relays, fun id mem ↦ (wired.handed id mem).imp_right lift⟩, old,
    distinct⟩, rfl, fun _ _ ↦ rfl⟩
  rcases of_cached?_keeping held with ⟨-, rfl⟩ | held
  · exact relays
  · exact lift (wired.kept key id held)

end

/-! ## Parts of operations -/

def Progress.frames : Progress → List Frame
  | waiting frame => [frame]
  | answered _ _ => []
  | reported _ => []

def Progress.table? : Progress → Option TableId
  | answered _ (.ok id) => some id
  | _ => none

/-- A part of an operation leaves the catalog wired, with the table that it hands out, and minds those
that were handed out before. -/
structure Comes (frames : List Frame) (handed : List TableId) (before : Catalog)
    (ran : Progress × Catalog) : Prop where
  wired : Wired ran.2 (ran.1.frames ++ frames) (ran.1.table?.toList ++ handed)
  minds : Minds handed before ran.2

section

variable {catalog middle : Catalog} {frames : List Frame} {handed : List TableId}
  {ran : Progress × Catalog}

theorem Comes.after (comes : Comes frames handed middle ran) (minds : Minds handed catalog middle) :
    Comes frames handed catalog ran :=
  ⟨comes.wired, minds.trans comes.minds⟩

theorem comes_answer (wired : Wired catalog frames handed) (key : TableKey)
    {result : Except TableError TableId} (relays : ∀ id, result = .ok id → Relays catalog frames id) :
    Comes frames handed catalog (.answered key result, catalog.journaling .leave) := by
  have quiet := (noted_journaling catalog .leave).quiet
  have left := wired.quiet quiet
  refine ⟨?_, quiet.minds handed⟩
  cases result with
  | error error => exact left
  | ok id => exact left.hand (.inr ((relays id rfl).quiet quiet))

theorem comes_beginRefresh (wired : Wired catalog frames handed) (key : TableKey) {id : TableId}
    (relays : Relays catalog frames id) (target : String) (optional force : Bool) :
    Comes frames handed catalog ((beginRefresh key id target optional force).run catalog) := by
  cases current : !force && catalog.isCurrent id target with
  | true =>
    rw [beginRefresh_run_of_current current]
    refine comes_answer wired key fun other same ↦ ?_
    cases same
    exact relays
  | false =>
    rw [beginRefresh_run_of_stale current]
    have quiet := (noted_openedAgain catalog key target).quiet
    refine ⟨(wired.quiet quiet).wait rfl fun other mem ↦ ?_, quiet.minds handed⟩
    rw [List.mem_singleton.1 mem]
    exact relays.quiet quiet

theorem comes_beginEach (wired : Wired catalog frames handed) (target : String)
    {tables : List (TableKey × TableId)} (relays : ∀ pair ∈ tables, Relays catalog frames pair.2)
    (report : ReloadReport) :
    Comes frames handed catalog ((beginEach target tables report).run catalog) := by
  cases tables with
  | nil =>
    have quiet := (noted_beginEach target [] report catalog).quiet
    exact ⟨wired.quiet quiet, quiet.minds handed⟩
  | cons pair rest =>
    rw [beginEach_cons_run]
    have quiet := (noted_openedAgain catalog pair.1 target).quiet
    refine ⟨(wired.quiet quiet).wait rfl fun id mem ↦ ?_, quiet.minds handed⟩
    have mem : id ∈ (pair :: rest).map Prod.snd := mem
    obtain ⟨other, among, rfl⟩ := List.mem_map.1 mem
    exact (relays other among).quiet quiet

theorem comes_beginLoad (wired : Wired catalog frames handed) (key : TableKey)
    (optional force : Bool) :
    Comes frames handed catalog ((beginLoad key optional force).run catalog) := by
  have quiet := (noted_journaling catalog .enter).quiet
  have entered := wired.quiet quiet
  cases held : catalog.cached? key with
  | some id =>
    rw [beginLoad_run_of_cached held]
    exact (comes_beginRefresh entered key ((wired.kept key id held).quiet quiet) _ _ _).after
      (quiet.minds handed)
  | none =>
    rw [beginLoad_run_of_absent held]
    let filling := (catalog.journaling .enter).filling key catalog.library.nextTable catalog.locale
      optional
    obtain ⟨added, minds⟩ := @Wired.adding _ frames filling handed entered rfl key.text
    have opened := (noted_openedNew (catalog.journaling .enter) key catalog.locale).quiet
    exact ⟨added.quiet opened, ((quiet.minds handed).trans minds).trans (opened.minds handed)⟩

theorem comes_beginReloadAll (wired : Wired catalog frames handed) :
    Comes frames handed catalog (beginReloadAll.run catalog) := by
  rw [beginReloadAll_run]
  refine comes_beginEach wired catalog.locale (fun pair mem ↦ ?_) {}
  obtain ⟨key, id⟩ := pair
  exact wired.kept key id (Std.TreeMap.mem_toList_iff_getElem?_eq_some.1 mem)

/-- A load that goes on fails and drops its table, or keeps it, or finds that another one is kept. -/
theorem comes_resume_fresh {filling : Filling} (wired : Wired catalog (.fresh filling :: frames) handed) :
    Comes frames handed catalog ((Frame.fresh filling).resume.run catalog) := by
  have finish := quiet_finish filling false catalog
  have filled := wired.quiet finish
  cases finished : ((filling.finish false).run catalog).1 with
  | error error =>
    obtain ⟨dropped, minds⟩ := filled.dropping
    rw [resume_fresh_of_error finished]
    refine (comes_answer dropped filling.key fun id same ↦ ?_).after
      ((finish.minds handed).trans minds)
    cases same
  | ok _ =>
    cases held : ((filling.finish false).run catalog).2.cached? filling.key with
    | none =>
      obtain ⟨kept, minds⟩ := filled.keeping
      rw [resume_fresh_of_kept finished held]
      have quiet := (noted_journaling (((filling.finish false).run catalog).2.keeping filling.key
        filling.id) .leave).quiet
      exact ⟨kept.quiet quiet, ((finish.minds handed).trans minds).trans (quiet.minds handed)⟩
    | some winner =>
      have discarded := (noted_log (.duplicateDiscarded filling.key.text)
        ((filling.finish false).run catalog).2).quiet
      obtain ⟨dropped, minds⟩ := (filled.quiet discarded).dropping
      rw [resume_fresh_of_lost finished held]
      exact (comes_beginRefresh dropped filling.key (dropped.kept filling.key winner held) _ _ _).after
        (((finish.minds handed).trans (discarded.minds handed)).trans minds)

/-- An operation that goes on leaves the catalog wired. -/
theorem comes_resume {frame : Frame} (wired : Wired catalog (frame :: frames) handed) :
    Comes frames handed catalog (frame.resume.run catalog) := by
  cases frame with
  | fresh filling => exact comes_resume_fresh wired
  | stale filling =>
    have finish := quiet_finish filling true catalog
    have relays := (wired.waiting _ List.mem_cons_self filling.id List.mem_cons_self).leave rfl
    rw [resume_stale_run]
    refine (comes_answer ((wired.leave rfl).quiet finish) filling.key fun id same ↦ ?_).after
      (finish.minds handed)
    cases result : ((filling.finish true).run catalog).1 with
    | error error =>
      rw [result] at same
      cases same
    | ok _ =>
      rw [result] at same
      cases same
      exact relays.quiet finish
  | all filling rest report =>
    have quiet := quiet_report filling report catalog
    rw [resume_all_run]
    refine (comes_beginEach ((wired.leave rfl).quiet quiet) filling.target (fun pair mem ↦ ?_)
      _).after (quiet.minds handed)
    have among : pair.2 ∈ (Frame.all filling rest report).oldTables :=
      List.mem_cons_of_mem _ (List.mem_map_of_mem mem)
    exact ((wired.waiting _ List.mem_cons_self pair.2 among).leave rfl).quiet quiet

end

end Catalog

end Phrasebook
