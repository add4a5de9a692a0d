import Phrasebook.Proofs.Catalog.Wiring
import Phrasebook.Proofs.Library.Hearing

/-!
# Listening to a catalog

Whoever listens to a catalog hears of the keys that a table lacks, whether the table was handed out before
or after, and whatever was done with it since: a table relays to the listeners of the moment and not to
those of the day it was made. The table without entries is the exception. It is made without a relay, so
its misses come to its own observers only.
-/

namespace Phrasebook.Catalog

open Phrasebook.Storage

/-! ## What may be done -/

/-- What may be done with a catalog and its tables. -/
inductive Act where
  /-- An operation of the catalog begins or goes on. -/
  | move (move : Move)
  /-- Someone asks for the table that is kept for a key. -/
  | ask (key : TableKey)
  | emptyTable
  | clearCache
  /-- Something is done to the tables; none is dropped, as someone may still hold it. -/
  | perform (deed : Deed) (keeps : ∀ id, deed ≠ .drop id)

def Act.listener? : Act → Option Observer
  | perform deed _ => deed.listener?
  | _ => none

def Act.observer? (id : TableId) : Act → Option Observer
  | perform deed _ => deed.observer? id
  | _ => none

def Reply.table? : Reply → Option TableId
  | ⟨_, .ok id, _⟩ => some id
  | ⟨_, .error _, _⟩ => none

structure Scene where
  machine : Machine
  handed : List TableId := []

namespace Scene

def catalog (scene : Scene) : Catalog := scene.machine.catalog

def having (scene : Scene) (catalog : Catalog) (handed : List TableId) : Scene :=
  ⟨{ scene.machine with catalog := catalog }, handed ++ scene.handed⟩

def act (scene : Scene) : Act → Scene
  | .move move =>
    let (machine, reply) := scene.machine.step move
    ⟨machine, (reply.bind Reply.table?).toList ++ scene.handed⟩
  | .ask key => scene.having scene.catalog (scene.catalog.cached? key).toList
  | .emptyTable =>
    let (id, catalog) := Catalog.emptyTable.run scene.catalog
    scene.having catalog [id]
  | .clearCache => scene.having (Catalog.clearCache.run scene.catalog).2 []
  | .perform deed _ => scene.having ((inLibrary deed.perform).run scene.catalog).2 []

def run (scene : Scene) (acts : List Act) : Scene := acts.foldl act scene

/-- Every table that was handed out relays, but for the one without entries. -/
def Wired (scene : Scene) : Prop :=
  Catalog.Wired scene.catalog (scene.machine.suspended.map Prod.snd) scene.handed

/-- Listeners and observers come with the acts that say so, and nothing else changes who hears of the
tables that were handed out. -/
structure Hears (acts : List Act) (before after : Scene) : Prop where
  handed : ∀ id ∈ before.handed, id ∈ after.handed
  listeners : after.catalog.library.listeners =
    before.catalog.library.listeners ++ acts.filterMap Act.listener?
  observers : ∀ id ∈ before.handed, (after.catalog.library.table id).observers =
    (before.catalog.library.table id).observers ++ acts.filterMap (Act.observer? id)

section

variable {before middle after : Scene} {act : Act} {acts more : List Act}

theorem Hears.nil (scene : Scene) : Hears [] scene scene :=
  ⟨fun _ mem ↦ mem, (List.append_nil _).symm, fun _ _ ↦ (List.append_nil _).symm⟩

theorem Hears.append (first : Hears acts before middle) (second : Hears more middle after) :
    Hears (acts ++ more) before after where
  handed id mem := second.handed id (first.handed id mem)
  listeners := by
    rw [second.listeners, first.listeners, List.filterMap_append, List.append_assoc]
  observers id mem := by
    rw [second.observers id (first.handed id mem), first.observers id mem, List.filterMap_append,
      List.append_assoc]

theorem filterMap_singleton (f : Act → Option Observer) (act : Act) :
    [act].filterMap f = (f act).toList := by
  rw [List.filterMap_eq_flatMap_toList, List.flatMap_singleton]

theorem hears_of_minds (minds : Minds before.handed before.catalog after.catalog)
    (handed : ∀ id ∈ before.handed, id ∈ after.handed) (listener : act.listener? = none)
    (observer : ∀ id, act.observer? id = none) : Hears [act] before after where
  handed := handed
  listeners := by
    rw [filterMap_singleton, listener, minds.listeners, Option.toList_none, List.append_nil]
  observers id mem := by
    rw [filterMap_singleton, observer, Option.toList_none, List.append_nil]
    exact congrArg Audience.observers (minds.audience id mem)

theorem hears_of_attends {deed : Deed} {keeps : ∀ id, deed ≠ .drop id}
    (attends : Library.Attends deed before.catalog.library after.catalog.library)
    (known : ∀ id ∈ before.handed, id ∈ before.catalog.library.tables)
    (handed : ∀ id ∈ before.handed, id ∈ after.handed) :
    Hears [.perform deed keeps] before after where
  handed := handed
  listeners := by
    rw [filterMap_singleton, attends.listeners]
    rfl
  observers id mem := by
    rw [filterMap_singleton, attends.observers id (known id mem)]
    rfl

end

/-! ## Operations -/

/-- A part of an operation, as it is run above the operations that wait. -/
theorem wired_advance {machine : Machine} {handed : List TableId} (began : Nat)
    {rest : List (Nat × Frame)} {part : CatalogM Progress}
    (comes : Comes (rest.map Prod.snd) handed machine.catalog (part.run machine.catalog)) :
    let (after, reply) := machine.advance began rest part
    Catalog.Wired after.catalog (after.suspended.map Prod.snd)
        ((reply.bind Reply.table?).toList ++ handed) ∧
      Minds handed machine.catalog after.catalog := by
  have suspended (progress : Progress) : (progress.onto began rest).map Prod.snd =
      progress.frames ++ rest.map Prod.snd := by
    cases progress <;> rfl
  have table (progress : Progress) :
      (progress.reply? began).bind Reply.table? = progress.table? := by
    cases progress with
    | answered key result => cases result <;> rfl
    | waiting frame => rfl
    | reported report => rfl
  refine ⟨?_, comes.minds⟩
  dsimp only
  rw [suspended, table]
  exact comes.wired

/-- An operation of the catalog that begins or goes on. -/
theorem wired_step {machine : Machine} {handed : List TableId}
    (wired : Catalog.Wired machine.catalog (machine.suspended.map Prod.snd) handed) (move : Move) :
    let (after, reply) := machine.step move
    Catalog.Wired after.catalog (after.suspended.map Prod.snd)
        ((reply.bind Reply.table?).toList ++ handed) ∧
      Minds handed machine.catalog after.catalog := by
  have still {after : Catalog} (quiet : Quiet machine.catalog after) :
      Catalog.Wired after (machine.suspended.map Prod.snd) handed ∧
        Minds handed machine.catalog after := ⟨wired.quiet quiet, quiet.minds handed⟩
  cases move with
  | setLocale locale =>
    obtain ⟨journal, ran⟩ := setLocale_run locale machine.catalog
    rw [Machine.step_setLocale, ran]
    exact still ⟨rfl, rfl, .of_recorded ⟨journal, rfl⟩⟩
  | load key optional force =>
    exact wired_advance machine.epoch (comes_beginLoad wired key optional force)
  | reloadAll => exact wired_advance machine.epoch (comes_beginReloadAll wired)
  | resume =>
    obtain ⟨catalog, epoch, suspended⟩ := machine
    cases suspended with
    | nil => exact still ⟨rfl, rfl, .refl _⟩
    | cons operation rest => exact wired_advance operation.1 (comes_resume wired)
  | edit change => exact still ⟨rfl, rfl, .refl _⟩
  | rearrange interruptions => exact still ⟨rfl, rfl, .refl _⟩

/-! ## Other acts -/

section

variable {catalog : Catalog} {frames : List Frame} {handed : List TableId}

theorem wired_perform (wired : Catalog.Wired catalog frames handed) {deed : Deed}
    (keeps : ∀ id, deed ≠ .drop id) :
    Catalog.Wired ((inLibrary deed.perform).run catalog).2 frames handed := by
  have attends := Library.attends_perform wired.bounded wired.grounded keeps
  exact wired.of_tables (wired.grounded.perform deed) attends.bounded
    (fun id known ↦ ⟨attends.known id known, attends.relays id known⟩) rfl fun _ _ held ↦ held

theorem wired_clearCache (wired : Catalog.Wired catalog frames handed) :
    Catalog.Wired (Catalog.clearCache.run catalog).2 frames handed := by
  refine wired.of_tables wired.grounded wired.bounded (fun id known ↦ ⟨known, rfl⟩) rfl
    fun key id held ↦ ?_
  have gone : (Catalog.clearCache.run catalog).2.cached? key = none := Std.TreeMap.getElem?_emptyc
  rw [gone] at held
  cases held

/-- The table without entries is made without a relay. -/
theorem wired_makingEmpty (wired : Catalog.Wired catalog frames handed) (absent : catalog.empty = none) :
    Catalog.Wired (makingEmpty catalog) frames (catalog.library.nextTable :: handed) := by
  have added := @wired_perform catalog frames handed wired (.create "<empty>" false) nofun
  have silent := Library.table_adding_self catalog.library "<empty>" false
  have lift {id : TableId}
      (before : Relays ((inLibrary (Deed.create "<empty>" false).perform).run catalog).2 frames id) :
      Relays (makingEmpty catalog) frames id := ⟨before.known, before.relays, before.old⟩
  refine ⟨added.grounded, added.bounded, fun id held ↦ ?_, fun key id held ↦ lift (added.kept key id held),
    fun frame mem id among ↦ lift (added.waiting frame mem id among),
    List.forall_mem_cons.2 ⟨.inl rfl, fun id mem ↦ ?_⟩, added.new, added.distinct⟩
  · cases held
    exact ⟨Library.mem_adding.2 (.inl rfl), congrArg Table.relays silent⟩
  · rcases added.handed id mem with empty | relays
    · cases absent.symm.trans empty
    · exact .inr (lift relays)

end

variable {scene : Scene}

theorem Wired.emptyTable (wired : scene.Wired) :
    (scene.act .emptyTable).Wired ∧ Hears [.emptyTable] scene (scene.act .emptyTable) := by
  have kept : ∀ id ∈ scene.handed, id ∈ (scene.act .emptyTable).handed :=
    fun id mem ↦ List.mem_cons_of_mem _ mem
  rw [act] at kept ⊢
  cases made : scene.catalog.empty with
  | some id =>
    rw [emptyTable_run_of_some made] at kept ⊢
    exact ⟨wired.hand (.inl made), hears_of_minds ⟨rfl, fun _ _ ↦ rfl⟩ kept rfl fun _ ↦ rfl⟩
  | none =>
    rw [emptyTable_run_of_none made] at kept ⊢
    refine ⟨wired_makingEmpty wired made, hears_of_minds ⟨rfl, fun id mem ↦ ?_⟩ kept rfl fun _ ↦ rfl⟩
    have before : id ≠ scene.catalog.library.nextTable :=
      Nat.ne_of_lt (Catalog.Wired.bounded wired id (Catalog.Wired.known wired mem))
    exact congrArg Table.audience (Library.table_adding_of_ne before "<empty>" false)

/-- An act leaves the scene wired, and changes who hears of its tables only as it says. -/
theorem Wired.act (wired : scene.Wired) (act : Act) :
    (scene.act act).Wired ∧ Hears [act] scene (scene.act act) := by
  cases act with
  | move move =>
    obtain ⟨after, minds⟩ := wired_step wired move
    exact ⟨after, hears_of_minds minds (fun id mem ↦ List.mem_append_right _ mem) rfl fun _ ↦ rfl⟩
  | ask key =>
    refine ⟨?_, hears_of_minds ⟨rfl, fun _ _ ↦ rfl⟩ (fun id mem ↦ List.mem_append_right _ mem) rfl
      fun _ ↦ rfl⟩
    rw [Scene.act]
    cases held : scene.catalog.cached? key with
    | none => exact wired
    | some id => exact wired.hand (.inr (Catalog.Wired.kept wired key id held))
  | emptyTable => exact wired.emptyTable
  | clearCache =>
    exact ⟨wired_clearCache wired, hears_of_minds ⟨rfl, fun _ _ ↦ rfl⟩ (fun _ mem ↦ mem) rfl fun _ ↦ rfl⟩
  | perform deed keeps =>
    have attends := Library.attends_perform (Catalog.Wired.bounded wired) (Catalog.Wired.grounded wired)
      keeps
    exact ⟨wired_perform wired keeps,
      hears_of_attends attends (fun id mem ↦ Catalog.Wired.known wired mem) fun _ mem ↦ mem⟩

/-! ## All acts -/

theorem Wired.run (wired : scene.Wired) (acts : List Act) :
    (scene.run acts).Wired ∧ Hears acts scene (scene.run acts) := by
  induction acts generalizing scene with
  | nil => exact ⟨wired, .nil scene⟩
  | cons act acts ih =>
    obtain ⟨wired, hears⟩ := wired.act act
    obtain ⟨wired, others⟩ := ih wired
    exact ⟨wired, hears.append others⟩

/-- Nothing was done to the catalog yet. -/
def opening (locale : String) (locator : Locator) (store : Store) : Scene :=
  { machine := { catalog := { locale := locale, locator := locator, store := store } } }

theorem wired_opening (locale : String) (locator : Locator) (store : Store) :
    (opening locale locator store).Wired := by
  have no_table (id : TableId) : id ∉ (opening locale locator store).catalog.library.tables :=
    Std.TreeMap.not_mem_emptyc
  refine ⟨Library.grounded_of_bare fun id ↦ ?_, fun id known ↦ absurd known (no_table id), nofun,
    fun key id held ↦ ?_, nofun, nofun, nofun, List.nodup_nil⟩
  · simp [Library.table_of_not_mem (no_table id)]
  · have absent : (opening locale locator store).catalog.cached? key = none :=
      Std.TreeMap.getElem?_emptyc
    cases absent.symm.trans held

/-! ## Everybody hears -/

/-- Who hears of a table that was handed out, whatever was done before and after: everybody who listens
to the catalog by now, in order, and then everybody who observes the table, exactly if it is not the
table without entries, or nobody listens. Of that table its observers hear alone. A lookup in a table that
lacks the key misses it, no lookup misses a table twice, and each miss is told to everybody who hears of
the table, once and in order, though others break down. -/
theorem every_listener_hears_iff_not_empty_table {locale : String} {locator : Locator} {store : Store}
    {acts : List Act} {id : TableId} (handed : id ∈ ((opening locale locator store).run acts).handed)
    (more : List Act) :
    let scene := (opening locale locator store).run acts
    let later := scene.run more
    let library := later.catalog.library
    let listeners := (acts ++ more).filterMap Act.listener?
    let observers := (scene.catalog.library.table id).observers ++ more.filterMap (Act.observer? id)
    (library.hearers id = listeners ++ observers ↔
      later.catalog.empty ≠ some id ∨ listeners = []) ∧
    (later.catalog.empty = some id → library.hearers id = observers) ∧
    (∀ key, Text.isBlankText key = false → key ∉ (library.table id).entries →
      ∃ rest, library.missed id key = id :: rest) ∧
    ∀ first key optional, (library.missed first key).Nodup ∧
      Library.Tells ((library.missed first key).flatMap (library.heardAt key))
        ((library.missed first key).flatMap (library.recordedAt key optional)) library
        ((Library.find first key optional).run library).2 := by
  intro scene later library listeners observers
  obtain ⟨wired, heard⟩ := (wired_opening locale locator store).run acts
  obtain ⟨wired_later, hears⟩ := wired.run more
  have grounded : library.Grounded := Catalog.Wired.grounded wired_later
  have relays := Catalog.Wired.relays_iff wired_later (hears.handed id handed)
  have listening : library.listeners = listeners := (heard.append hears).listeners
  have observing : (library.table id).observers = observers := hears.observers id handed
  have own (empty : later.catalog.empty = some id) : library.hearers id = observers := by
    have silent : ¬ (library.table id).relays = true := fun relaying ↦ relays.1 relaying empty
    rw [Library.hearers, if_neg silent, observing, List.nil_append]
  refine ⟨⟨fun all ↦ ?_, fun apart ↦ ?_⟩, own,
    fun key sought lacks ↦ Library.missed_of_lacks grounded sought lacks,
    fun first key optional ↦ ⟨Library.nodup_missed grounded first key,
      Library.find_tells grounded first key optional⟩⟩
  · refine Classical.or_iff_not_imp_left.2 fun empty ↦ ?_
    rw [own (Classical.not_not.1 empty)] at all
    exact List.append_left_eq_self.1 all.symm
  · by_cases empty : later.catalog.empty = some id
    · rw [own empty, apart.resolve_left fun other ↦ other empty, List.nil_append]
    · rw [Library.hearers, if_pos (relays.2 empty), listening, observing]

/-- One listens before a table is loaded and one after, and the later one breaks down; the table was let
go of since. -/
theorem every_listener_hears_greetings :
    let acts : List Act := [.perform (.listen ⟨"early", .note⟩) nofun,
      .move (.load ⟨"", "hi"⟩ true false), .move .resume, .emptyTable,
      .perform (.observe 0 ⟨"own", .probe⟩) nofun]
    let more : List Act := [.perform (.listen ⟨"late", .fail⟩) nofun,
      .perform (.listen ⟨"last", .supply "Hello"⟩) nofun, .clearCache]
    let scene := (opening "en" {} .inMemory).run acts
    let library := (scene.run more).catalog.library
    0 ∈ scene.handed ∧
      library.hearers 0 = [⟨"early", .note⟩, ⟨"late", .fail⟩, ⟨"last", .supply "Hello"⟩,
        ⟨"own", .probe⟩] ∧
      ∃ left, ((Library.find 0 "hi" true).run library).2.notices = library.notices ++ left ∧
        left.map Notice.hearing =
          [⟨"early", "hi", "hi"⟩, ⟨"last", "hi", "hi"⟩, ⟨"own", "hi", "hi"⟩] := by
  intro acts more scene library
  have handed : 0 ∈ scene.handed := by decide +kernel
  obtain ⟨all, -, -, lookups⟩ := every_listener_hears_iff_not_empty_table handed more
  have hearers := all.2 (.inl (by decide +kernel))
  obtain ⟨left, grown, about⟩ := (lookups 0 "hi" true).2.notices
  exact ⟨handed, hearers.trans (by decide +kernel), left, grown, about.trans (by decide +kernel)⟩

/-- A lookup in the table without entries, of which the one who listens to the catalog does not hear. -/
theorem empty_table_tells_no_listener :
    let scene := (opening "en" {} .inMemory).run
      [.perform (.listen ⟨"all", .note⟩) nofun, .emptyTable]
    let library := scene.catalog.library
    0 ∈ scene.handed ∧ library.listeners = [⟨"all", .note⟩] ∧ library.missed 0 "k" = [0] ∧
      library.hearers 0 = [] ∧ ((Library.find 0 "k" true).run library).2.notices = [] := by
  decide +kernel

end Scene

end Phrasebook.Catalog
