import Phrasebook.Proofs.Library.Deeds

/-!
# Who hears of a miss

A lookup misses the tables of its chain that come before the first one with the key. Everybody who wants
to hear of a miss hears of it once, in order, whatever those before did: an observer may have put the key
into the table, or may have broken down. A notice is left for each one that hears and does not break down,
and an event for each one that does. Who hears of a table changes only where someone subscribes.
-/

namespace Phrasebook

/-- Someone heard of a key that a table lacks. -/
structure Hearing where
  label : String
  table : String
  key : String
deriving DecidableEq

def Notice.hearing (notice : Notice) : Hearing := ⟨notice.label, notice.table, notice.key⟩

namespace Library

/-- Notices with these hearings were left, and these events were recorded. -/
structure Tells (hearings : List Hearing) (events : List LibraryEvent) (before after : Library) :
    Prop where
  notices : ∃ left, after.notices = before.notices ++ left ∧ left.map Notice.hearing = hearings
  journal : after.journal = events.foldl Journal.log before.journal

namespace Tells

variable {before middle after : Library} {hearings others : List Hearing}
  {events more : List LibraryEvent}

/-- Nobody hears of anything. -/
theorem of_notices_eq (notices : after.notices = before.notices)
    (journal : after.journal = events.foldl Journal.log before.journal) :
    Tells [] events before after :=
  ⟨⟨[], by rw [notices, List.append_nil], rfl⟩, journal⟩

theorem nil (library : Library) : Tells [] [] library library := .of_notices_eq rfl rfl

theorem append (first : Tells hearings events before middle)
    (second : Tells others more middle after) :
    Tells (hearings ++ others) (events ++ more) before after := by
  obtain ⟨left, grown, about⟩ := first.notices
  obtain ⟨further, grown', about'⟩ := second.notices
  refine ⟨⟨left ++ further, ?_, ?_⟩, ?_⟩
  · rw [grown', grown, List.append_assoc]
  · rw [List.map_append, about, about']
  · rw [second.journal, first.journal, List.foldl_append]

end Tells

/-- What is heard of a miss by those who do not break down. -/
def hearingsOf (table : Table) (key : String) (observers : List Observer) : List Hearing :=
  (observers.filter (·.reaction ≠ .fail)).map fun observer ↦ ⟨observer.label, table.name, key⟩

/-- What is heard when a table is missed. -/
def heardAt (library : Library) (key : String) (id : TableId) : List Hearing :=
  hearingsOf (library.table id) key (library.hearers id)

/-- What is recorded when a table is missed. -/
def recordedAt (library : Library) (key : String) (optional : Bool) (id : TableId) :
    List LibraryEvent :=
  .missingString (library.table id).name key optional ::
    failuresOf (library.table id) key (library.hearers id)

/-- The tables of a chain before the first that has a key. -/
def missedAlong (library : Library) (key : String) (path : List TableId) : List TableId :=
  path.takeWhile fun id ↦ key ∉ (library.table id).entries

def missed (library : Library) (id : TableId) (key : String) : List TableId :=
  if Text.isBlankText key then [] else library.missedAlong key (library.lookupPath id)

theorem hearingsOf_cons (table : Table) (key : String) (observer : Observer)
    (observers : List Observer) :
    hearingsOf table key (observer :: observers) =
      hearingsOf table key [observer] ++ hearingsOf table key observers := by
  rw [hearingsOf, hearingsOf, hearingsOf, ← List.map_append, ← List.filter_append]
  rfl

section

variable {library after : Library}

theorem SameAudience.heardAt (same : SameAudience library after) (key : String) :
    after.heardAt key = library.heardAt key := by
  funext id
  rw [Library.heardAt, Library.heardAt, same.hearers, hearingsOf, hearingsOf, same.name]

theorem SameAudience.recordedAt (same : SameAudience library after) (key : String)
    (optional : Bool) : after.recordedAt key optional = library.recordedAt key optional := by
  funext id
  rw [Library.recordedAt, Library.recordedAt, same.hearers, failuresOf, failuresOf, same.name]

/-- What happens at a table that is not on a chain leaves the missed ones as they were. -/
theorem missedAlong_of_sameBut {id : TableId} (frame : SameBut id library after) (key : String)
    {path : List TableId} (away : id ∉ path) :
    after.missedAlong key path = library.missedAlong key path := by
  induction path with
  | nil => rfl
  | cons next rest ih =>
    have apart : next ≠ id := (List.ne_of_not_mem_cons away).symm
    rw [missedAlong, missedAlong, List.takeWhile_cons, List.takeWhile_cons,
      frame.others next apart, ← missedAlong, ← missedAlong, ih (List.not_mem_of_not_mem_cons away)]

/-! ## One miss -/

variable {id : TableId} {key : String}

theorem insert_tells (id : TableId) (phrase : Phrase) (overwrite : Bool) (library : Library) :
    Tells [] [] library ((insert id phrase overwrite).run library).2 := by
  rw [insert_run]
  split
  all_goals exact .of_notices_eq rfl rfl

theorem notifyOne_tells {table : Table} (named : (library.table id).name = table.name)
    (observer : Observer) :
    Tells (hearingsOf table key [observer]) (failuresOf table key [observer]) library
      ((notifyOne id key observer).run library).2 := by
  obtain ⟨label, reaction⟩ := observer
  have about (finding : Finding) :
      [(⟨label, (library.table id).name, key, finding⟩ : Notice)].map Notice.hearing =
        [⟨label, table.name, key⟩] := by
    simp [Notice.hearing, named]
  cases reaction with
  | note => exact ⟨⟨_, rfl, about .heard⟩, rfl⟩
  | probe => exact ⟨⟨_, rfl, about (.probed _ _)⟩, rfl⟩
  | supply text =>
    rw [notifyOne_run_of_supply]
    exact (insert_tells id (.raw key text) false library).append ⟨⟨_, rfl, about (.supplied _)⟩, rfl⟩
  | fail =>
    rw [failuresOf, ← named]
    exact .of_notices_eq rfl rfl

/-- Observers hear one after the other, whatever those before them did to the table. -/
theorem notifyAll_tells {table : Table} (named : (library.table id).name = table.name)
    (observers : List Observer) :
    Tells (hearingsOf table key observers) (failuresOf table key observers) library
      ((notifyAll id key observers).run library).2 := by
  induction observers generalizing library with
  | nil => exact .nil library
  | cons observer observers ih =>
    have named_still := (((respected_spares id).notifyOne library key observer).name id).trans named
    rw [hearingsOf_cons, failuresOf_cons]
    exact (notifyOne_tells named observer).append (ih named_still)

theorem afterMiss_tells (library : Library) (id : TableId) (key : String) (optional : Bool) :
    Tells (library.heardAt key id) (library.recordedAt key optional id) library
      (library.afterMiss id key optional) := by
  let event : LibraryEvent := .missingString (library.table id).name key optional
  have logged : Tells [] [event] library ((log event).run library).2 := .of_notices_eq rfl rfl
  have named : (((log event).run library).2.table id).name = (library.table id).name := rfl
  exact logged.append (notifyAll_tells named (library.hearers id))

/-! ## Lookups -/

/-- A stand-in is made without a word. -/
theorem standIn_tells (id : TableId) (key : String) (library : Library) :
    Tells [] [] library ((standIn id key).run library).2 := by
  rw [(standIn_run id key library).frame]
  exact .of_notices_eq rfl rfl

variable {path : List TableId}

/-- Along a chain every table that lacks the key is heard of once, in the order of the chain. -/
theorem getAlong_tells (distinct : path.Nodup) (optional : Bool) :
    Tells ((library.missedAlong key path).flatMap (library.heardAt key))
      ((library.missedAlong key path).flatMap (library.recordedAt key optional)) library
      ((getAlong key optional path).run library).2 := by
  induction path generalizing library with
  | nil => exact .nil library
  | cons id rest ih =>
    obtain ⟨away, distinct⟩ := List.nodup_cons.1 distinct
    rcases held_or_lacks (library.table id) key with ⟨shared, held⟩ | lacks
    · have has := Std.TreeMap.isSome_getElem?_iff_mem.1 (Option.isSome_of_eq_some held)
      rw [getAlong_of_mem held, missedAlong, List.takeWhile_cons_of_neg (by simpa using has)]
      exact .nil library
    · obtain ⟨spares, frame⟩ := afterMiss_spares id library key optional
      have missing := afterMiss_tells library id key optional
      rw [missedAlong, List.takeWhile_cons_of_pos (by simpa using lacks), ← missedAlong,
        List.flatMap_cons, List.flatMap_cons]
      cases rest with
      | nil =>
        rw [getAlong_last lacks]
        cases optional with
        | false => exact missing.append (.nil _)
        | true => exact missing.append (standIn_tells id key _)
      | cons next rest =>
        have further := @ih (library.afterMiss id key optional) distinct
        rw [missedAlong_of_sameBut frame key away, spares.heardAt, spares.recordedAt] at further
        rw [getAlong_cons lacks]
        exact missing.append further

theorem missed_eq (falls : library.FallsBack id path) (key : String) :
    library.missed id key =
      if Text.isBlankText key then [] else library.missedAlong key path := by
  rw [missed, falls.lookupPath_eq]

/-- A lookup misses no table twice. -/
theorem nodup_missed (grounded : library.Grounded) (id : TableId) (key : String) :
    (library.missed id key).Nodup := by
  obtain ⟨path, falls⟩ := grounded id
  rw [missed_eq falls]
  split
  · exact List.nodup_nil
  · exact falls.nodup.sublist (List.takeWhile_sublist _)

/-- A table that lacks a key is missed first when the key is looked up in it. -/
theorem missed_of_lacks (grounded : library.Grounded) (sought : Text.isBlankText key = false)
    (lacks : key ∉ (library.table id).entries) : ∃ rest, library.missed id key = id :: rest := by
  obtain ⟨path, falls⟩ := grounded id
  have begins : ∃ rest, path = id :: rest := by cases falls <;> exact ⟨_, rfl⟩
  obtain ⟨rest, rfl⟩ := begins
  rw [missed_eq falls, sought, missedAlong, List.takeWhile_cons_of_pos (by simpa using lacks)]
  exact ⟨_, rfl⟩

/-- A lookup tells everybody who wants to hear of a table that it misses, table by table, and nobody
else. -/
theorem find_tells (grounded : library.Grounded) (id : TableId) (key : String) (optional : Bool) :
    Tells ((library.missed id key).flatMap (library.heardAt key))
      ((library.missed id key).flatMap (library.recordedAt key optional)) library
      ((find id key optional).run library).2 := by
  obtain ⟨path, falls⟩ := grounded id
  rw [find, missed_eq falls]
  cases blank : Text.isBlankText key with
  | true => exact .nil library
  | false =>
    have tells := @getAlong_tells library key path falls.nodup optional
    rw [← falls.lookupPath_eq] at tells ⊢
    exact tells

end

end Library

/-! ## Subscribing -/

def Deed.listener? : Deed → Option Observer
  | listen observer => some observer
  | _ => none

def Deed.observer? (id : TableId) : Deed → Option Observer
  | observe other observer => if other = id then some observer else none
  | _ => none

namespace Library

/-- Listeners and observers come with a deed that says so, and nothing else changes who hears of the
tables that are there. -/
structure Attends (deed : Deed) (before after : Library) : Prop where
  listeners : after.listeners = before.listeners ++ deed.listener?.toList
  known : ∀ id, id ∈ before.tables → id ∈ after.tables
  relays : ∀ id, id ∈ before.tables → (after.table id).relays = (before.table id).relays
  observers : ∀ id, id ∈ before.tables → (after.table id).observers =
    (before.table id).observers ++ (deed.observer? id).toList
  bounded : ∀ id, id ∈ after.tables → id < after.nextTable

theorem SameAudience.attends {before after : Library} {deed : Deed}
    (same : SameAudience before after)
    (bounded : ∀ id, id ∈ before.tables → id < before.nextTable) (listener : deed.listener? = none)
    (observer : ∀ id, deed.observer? id = none) : Attends deed before after where
  listeners := by rw [listener, same.listeners, Option.toList_none, List.append_nil]
  known id := (same.known id).2
  relays id _ := same.relays id
  observers id _ := by rw [observer, same.observers, Option.toList_none, List.append_nil]
  bounded id mem := by
    rw [same.next]
    exact bounded id ((same.known id).1 mem)

section

variable {library : Library} (bounded : ∀ id, id ∈ library.tables → id < library.nextTable)

include bounded

theorem attends_observe (id : TableId) (observer : Observer) :
    Attends (.observe id observer) library ((observe id observer).run library).2 := by
  let f (table : Table) : Table := { table with observers := table.observers ++ [observer] }
  rw [observe_run]
  refine ⟨by simp [Deed.listener?], fun other known ↦ by simpa using known,
    fun other _ ↦ @field_modifyTable _ Table.relays f (fun _ ↦ rfl) id other library,
    fun other known ↦ ?_, fun other mem ↦ bounded other (by simpa using mem)⟩
  by_cases same : id = other
  · subst same
    simp [Deed.observer?, known]
  · simp [Deed.observer?, same, Ne.symm same]

/-- A new table changes nothing about the others. -/
theorem attends_create (name : String) (relays : Bool) :
    Attends (.create name relays) library (library.adding name relays) := by
  have table (id : TableId) (known : id ∈ library.tables) :
      (library.adding name relays).table id = library.table id :=
    table_adding_of_ne (Nat.ne_of_lt (bounded id known)) name relays
  exact ⟨by simp [Deed.listener?], fun id known ↦ mem_adding.2 (.inr known),
    fun id known ↦ by rw [table id known], fun id known ↦ by simp [Deed.observer?, table id known],
    fun _ known ↦ lt_nextTable_adding bounded known⟩

/-- Who hears of a table is changed by the deeds that say so. -/
theorem attends_perform (grounded : library.Grounded) {deed : Deed}
    (keeps : ∀ id, deed ≠ .drop id) : Attends deed library (deed.perform.run library).2 := by
  cases deed with
  | find id key optional =>
    exact (sameAudience_find id key optional library).attends bounded rfl fun _ ↦ rfl
  | change id call =>
    exact ((respected_sameAudience id).call library call).attends bounded rfl fun _ ↦ rfl
  | setFallback id fallback =>
    exact (sameAudience_setFallback grounded id fallback).attends bounded rfl fun _ ↦ rfl
  | create name relays => exact attends_create bounded name relays
  | drop id => exact absurd rfl (keeps id)
  | observe id observer => exact attends_observe bounded id observer
  | listen observer =>
    exact ⟨rfl, fun _ known ↦ known, fun _ _ ↦ rfl, fun _ _ ↦ (List.append_nil _).symm, bounded⟩

end

end Library

end Phrasebook
