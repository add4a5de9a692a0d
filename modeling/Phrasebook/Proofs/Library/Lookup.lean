import Mathlib.Data.List.Perm.Subperm
import Mathlib.Data.List.Nodup
import Phrasebook.Library.Lookup
import Phrasebook.Proofs.Library.Frame

/-!
# Lookups along fallbacks

A lookup goes along the fallbacks of a table up to the first table that has the key, or else up to the
last one. The tables before it were missed: everybody who wants to hear of that hears of it once, in the
order of the tables and of the subscriptions, and whoever breaks down keeps nobody else from hearing.
-/

namespace Phrasebook

/-- Whether the reaction leaves all tables as they are. -/
def Reaction.isHarmless : Reaction → Bool
  | supply _ => false
  | _ => true

/-- What an observer finds in a table that lacks the key, if it finds anything. -/
def Reaction.finding? (table : Table) : Reaction → Option Finding
  | note => some .heard
  | probe => some (.probed false table.entries.size)
  | supply _ => none
  | fail => none

namespace Library

/-! ## Chains of fallbacks -/

/-- The tables from one table on, each the fallback of the one before it, up to one without. -/
inductive FallsBack (library : Library) : TableId → List TableId → Prop where
  | last {id : TableId} (none_left : (library.table id).fallback = none) : FallsBack library id [id]
  | next {id next : TableId} {path : List TableId}
      (fallback : (library.table id).fallback = some next) (rest : FallsBack library next path) :
      FallsBack library id (id :: path)

namespace FallsBack

variable {library : Library} {id : TableId} {path other : List TableId}

/-- There is only one chain of fallbacks from a table. -/
theorem unique (first : FallsBack library id path) (second : FallsBack library id other) :
    path = other := by
  induction first generalizing other with
  | last none_left =>
    cases second with
    | last => rfl
    | next fallback rest =>
      rw [none_left] at fallback
      cases fallback
  | next fallback rest ih =>
    cases second with
    | last none_left =>
      rw [none_left] at fallback
      cases fallback
    | next same further =>
      rw [fallback] at same
      cases same
      rw [ih further]

/-- From a table of a chain on, the rest of the chain is its own. -/
theorem suffix (falls : FallsBack library id path) {middle : TableId} (mem : middle ∈ path) :
    ∃ rest, rest <:+ path ∧ FallsBack library middle rest := by
  induction falls with
  | @last id none_left =>
    rw [List.mem_singleton.1 mem]
    exact ⟨[id], List.suffix_rfl, .last none_left⟩
  | @next id next path fallback rest ih =>
    rcases List.mem_cons.1 mem with rfl | mem
    · exact ⟨middle :: path, List.suffix_rfl, .next fallback rest⟩
    · obtain ⟨further, suffix, falls⟩ := ih mem
      exact ⟨further, suffix.trans (List.suffix_cons id path), falls⟩

/-- No table comes twice, for the chain from it on would be longer than itself. -/
theorem nodup (falls : FallsBack library id path) : path.Nodup := by
  induction falls with
  | last none_left => exact List.nodup_singleton _
  | @next id next path fallback rest ih =>
    refine List.nodup_cons.2 ⟨fun mem ↦ ?_, ih⟩
    obtain ⟨further, suffix, falls⟩ := rest.suffix mem
    have same := falls.unique (.next fallback rest)
    have short := suffix.length_le
    rw [same, List.length_cons] at short
    omega

theorem exists_last (falls : FallsBack library id path) : ∃ last, path.getLast? = some last :=
  Option.isSome_iff_exists.1 (by cases falls <;> rfl)

theorem mem_tables (falls : FallsBack library id path) :
    ∀ other ∈ path.dropLast, other ∈ library.tables := by
  induction falls with
  | last none_left => exact nofun
  | @next id next path fallback rest ih =>
    have some_left : path ≠ [] := by cases rest <;> exact List.cons_ne_nil _ _
    rw [List.dropLast_cons_of_ne_nil some_left]
    refine List.forall_mem_cons.2 ⟨?_, ih⟩
    by_contra unknown
    rw [table_of_not_mem unknown] at fallback
    cases fallback

/-- A chain is not longer than there are tables, but for its last. -/
theorem length_le (falls : FallsBack library id path) :
    path.length ≤ library.tables.size + 1 := by
  have distinct : path.dropLast.Nodup := falls.nodup.sublist (List.dropLast_sublist path)
  have keys : path.dropLast ⊆ library.tables.keys :=
    fun other h ↦ Std.TreeMap.mem_keys.2 (falls.mem_tables other h)
  have short := (distinct.subperm keys).length_le
  rw [List.length_dropLast, Std.TreeMap.length_keys] at short
  omega

/-- With enough fuel the walk along fallbacks is the whole chain. -/
theorem chain_eq (falls : FallsBack library id path) {fuel : Nat} (enough : path.length ≤ fuel + 1) :
    library.chain fuel id = path := by
  induction falls generalizing fuel with
  | last none_left =>
    cases fuel with
    | zero => rfl
    | succ fuel => rw [chain, none_left]
  | next fallback rest ih =>
    cases fuel with
    | zero => cases rest <;> simp at enough
    | succ fuel =>
      rw [chain, fallback]
      dsimp only
      rw [ih (Nat.le_of_succ_le_succ enough)]

theorem lookupPath_eq (falls : FallsBack library id path) : library.lookupPath id = path :=
  falls.chain_eq falls.length_le

end FallsBack

/-! ## Misses -/

/-- Everybody who hears of the keys that a table lacks, in the order in which they hear. -/
def hearers (library : Library) (id : TableId) : List Observer :=
  (if (library.table id).relays then library.listeners else []) ++ (library.table id).observers

def noticesOf (table : Table) (key : String) (observers : List Observer) : List Notice :=
  observers.filterMap fun observer ↦
    (observer.reaction.finding? table).map fun finding ↦ ⟨observer.label, table.name, key, finding⟩

/-- The events of those observers that break down when a table lacks a key. -/
def failuresOf (table : Table) (key : String) (observers : List Observer) : List LibraryEvent :=
  (observers.filter (·.reaction = .fail)).map fun _ ↦ .observerFailed table.name key

@[simps]
def told (library : Library) (notices : List Notice) (events : List LibraryEvent) : Library :=
  { library with
    notices := library.notices ++ notices
    journal := events.foldl Journal.log library.journal }

/-- The library after tables were missed: whoever hears of it heard of it once. -/
def afterMisses (library : Library) (key : String) (optional : Bool) (missed : List TableId) :
    Library :=
  library.told
    (missed.flatMap fun id ↦ noticesOf (library.table id) key (library.hearers id))
    (missed.flatMap fun id ↦ .missingString (library.table id).name key optional ::
      failuresOf (library.table id) key (library.hearers id))

section

variable {library : Library} {id : TableId} {key : String}

@[simp] theorem told_nothing : library.told [] [] = library := by
  simp [told]

@[simp] theorem told_told (notices others : List Notice) (events more : List LibraryEvent) :
    (library.told notices events).told others more =
      library.told (notices ++ others) (events ++ more) := by
  simp [told]

@[simp] theorem table_told (notices : List Notice) (events : List LibraryEvent) (id : TableId) :
    (library.told notices events).table id = library.table id := rfl

/-- Whoever hears of missing keys is known from the tables and the listeners. -/
@[simp] theorem hearers_mk (nextTable : TableId) (nextIdentity : Nat)
    (standIns : Std.TreeMap TableId (Std.TreeMap String Shared)) (notices : List Notice)
    (journal : Journal) (id : TableId) :
    (Library.mk library.tables nextTable nextIdentity standIns library.listeners notices
      journal).hearers id = library.hearers id := rfl

@[simp] theorem hearers_told (notices : List Notice) (events : List LibraryEvent) (id : TableId) :
    (library.told notices events).hearers id = library.hearers id := rfl

theorem noticesOf_cons (table : Table) (key : String) (observer : Observer)
    (observers : List Observer) :
    noticesOf table key (observer :: observers) =
      noticesOf table key [observer] ++ noticesOf table key observers :=
  @List.filterMap_append _ _ [observer] observers _

theorem failuresOf_cons (table : Table) (key : String) (observer : Observer)
    (observers : List Observer) :
    failuresOf table key (observer :: observers) =
      failuresOf table key [observer] ++ failuresOf table key observers := by
  rw [failuresOf, failuresOf, failuresOf, ← List.map_append, ← List.filter_append]
  rfl

/-- A harmless observer leaves its notice, or the event of its failure. -/
theorem notifyOne_run {observer : Observer} (harmless : observer.reaction.isHarmless)
    (lacks : key ∉ (library.table id).entries) :
    (notifyOne id key observer).run library =
      ((), library.told (noticesOf (library.table id) key [observer])
        (failuresOf (library.table id) key [observer])) := by
  have absent : (library.table id).entries.contains key = false := Bool.eq_false_iff.2 lacks
  obtain ⟨label, reaction⟩ := observer
  cases reaction with
  | note => simp [notifyOne, noticesOf, failuresOf, Reaction.finding?, told]
  | probe => simp [notifyOne, noticesOf, failuresOf, Reaction.finding?, told, absent]
  | supply text => cases harmless
  | fail => simp [notifyOne, noticesOf, failuresOf, Reaction.finding?, told]

/-- An observer that adds the key tells how that went. -/
theorem notifyOne_run_of_supply (id : TableId) (key label text : String) (library : Library) :
    (notifyOne id key ⟨label, .supply text⟩).run library =
      ((), ((insert id (.raw key text) false).run library).2.told
        [⟨label, (library.table id).name, key,
          .supplied ((insert id (.raw key text) false).run library).1.isOk⟩] []) := by
  generalize supplied : (insert id (.raw key text) false).run library = outcome
  obtain ⟨answer, after⟩ := outcome
  cases answer <;> simp [notifyOne, addRaw, supplied, told, Except.isOk, Except.toBool]

/-- Observers hear one after the other, whether or not those before them broke down. -/
theorem notifyAll_run {observers : List Observer}
    (harmless : ∀ observer ∈ observers, observer.reaction.isHarmless)
    (lacks : key ∉ (library.table id).entries) :
    (notifyAll id key observers).run library =
      ((), library.told (noticesOf (library.table id) key observers)
        (failuresOf (library.table id) key observers)) := by
  induction observers generalizing library with
  | nil => simp [notifyAll, noticesOf, failuresOf]
  | cons observer observers ih =>
    obtain ⟨first, others⟩ := List.forall_mem_cons.1 harmless
    rw [noticesOf_cons, failuresOf_cons]
    simp [notifyAll, notifyOne_run first lacks, ih others, lacks]

@[simp] theorem table_afterMisses (optional : Bool) (missed : List TableId) (id : TableId) :
    (library.afterMisses key optional missed).table id = library.table id := rfl

@[simp] theorem afterMisses_nil (optional : Bool) : library.afterMisses key optional [] = library :=
  told_nothing

theorem afterMisses_append (optional : Bool) (missed more : List TableId) :
    (library.afterMisses key optional missed).afterMisses key optional more =
      library.afterMisses key optional (missed ++ more) := by
  simp [afterMisses]

@[simp] theorem notify_run (id : TableId) (key : String) (library : Library) :
    (notify id key).run library = (notifyAll id key (library.hearers id)).run library := rfl

/-- The library after a table was missed and everybody heard of it. -/
def afterMiss (library : Library) (id : TableId) (key : String) (optional : Bool) : Library :=
  let logged := ((log (.missingString (library.table id).name key optional)).run library).2
  ((notifyAll id key (library.hearers id)).run logged).2

/-- Where nobody adds entries, a miss is heard of and no more. -/
theorem afterMiss_eq (optional : Bool)
    (harmless : ∀ observer ∈ library.hearers id, observer.reaction.isHarmless)
    (lacks : key ∉ (library.table id).entries) :
    library.afterMiss id key optional = library.afterMisses key optional [id] := by
  let event : LibraryEvent := .missingString (library.table id).name key optional
  have logged : (log event).run library = ((), library.told [] [event]) := by simp [told]
  have heard := @notifyAll_run (library.told [] [event]) id key _ harmless lacks
  simpa [afterMiss, afterMisses, logged, event] using congrArg Prod.snd heard

theorem getAlong_of_mem {shared : Shared} (held : (library.table id).entries[key]? = some shared)
    (optional : Bool) (rest : List TableId) :
    (getAlong key optional (id :: rest)).run library = (.ok shared, library) := by
  rw [getAlong]
  simp [held]

/-- A lookup goes on behind a table that was missed. -/
theorem getAlong_cons (lacks : key ∉ (library.table id).entries) (optional : Bool) (next : TableId)
    (rest : List TableId) :
    (getAlong key optional (id :: next :: rest)).run library =
      (getAlong key optional (next :: rest)).run (library.afterMiss id key optional) := by
  rw [getAlong]
  simp [lacks, afterMiss]

/-- The last table has the last word. -/
theorem getAlong_last (lacks : key ∉ (library.table id).entries) (optional : Bool) :
    (getAlong key optional [id]).run library =
      (if optional then do return .ok (← standIn id key)
        else return .error (.keyNotFound (library.table id).name key) :
        LibraryM (Except LookupError Shared)).run (library.afterMiss id key optional) := by
  rw [getAlong]
  simp [lacks, afterMiss]

/-- Tables that lack the key are missed, and the lookup goes on behind them. -/
theorem getAlong_append {missed rest : List TableId} (some_left : rest ≠ []) (optional : Bool)
    (harmless : ∀ other ∈ missed, ∀ observer ∈ library.hearers other, observer.reaction.isHarmless)
    (lack : ∀ other ∈ missed, key ∉ (library.table other).entries) :
    (getAlong key optional (missed ++ rest)).run library =
      (getAlong key optional rest).run (library.afterMisses key optional missed) := by
  induction missed generalizing library with
  | nil => rw [afterMisses_nil, List.nil_append]
  | cons id missed ih =>
    obtain ⟨next, more, split⟩ := List.exists_cons_of_ne_nil
      (List.append_ne_nil_of_right_ne_nil missed some_left)
    obtain ⟨hears, others⟩ := List.forall_mem_cons.1 harmless
    obtain ⟨absent, lacking⟩ := List.forall_mem_cons.1 lack
    have further := @ih (library.afterMisses key optional [id]) others lacking
    rw [afterMisses_append, List.singleton_append, split] at further
    rw [List.cons_append, split, getAlong_cons absent, afterMiss_eq optional hears absent, further]

end

/-! ## Stand-ins -/

/-- The stand-in that a table has for a key, if it was asked for before. -/
def standIn? (library : Library) (id : TableId) (key : String) : Option Shared :=
  (library.standIns.getD id ∅)[key]?

/-- A table answered with its stand-in for a key, which it has from then on. -/
structure StoodIn (id : TableId) (key : String) (before : Library) (shared : Shared)
    (after : Library) : Prop where
  answer : shared = (before.standIn? id key).getD ⟨before.nextIdentity, .missing key⟩
  kept : after.standIn? id key = some shared
  others : ∀ other name, ¬ (other = id ∧ name = key) →
    after.standIn? other name = before.standIn? other name
  frame : after =
    { before with standIns := after.standIns, nextIdentity := after.nextIdentity }

theorem standIn_run_of_some {library : Library} {id : TableId} {key : String} {shared : Shared}
    (known : library.standIn? id key = some shared) :
    (standIn id key).run library = (shared, library) := by
  rw [standIn?] at known
  simp [standIn, known]

@[simps]
def standingIn (library : Library) (id : TableId) (key : String) : Library :=
  { library with
    standIns := library.standIns.insert id
      ((library.standIns.getD id ∅).insert key ⟨library.nextIdentity, .missing key⟩)
    nextIdentity := library.nextIdentity + 1 }

theorem standIn_run_of_none {library : Library} {id : TableId} {key : String}
    (unknown : library.standIn? id key = none) :
    (standIn id key).run library =
      (⟨library.nextIdentity, .missing key⟩, library.standingIn id key) := by
  rw [standIn?] at unknown
  simp [standIn, unknown, standingIn]

theorem standIn?_standingIn (library : Library) (id other : TableId) (key name : String) :
    (library.standingIn id key).standIn? other name =
      if other = id ∧ name = key then some ⟨library.nextIdentity, .missing key⟩
      else library.standIn? other name := by
  by_cases same : id = other
  · by_cases equal : key = name
    · simp [standIn?, standingIn, same, equal]
    · simp [standIn?, standingIn, same, Std.TreeMap.getElem?_insert, equal, Ne.symm equal]
  · simp [standIn?, standingIn, Std.TreeMap.getD_insert, same, Ne.symm same]

/-- A stand-in is at hand or is made. -/
theorem standIn_run_cases (id : TableId) (key : String) (library : Library) :
    (∃ shared, library.standIn? id key = some shared ∧
      (standIn id key).run library = (shared, library)) ∨
    library.standIn? id key = none ∧
      (standIn id key).run library =
        (⟨library.nextIdentity, .missing key⟩, library.standingIn id key) := by
  cases known : library.standIn? id key with
  | some shared => exact .inl ⟨shared, rfl, standIn_run_of_some known⟩
  | none => exact .inr ⟨rfl, standIn_run_of_none known⟩

theorem standIn_run (id : TableId) (key : String) (library : Library) :
    StoodIn id key library ((standIn id key).run library).1 ((standIn id key).run library).2 := by
  rcases standIn_run_cases id key library with ⟨shared, known, ran⟩ | ⟨unknown, ran⟩
  · rw [ran]
    exact ⟨by simp [known], known, fun _ _ _ ↦ rfl, rfl⟩
  · rw [ran]
    refine ⟨by simp [unknown], ?_, fun other name apart ↦ ?_, rfl⟩
    · simp [standIn?_standingIn]
    · rw [standIn?_standingIn, if_neg apart]

section

variable {library : Library} {path before rest : List TableId} {id last : TableId} {key : String}

/-- The first table that has the key answers, and those before it were missed. -/
theorem getAlong_hit (harmless : ∀ other ∈ before, ∀ observer ∈ library.hearers other,
      observer.reaction.isHarmless)
    (lack : ∀ other ∈ before, key ∉ (library.table other).entries) {shared : Shared}
    (found : (library.table id).entries[key]? = some shared) (optional : Bool) :
    (getAlong key optional (before ++ id :: rest)).run library =
      (.ok shared, library.afterMisses key optional before) := by
  have still : ((library.afterMisses key optional before).table id).entries[key]? = some shared :=
    found
  rw [getAlong_append (List.cons_ne_nil id rest) optional harmless lack, getAlong_of_mem still]

variable (harmless : ∀ other ∈ path, ∀ observer ∈ library.hearers other, observer.reaction.isHarmless)
  (lack : ∀ other ∈ path, key ∉ (library.table other).entries) (ends : path.getLast? = some last)

include harmless lack ends

/-- The last table is missed like those before it, and then has the last word. -/
theorem getAlong_miss (optional : Bool) :
    (getAlong key optional path).run library =
      (if optional then do return .ok (← standIn last key)
        else return .error (.keyNotFound (library.table last).name key) :
        LibraryM (Except LookupError Shared)).run (library.afterMisses key optional path) := by
  obtain ⟨before, rfl⟩ := List.getLast?_eq_some_iff.1 ends
  have mem : last ∈ before ++ [last] := List.mem_append_right _ (List.mem_singleton.2 rfl)
  have missed := @afterMiss_eq (library.afterMisses key optional before) last key optional
    (harmless last mem) (lack last mem)
  rw [afterMisses_append] at missed
  rw [getAlong_append (List.cons_ne_nil last []) optional
    (fun other h ↦ harmless other (List.mem_append_left _ h))
    (fun other h ↦ lack other (List.mem_append_left _ h)), getAlong_last (by exact lack last mem),
    missed, table_afterMisses]

theorem getAlong_standIn :
    (getAlong key true path).run library =
      (.ok ((standIn last key).run (library.afterMisses key true path)).1,
        ((standIn last key).run (library.afterMisses key true path)).2) :=
  getAlong_miss harmless lack ends true

theorem getAlong_notFound :
    (getAlong key false path).run library =
      (.error (.keyNotFound (library.table last).name key), library.afterMisses key false path) :=
  getAlong_miss harmless lack ends false

end

/-! ## Lookups -/

/-- What comes of looking a key up along a chain of tables. -/
structure LooksUp (library : Library) (path : List TableId) (key : String) (optional : Bool)
    (answer : Except LookupError Shared) (after : Library) : Prop where
  tables : after.tables = library.tables
  blank : Text.isBlankText key = true → answer = .error .blankKey ∧ after = library
  /-- The first table that has the key answers, and nobody behind it hears of anything. -/
  hit : Text.isBlankText key = false → ∀ before id rest, path = before ++ id :: rest →
    (∀ other ∈ before, key ∉ (library.table other).entries) →
    ∀ shared, (library.table id).entries[key]? = some shared →
      answer = .ok shared ∧ after = library.afterMisses key optional before
  /-- The last table answers for an optional key that none has. -/
  standsIn : Text.isBlankText key = false → optional = true →
    (∀ other ∈ path, key ∉ (library.table other).entries) → ∀ last, path.getLast? = some last →
      ∃ shared, answer = .ok shared ∧
        StoodIn last key (library.afterMisses key optional path) shared after
  notFound : Text.isBlankText key = false → optional = false →
    (∀ other ∈ path, key ∉ (library.table other).entries) → ∀ last, path.getLast? = some last →
      answer = .error (.keyNotFound (library.table last).name key) ∧
        after = library.afterMisses key optional path

/-- A chain has a first table with a key, or none has it. -/
theorem exists_first_or_lack (library : Library) (path : List TableId) (key : String) :
    (∃ before id rest shared, path = before ++ id :: rest ∧
      (∀ other ∈ before, key ∉ (library.table other).entries) ∧
      (library.table id).entries[key]? = some shared) ∨
    ∀ other ∈ path, key ∉ (library.table other).entries := by
  induction path with
  | nil => exact .inr nofun
  | cons id path ih =>
    by_cases has : key ∈ (library.table id).entries
    · obtain ⟨shared, found⟩ := exists_getElem?_of_mem has
      exact .inl ⟨[], id, path, shared, rfl, nofun, found⟩
    · rcases ih with ⟨before, first, rest, shared, rfl, lack, found⟩ | lack
      · exact .inl ⟨id :: before, first, rest, shared, rfl, List.forall_mem_cons.2 ⟨has, lack⟩, found⟩
      · exact .inr (List.forall_mem_cons.2 ⟨has, lack⟩)

/-- A lookup asks the tables of a chain of fallbacks one after the other. The first that has the key
answers with what it holds; a key that none has is answered by the last. Whoever wants to hear of the
misses before that hears of each once, and no table changes. -/
theorem find_along_fallbacks {library : Library} {id : TableId} {path : List TableId}
    (falls : library.FallsBack id path)
    (harmless : ∀ other ∈ path, ∀ observer ∈ library.hearers other, observer.reaction.isHarmless)
    (key : String) (optional : Bool) :
    library.LooksUp path key optional ((find id key optional).run library).1
      ((find id key optional).run library).2 := by
  cases blank : Text.isBlankText key with
  | true =>
    have run : (find id key optional).run library = (.error .blankKey, library) := by
      simp [find, blank]
    rw [run]
    exact ⟨rfl, fun _ ↦ ⟨rfl, rfl⟩, by simp [blank], by simp [blank], by simp [blank]⟩
  | false =>
    have run : (find id key optional).run library = (getAlong key optional path).run library := by
      simp [find, blank, falls.lookupPath_eq]
    rw [run]
    refine ⟨?_, by simp [blank], fun _ before id rest split lack shared found ↦ ?_,
      fun _ needless lack last ends ↦ ?_, fun _ needed lack last ends ↦ ?_⟩
    · rcases library.exists_first_or_lack path key with ⟨before, id, rest, shared, rfl, lack, found⟩ | lack
      · rw [getAlong_hit (fun other h ↦ harmless other (List.mem_append_left _ h)) lack found]
        rfl
      · obtain ⟨last, ends⟩ := falls.exists_last
        cases optional with
        | true =>
          rw [getAlong_standIn harmless lack ends, (standIn_run last key _).frame]
          rfl
        | false =>
          rw [getAlong_notFound harmless lack ends]
          rfl
    · subst split
      rw [getAlong_hit (fun other h ↦ harmless other (List.mem_append_left _ h)) lack found]
      exact ⟨rfl, rfl⟩
    · subst needless
      rw [getAlong_standIn harmless lack ends]
      exact ⟨_, rfl, standIn_run last key _⟩
    · subst needed
      rw [getAlong_notFound harmless lack ends]
      exact ⟨rfl, rfl⟩

/-- A chain of three tables: an observer breaks down and the one after it still hears, a listener
hears before the observers of a table that relays, and the key is found in the last. -/
theorem find_along_fallbacks_menu :
    let menu : Table :=
      { name := "menu", fallback := some 4, observers := [⟨"first", .fail⟩, ⟨"second", .note⟩] }
    let hud : Table :=
      { name := "hud", fallback := some 7, relays := true, observers := [⟨"third", .probe⟩] }
    let common : Table :=
      { name := "common", entries := Std.TreeMap.ofList [("ok", (⟨0, .raw "ok" "OK"⟩ : Shared))]
        observers := [⟨"fourth", .note⟩] }
    let library : Library :=
      { tables := Std.TreeMap.ofList [(2, menu), (4, hud), (7, common)]
        nextTable := 8, nextIdentity := 1, listeners := [⟨"all", .note⟩] }
    library.FallsBack 2 [2, 4, 7] ∧
      (∀ other ∈ [2, 4, 7], ∀ observer ∈ library.hearers other, observer.reaction.isHarmless) ∧
      library.LooksUp [2, 4, 7] "ok" false ((find 2 "ok" false).run library).1
        ((find 2 "ok" false).run library).2 := by
  intro menu hud common library
  have falls : library.FallsBack 2 [2, 4, 7] :=
    .next (by decide +kernel) (.next (by decide +kernel) (.last (by decide +kernel)))
  have harmless : ∀ other ∈ [2, 4, 7], ∀ observer ∈ library.hearers other,
      observer.reaction.isHarmless := by decide +kernel
  exact ⟨falls, harmless, find_along_fallbacks falls harmless "ok" false⟩

end Library

end Phrasebook
