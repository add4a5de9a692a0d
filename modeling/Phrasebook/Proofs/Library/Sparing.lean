import Phrasebook.Proofs.Library.Fallbacks
import Phrasebook.Proofs.Library.TableCalls

/-!
# What steps spare

Most of what is done to a table concerns its entries and its status. Who hears of the keys that a table
lacks stays as it is, and so do the fallbacks and the stand-ins, whatever the observers of a miss do:
they add entries to the table that was missed and nothing else that a lookup goes by. A lookup is put
together from its misses by three equations, and leaves everybody in their place as a whole.
-/

namespace Phrasebook

/-- What decides who hears of the keys that a table lacks, and under which name. -/
structure Audience where
  name : String
  relays : Bool
  observers : List Observer

def Table.audience (table : Table) : Audience := ⟨table.name, table.relays, table.observers⟩

namespace Library

/-- The same tables are there, and everybody hears of the same ones. -/
structure SameAudience (before after : Library) : Prop where
  audience : ∀ id, (after.table id).audience = (before.table id).audience
  known : ∀ id, id ∈ after.tables ↔ id ∈ before.tables
  next : after.nextTable = before.nextTable
  listeners : after.listeners = before.listeners

namespace SameAudience

variable {before middle after : Library}

theorem refl (library : Library) : SameAudience library library :=
  ⟨fun _ ↦ rfl, fun _ ↦ Iff.rfl, rfl, rfl⟩

theorem trans (first : SameAudience before middle) (second : SameAudience middle after) :
    SameAudience before after where
  audience id := (second.audience id).trans (first.audience id)
  known id := (second.known id).trans (first.known id)
  next := second.next.trans first.next
  listeners := second.listeners.trans first.listeners

theorem of_tables_eq (tables : after.tables = before.tables)
    (next : after.nextTable = before.nextTable) (listeners : after.listeners = before.listeners) :
    SameAudience before after where
  audience id := congrArg Table.audience (table_eq_of_tables_eq tables id)
  known id := by rw [tables]
  next := next
  listeners := listeners

theorem name (same : SameAudience before after) (id : TableId) :
    (after.table id).name = (before.table id).name :=
  congrArg Audience.name (same.audience id)

theorem relays (same : SameAudience before after) (id : TableId) :
    (after.table id).relays = (before.table id).relays :=
  congrArg Audience.relays (same.audience id)

theorem observers (same : SameAudience before after) (id : TableId) :
    (after.table id).observers = (before.table id).observers :=
  congrArg Audience.observers (same.audience id)

theorem hearers (same : SameAudience before after) (id : TableId) :
    after.hearers id = before.hearers id := by
  rw [Library.hearers, Library.hearers, same.relays, same.observers, same.listeners]

end SameAudience

/-- The stand-ins and the fallbacks stay as they are too, and no identity is given out again. -/
structure Spares (before after : Library) : Prop extends SameAudience before after where
  standIns : after.standIns = before.standIns
  fallbacks : ∀ id, (after.table id).fallback = (before.table id).fallback
  grows : before.nextIdentity ≤ after.nextIdentity

namespace Spares

variable {before middle after : Library}

theorem refl (library : Library) : Spares library library :=
  ⟨.refl library, rfl, fun _ ↦ rfl, Nat.le_refl _⟩

theorem trans (first : Spares before middle) (second : Spares middle after) :
    Spares before after where
  toSameAudience := first.toSameAudience.trans second.toSameAudience
  standIns := second.standIns.trans first.standIns
  fallbacks id := (second.fallbacks id).trans (first.fallbacks id)
  grows := Nat.le_trans first.grows second.grows

theorem of_tables_eq (tables : after.tables = before.tables)
    (next : after.nextTable = before.nextTable) (listeners : after.listeners = before.listeners)
    (standIns : after.standIns = before.standIns)
    (grows : before.nextIdentity ≤ after.nextIdentity) : Spares before after where
  toSameAudience := .of_tables_eq tables next listeners
  standIns := standIns
  fallbacks id := congrArg Table.fallback (table_eq_of_tables_eq tables id)
  grows := grows

theorem of_recorded (recorded : Recorded before after) : Spares before after := by
  obtain ⟨journal, rfl⟩ := recorded
  exact .of_tables_eq rfl rfl rfl rfl (Nat.le_refl _)

end Spares

/-! ## Changes of a table -/

section

variable (id : TableId) (library : Library)

theorem sameAudience_modifyTable {f : Table → Table}
    (keeps : ∀ table, (f table).audience = table.audience) :
    SameAudience library (modifyTable id f library) where
  audience other := field_modifyTable keeps id other library
  known := (sameBut_modifyTable id f library).known
  next := rfl
  listeners := rfl

theorem spares_modifyTable {f : Table → Table}
    (audience : ∀ table, (f table).audience = table.audience)
    (fallback : ∀ table, (f table).fallback = table.fallback) :
    Spares library (modifyTable id f library) where
  toSameAudience := sameAudience_modifyTable id library audience
  standIns := rfl
  fallbacks other := field_modifyTable fallback id other library
  grows := Nat.le_refl _

theorem spares_insert (phrase : Phrase) (overwrite : Bool) :
    Spares library ((insert id phrase overwrite).run library).2 := by
  have counted : Spares library { library with nextIdentity := library.nextIdentity + 1 } :=
    .of_tables_eq rfl rfl rfl rfl (Nat.le_succ _)
  rw [insert_run]
  split
  · exact counted
  · exact counted.trans (spares_modifyTable id _ (fun _ ↦ rfl) fun _ ↦ rfl)

theorem respected_spares : Respected id Spares where
  refl := .refl
  trans := .trans
  noted _ _ _ := .of_tables_eq rfl rfl rfl rfl (Nat.le_refl _)
  insert := spares_insert id
  clear library := spares_modifyTable id library (fun _ ↦ rfl) fun _ ↦ rfl
  setStatus library _ := spares_modifyTable id library (fun _ ↦ rfl) fun _ ↦ rfl

theorem respected_sameAudience : Respected id SameAudience where
  refl := .refl
  trans := .trans
  noted library notices journal := ((respected_spares id).noted library notices journal).toSameAudience
  insert library phrase overwrite := (spares_insert id library phrase overwrite).toSameAudience
  clear library := ((respected_spares id).clear library).toSameAudience
  setStatus library status := ((respected_spares id).setStatus library status).toSameAudience

/-! ## Misses -/

theorem Respected.afterMiss {R : Library → Library → Prop} (respected : Respected id R) (key : String)
    (optional : Bool) : R library (library.afterMiss id key optional) :=
  respected.trans (respected.noted library _ _) (respected.notifyAll _ key (library.hearers id))

/-- Whatever observers do, it concerns the table that was missed. -/
theorem afterMiss_spares (key : String) (optional : Bool) :
    Spares library (library.afterMiss id key optional) ∧
      SameBut id library (library.afterMiss id key optional) :=
  ⟨(respected_spares id).afterMiss id library key optional,
    (respected_sameBut id).afterMiss id library key optional⟩

end

section

theorem held_or_lacks (table : Table) (key : String) :
    (∃ shared, table.entries[key]? = some shared) ∨ key ∉ table.entries := by
  by_cases has : key ∈ table.entries
  · exact .inl (exists_getElem?_of_mem has)
  · exact .inr has

/-! ## Whole lookups -/

/-- What small steps on any table respect and the making of stand-ins too, lookups respect. -/
theorem getAlong_respected {R : Library → Library → Prop} (respected : ∀ id, Respected id R)
    (stands : ∀ id key library, R library ((standIn id key).run library).2) (key : String)
    (optional : Bool) (path : List TableId) (library : Library) :
    R library ((getAlong key optional path).run library).2 := by
  induction path generalizing library with
  | nil => exact (respected 0).refl library
  | cons id rest ih =>
    rcases held_or_lacks (library.table id) key with ⟨shared, held⟩ | lacks
    · rw [getAlong_of_mem held]
      exact (respected id).refl library
    · have missed := (respected id).afterMiss id library key optional
      cases rest with
      | cons next rest =>
        rw [getAlong_cons lacks]
        exact (respected id).trans missed (ih _)
      | nil =>
        rw [getAlong_last lacks]
        cases optional with
        | false => exact missed
        | true => exact (respected id).trans missed (stands id key _)

theorem find_respected {R : Library → Library → Prop} (respected : ∀ id, Respected id R)
    (stands : ∀ id key library, R library ((standIn id key).run library).2) (id : TableId)
    (key : String) (optional : Bool) (library : Library) :
    R library ((find id key optional).run library).2 := by
  rw [find]
  cases Text.isBlankText key with
  | true => exact (respected id).refl library
  | false => exact getAlong_respected respected stands key optional (library.lookupPath id) library

/-! ## Everybody stays in their place -/

theorem sameAudience_standIn (id : TableId) (key : String) (library : Library) :
    SameAudience library ((standIn id key).run library).2 := by
  rw [(standIn_run id key library).frame]
  exact .of_tables_eq rfl rfl rfl

theorem sameAudience_find (id : TableId) (key : String) (optional : Bool) (library : Library) :
    SameAudience library ((find id key optional).run library).2 :=
  find_respected respected_sameAudience sameAudience_standIn id key optional library

theorem sameAudience_setFallback (grounded : library.Grounded) (id : TableId)
    (fallback : Option TableId) :
    SameAudience library ((setFallback id fallback).run library).2 := by
  cases fallback with
  | none => exact sameAudience_modifyTable id library fun _ ↦ rfl
  | some next =>
    obtain ⟨path, falls⟩ := grounded next
    by_cases mem : id ∈ path
    · rw [setFallback_run_of_mem falls mem]
      exact .refl library
    · rw [setFallback_run_of_not_mem falls mem]
      exact sameAudience_modifyTable id library fun _ ↦ rfl

end

end Library

end Phrasebook
