import Mathlib.Tactic.Simps.Basic
import Phrasebook.Library.Lookup
import Phrasebook.Proofs.Steps
import Std.Data.TreeMap.Lemmas

/-!
# What a step leaves alone

Most steps of a library concern one table. `SameBut id before after` says that nothing changed about
the other tables, and that no table came or went; each step has the lemma that says so, and the
equation for the table it is about. What a step does to the other fields of a library is known to `simp`.
-/

namespace Phrasebook

theorem exists_getElem?_of_mem {β : Type} {map : Std.TreeMap String β} {key : String}
    (has : key ∈ map) : ∃ value, map[key]? = some value :=
  Option.isSome_iff_exists.1 (Std.TreeMap.isSome_getElem?_iff_mem.2 has)

@[simps]
def Table.cleared (table : Table) : Table :=
  { table with entries := ∅, generation := table.generation + 1 }

namespace Library

/-- The tables are the same, except for what is in one of them. -/
structure SameBut (id : TableId) (before after : Library) : Prop where
  others : ∀ other, other ≠ id → after.table other = before.table other
  known : ∀ other, other ∈ after.tables ↔ other ∈ before.tables
  next : after.nextTable = before.nextTable

namespace SameBut

variable {id : TableId} {before middle after : Library}

theorem refl (id : TableId) (library : Library) : SameBut id library library :=
  ⟨fun _ _ ↦ rfl, fun _ ↦ Iff.rfl, rfl⟩

theorem trans (first : SameBut id before middle) (second : SameBut id middle after) :
    SameBut id before after where
  others other h := (second.others other h).trans (first.others other h)
  known other := (second.known other).trans (first.known other)
  next := second.next.trans first.next

/-- Steps that do not touch the tables at all. -/
theorem of_tables_eq (tables : after.tables = before.tables)
    (next : after.nextTable = before.nextTable) :
    SameBut id before after where
  others other _ := by rw [table, table, tables]
  known other := by rw [tables]
  next := next

end SameBut

theorem table_eq_of_tables_eq {before after : Library} (tables : after.tables = before.tables)
    (id : TableId) : after.table id = before.table id := by
  rw [table, table, tables]

/-- Nothing changed but the journal. -/
def Recorded (before after : Library) : Prop :=
  ∃ journal, after = { before with journal := journal }

namespace Recorded

variable {before middle after : Library}

theorem trans (first : Recorded before middle) (second : Recorded middle after) :
    Recorded before after := by
  obtain ⟨_, rfl⟩ := first
  obtain ⟨journal, rfl⟩ := second
  exact ⟨journal, rfl⟩

theorem table (recorded : Recorded before after) (id : TableId) :
    after.table id = before.table id := by
  obtain ⟨journal, rfl⟩ := recorded
  exact table_eq_of_tables_eq rfl id

theorem sameBut (recorded : Recorded before after) (id : TableId) : SameBut id before after := by
  obtain ⟨journal, rfl⟩ := recorded
  exact .of_tables_eq rfl rfl

end Recorded

/-! ## Fields behind a step -/

/-- A library with other fields but the same tables. -/
@[simp] theorem table_mk (library : Library) (nextTable : TableId) (nextIdentity : Nat)
    (standIns : Std.TreeMap TableId (Std.TreeMap String Shared)) (listeners : List Observer)
    (notices : List Notice) (journal : Journal) (id : TableId) :
    (Library.mk library.tables nextTable nextIdentity standIns listeners notices journal).table id =
      library.table id := rfl

@[simp] theorem listeners_modifyTable (id : TableId) (f : Table → Table) (library : Library) :
    (modifyTable id f library).listeners = library.listeners := rfl

@[simp] theorem mem_modifyTable (id : TableId) (f : Table → Table) (library : Library)
    {other : TableId} : other ∈ (modifyTable id f library).tables ↔ other ∈ library.tables := by
  simp [modifyTable, Std.TreeMap.mem_modify]

@[simp] theorem table_modifyTable_self {id : TableId} {f : Table → Table} {library : Library}
    (known : id ∈ library.tables) : (modifyTable id f library).table id = f (library.table id) := by
  obtain ⟨table, htable⟩ : ∃ table, library.tables[id]? = some table :=
    Option.isSome_iff_exists.1 (by simpa using known)
  simp [Library.table, modifyTable, Std.TreeMap.getD_eq_getD_getElem?, htable]

@[simp] theorem table_modifyTable_of_ne {id other : TableId} (h : other ≠ id) (f : Table → Table)
    (library : Library) : (modifyTable id f library).table other = library.table other := by
  simp [table, modifyTable, Std.TreeMap.getD_modify, Ne.symm h]

theorem sameBut_modifyTable (id : TableId) (f : Table → Table) (library : Library) :
    SameBut id library (modifyTable id f library) where
  others _ h := table_modifyTable_of_ne h f library
  known _ := mem_modifyTable id f library
  next := rfl

@[simp] theorem log_run (event : LibraryEvent) (library : Library) :
    (log event).run library = ((), { library with journal := library.journal.log event }) := rfl

@[simp] theorem notice_run (notice : Notice) (library : Library) :
    (Library.notice notice).run library =
      ((), { library with notices := library.notices ++ [notice] }) := rfl

@[simp] theorem clear_run (id : TableId) (library : Library) :
    (clear id).run library = ((), modifyTable id Table.cleared library) := rfl

@[simp] theorem setStatus_run (id : TableId) (status : Status) (library : Library) :
    (setStatus id status).run library =
      ((), modifyTable id (fun table ↦ { table with status := status }) library) := rfl

@[simp] theorem observe_run (id : TableId) (observer : Observer) (library : Library) :
    (observe id observer).run library = ((), modifyTable id
      (fun table ↦ { table with observers := table.observers ++ [observer] }) library) := rfl

@[simp] theorem share_run (phrase : Phrase) (library : Library) :
    (share phrase).run library = (⟨library.nextIdentity, phrase⟩,
      { library with nextIdentity := library.nextIdentity + 1 }) := rfl

@[simps nextTable nextIdentity standIns listeners notices journal]
def adding (library : Library) (name : String) (relays : Bool) : Library :=
  { library with
    tables := library.tables.insert library.nextTable { name := name, relays := relays }
    nextTable := library.nextTable + 1 }

@[simp] theorem addTable_run (name : String) (relays : Bool) (library : Library) :
    (addTable name relays).run library = (library.nextTable, library.adding name relays) := rfl

@[simp] theorem fallback_default : (default : Table).fallback = none := rfl

@[simp] theorem entries_default : (default : Table).entries = ∅ := rfl

theorem table_of_not_mem {library : Library} {id : TableId} (h : id ∉ library.tables) :
    library.table id = default := by
  simp [table, Std.TreeMap.getD_eq_getD_getElem?, h]

@[simp] theorem table_empty (id : TableId) : ({} : Library).table id = default :=
  table_of_not_mem Std.TreeMap.not_mem_emptyc

@[simp] theorem table_modifyTable_of_not_mem {id : TableId} {library : Library}
    (unknown : id ∉ library.tables) (f : Table → Table) :
    (modifyTable id f library).table id = default :=
  table_of_not_mem (by simpa using unknown)

/-- A change of a table concerns that table only, and only if there is one. -/
theorem table_modifyTable_cases (id other : TableId) (f : Table → Table) (library : Library) :
    (modifyTable id f library).table other = library.table other ∨
      (modifyTable id f library).table other = f (library.table other) := by
  by_cases same : other = id
  · subst same
    by_cases known : other ∈ library.tables
    · exact .inr (table_modifyTable_self known)
    · simp [known, table_of_not_mem known]
  · simp [same]

/-- What a change of a table keeps, it keeps of every table. -/
theorem field_modifyTable {α : Type} {field : Table → α} {f : Table → Table}
    (keeps : ∀ table, field (f table) = field table) (id other : TableId) (library : Library) :
    field ((modifyTable id f library).table other) = field (library.table other) := by
  rcases table_modifyTable_cases id other f library with same | changed
  · rw [same]
  · rw [changed, keeps]

@[simp] theorem table_adding_self (library : Library) (name : String) (relays : Bool) :
    (library.adding name relays).table library.nextTable = { name := name, relays := relays } := by
  simp [table, adding]

@[simp] theorem table_adding_of_ne {library : Library} {id : TableId} (h : id ≠ library.nextTable)
    (name : String) (relays : Bool) : (library.adding name relays).table id = library.table id := by
  simp [table, adding, Std.TreeMap.getD_insert, Ne.symm h]

@[simp] theorem mem_adding {library : Library} {id : TableId} {name : String} {relays : Bool} :
    id ∈ (library.adding name relays).tables ↔ id = library.nextTable ∨ id ∈ library.tables := by
  simp [adding, Std.TreeMap.mem_insert, Eq.comm (a := id)]

theorem lt_nextTable_adding {library : Library}
    (bounded : ∀ id, id ∈ library.tables → id < library.nextTable) {name : String} {relays : Bool}
    {id : TableId} (known : id ∈ (library.adding name relays).tables) :
    id < (library.adding name relays).nextTable := by
  rcases mem_adding.1 known with rfl | before
  · exact Nat.lt_succ_self _
  · exact Nat.lt_succ_of_lt (bounded id before)

@[simps nextTable nextIdentity standIns listeners notices journal]
def dropping (library : Library) (id : TableId) : Library :=
  { library with tables := library.tables.erase id, standIns := library.standIns.erase id }

@[simp] theorem dropTable_run (id : TableId) (library : Library) :
    (dropTable id).run library = ((), library.dropping id) := rfl

@[simp] theorem table_dropping_self (library : Library) (id : TableId) :
    (library.dropping id).table id = default := by
  simp [table, dropping]

@[simp] theorem table_dropping_of_ne {library : Library} {id other : TableId} (h : other ≠ id) :
    (library.dropping id).table other = library.table other := by
  simp [table, dropping, Std.TreeMap.getD_erase, Ne.symm h]

@[simp] theorem mem_dropping {library : Library} {id other : TableId} :
    other ∈ (library.dropping id).tables ↔ other ≠ id ∧ other ∈ library.tables := by
  simp [dropping, Std.TreeMap.mem_erase, Eq.comm (a := other)]

theorem insert_run (id : TableId) (phrase : Phrase) (overwrite : Bool) (library : Library) :
    (insert id phrase overwrite).run library =
      if !overwrite && (library.table id).entries.contains phrase.name then
        (.error (.duplicateKey (library.table id).name phrase.name),
          { library with nextIdentity := library.nextIdentity + 1 })
      else (.ok ⟨library.nextIdentity, phrase⟩,
        modifyTable id (fun table ↦ { table with
          entries := table.entries.insert phrase.name ⟨library.nextIdentity, phrase⟩ })
          { library with nextIdentity := library.nextIdentity + 1 }) := by
  simp only [insert, run_bind, run_get, share_run, ↓run_ite, run_pure, run_modify, table_mk]
  rfl

theorem sameBut_insert (id : TableId) (phrase : Phrase) (overwrite : Bool) (library : Library) :
    SameBut id library ((insert id phrase overwrite).run library).2 := by
  have counted : SameBut id library { library with nextIdentity := library.nextIdentity + 1 } :=
    .of_tables_eq rfl rfl
  rw [insert_run]
  split
  · exact counted
  · exact counted.trans (sameBut_modifyTable id _ _)

end Library

end Phrasebook
