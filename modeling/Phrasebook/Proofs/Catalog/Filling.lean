import Phrasebook.Catalog.Loading
import Phrasebook.Proofs.Library.Reloading

/-!
# Filling a table

Three things can come of filling a table from a location. It mirrors the document that was found
there, with a count of the entries that were left out; or it is emptied, because nothing usable was
found and that is no failure; or it is kept as it was and the filling fails. Whatever comes of it,
the other tables stay as they are.
-/

namespace Phrasebook.Catalog

open Phrasebook.Document (Entry)
open Phrasebook.Storage

/-- The entries that were found at a location, if there is a document and it can be read. -/
def contentsOf (location : String) : Opened → Except TableError (Option (List Entry))
  | .content stream =>
    match Document.entriesOf stream with
    | .error fault => .error (.document location fault)
    | .ok entries => .ok (some entries)
  | .absent => .ok none
  | .failed reason => .error (.unreadable location reason)

def filledStatus (location locale : String) (rejected : Nat) : Status :=
  { locale := some locale, location := some location, rejected := rejected }

def missingStatus (location locale : String) : Status :=
  { locale := some locale, missing := true, location := some location }

/-- What can come of filling a table, and when. -/
inductive Outcome (location locale : String) (optional reloading : Bool) (before after : Table) :
    Except TableError (Option (List Entry)) → Except TableError Unit → Prop where
  /-- The table mirrors the document, which fails if entries were left out. -/
  | filled {entries : List Entry} {errors : List EntryError}
      (mirrors : after.Mirrors entries errors.length)
      (table : after = { before with
        entries := after.entries
        generation := before.generation + 1
        status := filledStatus location locale errors.length }) :
      Outcome location locale optional reloading before after (.ok (some entries))
        (if errors.isEmpty then .ok () else .error (.rejected location errors))
  /-- The table is empty. -/
  | emptied {contents : Except TableError (Option (List Entry))}
      (lenient : contents = .ok none ∧ (optional || reloading) = true ∨
        (∃ error, contents = .error error) ∧ optional = true)
      (table : after = { before with
        entries := ∅
        generation := before.generation + 1
        status := missingStatus location locale }) :
      Outcome location locale optional reloading before after contents (.ok ())
  /-- The table is what it was. -/
  | kept {contents : Except TableError (Option (List Entry))} {error : TableError}
      (strict : optional = false)
      (cause : contents = .error error ∨
        contents = .ok none ∧ reloading = false ∧ error = .notFound location)
      (table : after = before) :
      Outcome location locale optional reloading before after contents (.error error)

/-- The table says for which locale and from where it was filled, and holds what was found there, or
says that nothing usable was. -/
structure FilledFrom (contents : Except TableError (Option (List Entry)))
    (location locale : String) (table : Table) : Prop where
  target : table.status.locale = some locale
  source : table.status.location = some location
  contents : table.status.missing = true ∧ table.entries = ∅ ∧ table.status.rejected = 0 ∨
    table.status.missing = false ∧
      ∃ entries, contents = .ok (some entries) ∧ table.Mirrors entries table.status.rejected

namespace Outcome

variable {location locale : String} {optional reloading : Bool} {before after : Table}
  {contents : Except TableError (Option (List Entry))} {result : Except TableError Unit}

/-- A table that is filled says so, and its generation is raised. -/
theorem kept_or_filled
    (outcome : Outcome location locale optional reloading before after contents result) :
    after = before ∨
      before.generation < after.generation ∧ FilledFrom contents location locale after := by
  cases outcome with
  | @filled entries errors mirrors table =>
    refine .inr ⟨by rw [table]; exact Nat.lt_succ_self _, ?_⟩
    have rejected : after.status.rejected = errors.length := by rw [table]; rfl
    exact ⟨by rw [table]; rfl, by rw [table]; rfl,
      .inr ⟨by rw [table]; rfl, entries, rfl, rejected ▸ mirrors⟩⟩
  | emptied lenient table =>
    rw [table]
    exact .inr ⟨Nat.lt_succ_self _, rfl, rfl, .inl ⟨rfl, rfl, rfl⟩⟩
  | kept strict cause table => exact .inl table

/-- A filling that does not fail leaves nothing out. -/
theorem rejected_of_ok
    (outcome : Outcome location locale optional reloading before after contents (.ok ())) :
    after.status.locale = some locale ∧ after.status.rejected = 0 ∧
      before.generation < after.generation := by
  generalize hresult : Except.ok () = result at outcome
  cases outcome with
  | @filled entries errors mirrors table =>
    have none_left : errors = [] := by
      cases errors with
      | nil => rfl
      | cons error rest => cases hresult
    rw [table, none_left]
    exact ⟨rfl, rfl, Nat.lt_succ_self _⟩
  | emptied lenient table =>
    rw [table]
    exact ⟨rfl, rfl, Nat.lt_succ_self _⟩
  | kept strict cause table => cases hresult

/-- A clean document is taken in as a whole. -/
theorem of_clean {entries : List Entry} (clean : Document.Clean entries)
    (outcome : Outcome location locale optional reloading before after (.ok (some entries))
      result) :
    result = .ok () ∧ after.status.locale = some locale ∧ after.status.rejected = 0 := by
  generalize hcontents : Except.ok (some entries) = contents at outcome
  cases outcome with
  | @filled found errors mirrors table =>
    cases hcontents
    have none_left := List.length_eq_zero_iff.1 (mirrors.rejected_eq_zero clean)
    rw [table, none_left]
    exact ⟨rfl, rfl, rfl⟩
  | emptied lenient table =>
    rw [← hcontents] at lenient
    rcases lenient with ⟨h, -⟩ | ⟨⟨error, h⟩, -⟩
    · cases h
    · cases h
  | kept strict cause table =>
    rw [← hcontents] at cause
    rcases cause with h | ⟨h, -⟩
    · cases h
    · cases h

/-- A filling that fails either left entries out, which the table counts, or left the table alone. -/
theorem of_error {error : TableError}
    (outcome : Outcome location locale optional reloading before after contents (.error error)) :
    (∃ entries errors, error = .rejected location errors ∧ 0 < errors.length ∧
      contents = .ok (some entries) ∧ after.Mirrors entries errors.length ∧
      after.status.rejected = errors.length) ∨
    after = before ∧ (contents = .error error ∨
      contents = .ok none ∧ reloading = false ∧ error = .notFound location) := by
  generalize hresult : Except.error error = result at outcome
  cases outcome with
  | @filled entries errors mirrors table =>
    cases errors with
    | nil => cases hresult
    | cons first rest =>
      cases hresult
      exact .inl ⟨entries, _, rfl, Nat.succ_pos _, rfl, mirrors, by rw [table]; rfl⟩
  | emptied lenient table => cases hresult
  | kept strict cause table =>
    cases hresult
    exact .inr ⟨table, cause⟩

/-- Entries are reported as left out exactly when there is a document that is not clean. -/
theorem rejected_iff
    (outcome : Outcome location locale optional reloading before after contents result)
    (readable : ∀ place errors, contents ≠ .error (.rejected place errors)) :
    (∃ place errors, result = .error (.rejected place errors)) ↔
      ∃ entries, contents = .ok (some entries) ∧ ¬ Document.Clean entries := by
  cases outcome with
  | @filled entries errors mirrors table =>
    cases errors with
    | nil =>
      constructor
      · rintro ⟨_, _, rejected⟩
        cases rejected
      · rintro ⟨_, found, unclean⟩
        cases found
        exact absurd mirrors.clean unclean
    | cons first rest =>
      refine ⟨fun _ ↦ ⟨entries, rfl, fun clean ↦ ?_⟩, fun _ ↦ ⟨location, first :: rest, rfl⟩⟩
      exact absurd (mirrors.rejected_eq_zero clean) (Nat.succ_ne_zero _)
  | emptied lenient table =>
    constructor
    · rintro ⟨_, _, rejected⟩
      cases rejected
    · rintro ⟨_, found, -⟩
      rcases lenient with ⟨none_found, -⟩ | ⟨⟨_, failed⟩, -⟩
      · cases found.symm.trans none_found
      · cases found.symm.trans failed
  | @kept contents error strict cause table =>
    constructor
    · rintro ⟨_, _, rejected⟩
      cases rejected
      rcases cause with failed | ⟨-, -, absent⟩
      · exact absurd failed (readable _ _)
      · cases absent
    · rintro ⟨_, found, -⟩
      rcases cause with failed | ⟨none_found, -⟩
      · cases found.symm.trans failed
      · cases found.symm.trans none_found

end Outcome

/-- No entries are found where the document is malformed or nothing can be read. -/
theorem contentsOf_eq_error {location : String} {opened : Opened} {error : TableError}
    (h : contentsOf location opened = .error error) :
    (∃ fault, error = .document location fault) ∨ ∃ reason, error = .unreadable location reason := by
  cases opened with
  | absent => cases h
  | failed reason =>
    cases h
    exact .inr ⟨reason, rfl⟩
  | content stream =>
    unfold contentsOf at h
    cases read : Document.entriesOf stream with
    | ok found => simp [read] at h
    | error fault =>
      obtain rfl : _ = error := by simpa [read] using h
      exact .inl ⟨fault, rfl⟩

open Library (Recorded SameBut)

/-- A table that is marked as missing has no entries left. -/
theorem markMissing_run {id : TableId} (location locale : String) {library : Library}
    (known : id ∈ library.tables) :
    SameBut id library ((markMissing id location locale).run library).2 ∧
      ((markMissing id location locale).run library).2.table id =
        { (library.table id).cleared with status := missingStatus location locale } := by
  rw [markMissing, run_bind, Library.clear_run, Library.setStatus_run]
  have frame := Library.sameBut_modifyTable id Table.cleared library
  exact ⟨frame.trans (Library.sameBut_modifyTable id _ _), by simp [known, missingStatus]⟩

/-! ## Reading what was opened -/

section

variable {id : TableId} {location locale : String} {optional reloading lenient : Bool}
  {library middle : Library} {opened : Opened}

theorem contentsOf_eq_some_iff {entries : List Entry} :
    contentsOf location opened = .ok (some entries) ↔
      ∃ stream, opened = .content stream ∧ Document.entriesOf stream = .ok entries := by
  cases opened with
  | absent => simp [contentsOf]
  | failed reason => simp [contentsOf]
  | content stream =>
    cases read : Document.entriesOf stream with
    | error fault => simp [contentsOf, read]
    | ok found => simp [contentsOf, read]

theorem contentsOf_eq_none_iff : contentsOf location opened = .ok none ↔ opened = .absent := by
  cases opened with
  | absent => simp [contentsOf]
  | failed reason => simp [contentsOf]
  | content stream =>
    cases read : Document.entriesOf stream with
    | error fault => simp [contentsOf, read]
    | ok found => simp [contentsOf, read]

/-- Entries that were found take the place of those in the table. -/
theorem readOpened_of_entries {entries : List Entry}
    (h : contentsOf location opened = .ok (some entries)) (lenient : Bool)
    (known : id ∈ library.tables) :
    ∃ report after, (readOpened id location lenient opened).run library =
        (.ok (some report), after) ∧
      Library.Replaced id entries library after report.rejected.length := by
  obtain ⟨stream, rfl, read⟩ := contentsOf_eq_some_iff.1 h
  obtain ⟨report, after, run, replaced⟩ := Library.reload_of_entries read location known
  exact ⟨report, after, by simp [readOpened, run], replaced⟩

theorem readOpened_of_none (h : contentsOf location opened = .ok none) (id : TableId)
    (lenient : Bool) (library : Library) :
    (readOpened id location lenient opened).run library =
      (if lenient then .ok none else .error (.notFound location), library) := by
  cases lenient <;> simp [contentsOf_eq_none_iff.1 h, readOpened]

theorem readOpened_of_error {error : TableError} (h : contentsOf location opened = .error error)
    (id : TableId) (lenient : Bool) (library : Library) :
    ∃ after, Recorded library after ∧
      (readOpened id location lenient opened).run library = (.error error, after) := by
  cases opened with
  | absent => cases h
  | failed reason =>
    cases h
    exact ⟨library, ⟨_, rfl⟩, rfl⟩
  | content stream =>
    unfold contentsOf at h
    cases read : Document.entriesOf stream with
    | ok found => simp [read] at h
    | error fault =>
      obtain rfl : _ = error := by simpa [read] using h
      obtain ⟨after, recorded, run⟩ := Library.reload_of_fault read id location library
      exact ⟨after, recorded, by simp [readOpened, run]⟩

/-! ## Noting the outcome -/

/-- A document that was read: the table counts what was left out of it, and the filling fails if
that is anything. -/
theorem takeIn_of_report {report : LoadReport} (locale : String)
    (h : (readOpened id location (optional || reloading) opened).run library =
      (.ok (some report), middle)) :
    ∃ logged, Recorded middle logged ∧
      (takeIn id location locale optional reloading opened).run library =
        (if report.rejected.isEmpty then .ok () else .error (.rejected location report.rejected),
          Library.modifyTable id (fun table ↦ { table with
            status := filledStatus location locale report.rejected.length }) logged) := by
  rw [takeIn, run_bind, h]
  cases clean : report.rejected.isEmpty with
  | false =>
    simp only [LoadReport.isClean, clean]
    exact ⟨_, ⟨_, rfl⟩, rfl⟩
  | true =>
    simp only [LoadReport.isClean, clean]
    exact ⟨_, ⟨_, rfl⟩, rfl⟩

/-- Where nothing is found the table is marked as missing, and that is no failure. -/
theorem takeIn_of_none (locale : String)
    (h : (readOpened id location (optional || reloading) opened).run library =
      (.ok none, middle)) :
    ∃ logged, Recorded middle logged ∧
      (takeIn id location locale optional reloading opened).run library =
        (.ok (), ((markMissing id location locale).run logged).2) := by
  rw [takeIn, run_bind, h]
  cases vanished : reloading && !(middle.table id).status.missing with
  | false => exact ⟨_, ⟨_, rfl⟩, by simp only [run_bind, run_get, vanished]; rfl⟩
  | true => exact ⟨_, ⟨_, rfl⟩, by simp only [run_bind, run_get, vanished]; rfl⟩

/-- An optional filling forgives a failure and marks the table as missing. -/
theorem takeIn_of_error {error : TableError} (locale : String)
    (h : (readOpened id location (optional || reloading) opened).run library =
      (.error error, middle)) (lenient : optional = true) :
    ∃ logged, Recorded middle logged ∧
      (takeIn id location locale optional reloading opened).run library =
        (.ok (), ((markMissing id location locale).run logged).2) := by
  rw [takeIn, run_bind, h, lenient]
  exact ⟨_, ⟨_, rfl⟩, rfl⟩

theorem takeIn_of_error_of_strict {error : TableError}
    (h : (readOpened id location (optional || reloading) opened).run library =
      (.error error, middle)) (strict : optional = false) :
    (takeIn id location locale optional reloading opened).run library = (.error error, middle) := by
  rw [takeIn, run_bind, h]
  simp [strict]

/-- Emptying a table after something was noted in the journal. -/
theorem markMissing_of_recorded (known : id ∈ library.tables) (recorded : Recorded library middle) :
    SameBut id library ((markMissing id location locale).run middle).2 ∧
      ((markMissing id location locale).run middle).2.table id =
        { (library.table id).cleared with status := missingStatus location locale } := by
  have unread := recorded.sameBut id
  obtain ⟨frame, table⟩ := markMissing_run location locale ((unread.known id).2 known)
  exact ⟨unread.trans frame, by rw [table, recorded.table]⟩

/-- Filling a table touches no other one, and its outcome is decided by what was found. -/
theorem takeIn_run (location locale : String) (optional reloading : Bool) (opened : Opened)
    (known : id ∈ library.tables) :
    SameBut id library ((takeIn id location locale optional reloading opened).run library).2 ∧
      Outcome location locale optional reloading (library.table id)
        (((takeIn id location locale optional reloading opened).run library).2.table id)
        (contentsOf location opened)
        ((takeIn id location locale optional reloading opened).run library).1 := by
  cases h : contentsOf location opened with
  | error error =>
    obtain ⟨middle, unread, read⟩ := readOpened_of_error h id (optional || reloading) library
    cases optional with
    | true =>
      obtain ⟨logged, noted, run⟩ := takeIn_of_error locale read rfl
      obtain ⟨frame, table⟩ := markMissing_of_recorded known (unread.trans noted)
      rw [run]
      exact ⟨frame, .emptied (.inr ⟨⟨error, rfl⟩, rfl⟩) table⟩
    | false =>
      rw [takeIn_of_error_of_strict read rfl]
      exact ⟨unread.sameBut id, .kept rfl (.inl rfl) (unread.table id)⟩
  | ok contents =>
    cases contents with
    | none =>
      have read := readOpened_of_none h id (optional || reloading) library
      cases lenient : optional || reloading with
      | true =>
        rw [lenient, if_pos rfl, ← lenient] at read
        obtain ⟨logged, noted, run⟩ := takeIn_of_none locale read
        obtain ⟨frame, table⟩ := markMissing_of_recorded known noted
        rw [run]
        exact ⟨frame, .emptied (.inl ⟨rfl, lenient⟩) table⟩
      | false =>
        obtain ⟨strict, fresh⟩ := Bool.or_eq_false_iff.1 lenient
        rw [lenient, if_neg Bool.false_ne_true, ← lenient] at read
        rw [takeIn_of_error_of_strict read strict]
        exact ⟨.refl id library, .kept strict (.inr ⟨rfl, fresh, rfl⟩) rfl⟩
    | some entries =>
      obtain ⟨report, middle, read, replaced⟩ :=
        readOpened_of_entries h (optional || reloading) known
      obtain ⟨logged, noted, run⟩ := takeIn_of_report locale read
      rw [run]
      have frame := replaced.frame.trans (noted.sameBut id)
      have table := @Library.table_modifyTable_self id (fun table ↦ { table with
        status := filledStatus location locale report.rejected.length }) logged
        ((frame.known id).2 known)
      rw [noted.table, replaced.table] at table
      refine ⟨frame.trans (Library.sameBut_modifyTable id _ logged), .filled ?_ ?_⟩
      · rw [table]
        exact ⟨replaced.mirrors.definitions, replaced.mirrors.complete⟩
      · rw [table]

end

end Phrasebook.Catalog
