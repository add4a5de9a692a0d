import Phrasebook.Proofs.Catalog.Coherence

/-!
# Loads that fail

A load that fails takes nothing away: the same tables are kept for the same keys. The table of its own
key changes only if a document was found and some of its entries were left out; then it mirrors the
document, counts what is missing, and asks for the resource again at the next opportunity. Otherwise it
still has all it had, and what is noted about it is unchanged too.

Between the operations of a catalog those who hold tables may use them as they like. They cannot drop
a table that is kept, and what is noted about resources is the catalog's own.
-/

namespace Phrasebook

open Phrasebook.Document (Entry)
open Phrasebook.Storage

namespace Catalog

def resource (catalog : Catalog) (key : TableKey) : String := catalog.locate key catalog.locale

def contents (catalog : Catalog) (key : TableKey) : Except TableError (Option (List Entry)) :=
  contentsOf (catalog.resource key) (catalog.found (catalog.resource key))

/-- The resource of a key is a document with the given entries. -/
def Offers (catalog : Catalog) (key : TableKey) (entries : List Entry) : Prop :=
  ∃ bytes, catalog.store.Holds (catalog.resource key) bytes ∧
    Document.entriesOf (.ofBytes bytes) = .ok entries

/-- A load has to open the resource of its key. -/
def Stale (catalog : Catalog) (key : TableKey) (force : Bool) : Prop :=
  ∀ id, catalog.cached? key = some id →
    force = true ∨ catalog.isCurrent id catalog.locale = false

/-- Between two states of a catalog a location was opened, and nothing else was. -/
def Opens (before : Catalog) (location : String) (after : Catalog) : Prop :=
  ∃ byMemory, after.store.openings = before.store.openings ++ [⟨location, byMemory⟩]

section

variable {catalog before after last : Catalog} {key other : TableKey} {id : TableId}
  {optional force : Bool} {result : Except TableError TableId} {error : TableError}
  {entries : List Entry}

theorem offers_iff : catalog.Offers key entries ↔ catalog.contents key = .ok (some entries) := by
  constructor
  · rintro ⟨bytes, holds, read⟩
    exact contentsOf_eq_some_iff.2 ⟨_, holds, read⟩
  · exact exists_bytes_of_contentsOf

theorem opens_of_store {location : String}
    (store : after.store = (before.store.openAt location).2) : Opens before location after := by
  unfold Opens
  rw [store, Store.openAt]
  cases before.store.broken[location]? with
  | none => exact ⟨_, rfl⟩
  | some reason => exact ⟨_, rfl⟩

/-! ## What a load comes to -/

/-- What comes of a load that nobody interferes with. -/
inductive Load (before : Catalog) (key : TableKey) (optional force : Bool) (after : Catalog) :
    Except TableError TableId → Prop where
  /-- The table that is kept is handed out as it is. -/
  | current {id : TableId} (cached : before.cached? key = some id) (idle : force = false)
      (current : before.isCurrent id before.locale = true) (cache : after.cache = before.cache)
      (tables : ∀ number, after.library.table number = before.library.table number) :
      Load before key optional force after (.ok id)
  /-- The table that is kept is filled again. -/
  | refilled {id : TableId} {result : Except TableError Unit}
      (cached : before.cached? key = some id) (stale : before.Stale key force)
      (store : after.store = (before.store.openAt (before.resource key)).2)
      (cache : after.cache = before.cache)
      (tables : ∀ number, number ≠ id → after.library.table number = before.library.table number)
      (outcome : Outcome (before.resource key) before.locale optional true
        (before.library.table id) (after.library.table id) (before.contents key) result) :
      Load before key optional force after (result.map fun _ ↦ id)
  /-- A table is filled and kept. -/
  | made {table : Table} (absent : before.cached? key = none)
      (store : after.store = (before.store.openAt (before.resource key)).2)
      (cache : after.cache = before.cache.insert key before.library.nextTable)
      (tables : ∀ number, number ≠ before.library.nextTable →
        after.library.table number = before.library.table number)
      (outcome : Outcome (before.resource key) before.locale optional false table
        (after.library.table before.library.nextTable) (before.contents key) (.ok ())) :
      Load before key optional force after (.ok before.library.nextTable)
  /-- A table could not be filled as a whole, and is not kept. -/
  | dropped {error : TableError} {table filled : Table} (absent : before.cached? key = none)
      (store : after.store = (before.store.openAt (before.resource key)).2)
      (cache : after.cache = before.cache)
      (tables : ∀ number, number ≠ before.library.nextTable →
        after.library.table number = before.library.table number)
      (outcome : Outcome (before.resource key) before.locale optional false table filled
        (before.contents key) (.error error)) :
      Load before key optional force after (.error error)

theorem stale_of_absent (absent : catalog.cached? key = none) (force : Bool) :
    catalog.Stale key force := by
  intro id cached
  rw [absent] at cached
  cases cached

/-- The outcomes of a load that fills a kept table anew. -/
theorem refill_outcome (order : InOrder catalog) (cached : catalog.cached? key = some id)
    (stale : catalog.Stale key force) (interleave : Interleave) (optional : Bool) :
    Load catalog key optional force
      ((reloadTable interleave key id catalog.locale optional).run catalog).2
      (((reloadTable interleave key id catalog.locale optional).run catalog).1.map fun _ ↦ id) := by
  have opening := catalog.noted_openedAgain key catalog.locale
  have known : id ∈ (catalog.openedAgain key catalog.locale).library.tables :=
    ((opening.recorded.sameBut id).known id).2 (order.known key id cached)
  rw [reloadTable_run order.quiet]
  obtain ⟨others, frame, outcome⟩ :=
    finished_run (catalog.filling key id catalog.locale optional) true known
  rw [filling, opening.setting.contentNow, opening.recorded.table] at outcome
  refine .refilled cached stale ?_ ?_ (fun number apart ↦ ?_) outcome
  · rw [others]
    rfl
  · rw [others]
    exact opening.cache
  · rw [frame.others number apart, opening.recorded.table]

/-- The outcomes of a load that has to add a table. -/
theorem make_outcome (order : InOrder catalog) (absent : catalog.cached? key = none)
    (interleave : Interleave) (optional force : Bool) :
    Load catalog key optional force
      ((loadNew interleave key catalog.locale optional).run catalog).2
      ((loadNew interleave key catalog.locale optional).run catalog).1 := by
  have opening := catalog.noted_openedNew key catalog.locale
  have setting := (catalog.sameSetting_adding key.text).trans opening.setting
  have known : catalog.library.nextTable ∈ (catalog.openedNew key catalog.locale).library.tables :=
    ((opening.recorded.sameBut 0).known _).2 (Library.mem_adding.2 (.inl rfl))
  have finished := finished_run
    (catalog.filling key catalog.library.nextTable catalog.locale optional) false known
  rw [loadNew_run order.quiet absent]
  dsimp only
  generalize ((catalog.filling key catalog.library.nextTable catalog.locale optional).finish
    false).run (catalog.openedNew key catalog.locale) = filled at finished ⊢
  obtain ⟨others, frame, outcome⟩ := finished
  rw [filling, setting.contentNow] at outcome
  have store : filled.2.store = (catalog.store.openAt (catalog.resource key)).2 := by
    rw [others]
    rfl
  have cache : filled.2.cache = catalog.cache := by
    rw [others]
    exact opening.cache
  have tables : ∀ number, number ≠ catalog.library.nextTable →
      filled.2.library.table number = catalog.library.table number := by
    intro number apart
    rw [frame.others number apart, opening.recorded.table]
    exact Library.table_adding_of_ne apart key.text true
  cases answer : filled.1 with
  | error error =>
    rw [answer] at outcome
    dsimp only
    refine .dropped absent store cache (fun number apart ↦ ?_) outcome
    exact (Library.table_dropping_of_ne apart).trans (tables number apart)
  | ok _ =>
    rw [answer] at outcome
    have kept : (filled.2.keeping key catalog.library.nextTable).cache =
        catalog.cache.insert key catalog.library.nextTable :=
      congrArg (·.insert key catalog.library.nextTable) cache
    exact .made absent store kept tables outcome

/-- The outcomes are the same whether or not the table is kept already. -/
theorem request_outcome (order : InOrder catalog) (interleave : Interleave)
    (optional force : Bool) :
    Load catalog key optional force
      ((request interleave key catalog.locale optional force).run catalog).2
      ((request interleave key catalog.locale optional force).run catalog).1 := by
  cases cached : catalog.cached? key with
  | none =>
    rw [request_of_absent cached]
    exact make_outcome order cached interleave optional force
  | some id =>
    rw [request_of_cached cached]
    cases idle : !force && catalog.isCurrent id catalog.locale with
    | true =>
      obtain ⟨unforced, current⟩ := Bool.and_eq_true_iff.1 idle
      rw [refresh_of_current idle]
      exact .current cached (by simpa using unforced) current rfl fun _ ↦ rfl
    | false =>
      rw [refresh_of_stale idle]
      refine refill_outcome order cached (fun number cached' ↦ ?_) interleave optional
      obtain rfl : id = number := Option.some.inj (cached.symm.trans cached')
      cases force with
      | true => exact .inl rfl
      | false => exact .inr (by simpa using idle)

/-- What is written into the journal does not matter. -/
theorem Load.journaling {f g : Journal → Journal}
    (load : Load (before.journaling f) key optional force last result) :
    Load before key optional force (last.journaling g) result := by
  cases load with
  | current cached idle current cache tables => exact .current cached idle current cache tables
  | refilled cached stale store cache tables outcome =>
    exact .refilled cached stale store cache tables outcome
  | made absent store cache tables outcome => exact .made absent store cache tables outcome
  | dropped absent store cache tables outcome => exact .dropped absent store cache tables outcome

theorem load_outcome (order : InOrder catalog) (key : TableKey) (optional force : Bool) :
    Load catalog key optional force ((load key optional force).run catalog).2
      ((load key optional force).run catalog).1 := by
  have order' := (Refreshed.of_noted (catalog.noted_journaling .enter)).inOrder order
  rw [load, loadWith_run]
  exact (request_outcome order' interleave optional force).journaling

namespace Load

/-- A load leaves what is kept for other keys alone. -/
theorem others (load : Load before key optional force after result) (order : InOrder before)
    (apart : other ≠ key) :
    after.cached? other = before.cached? other ∧ ∀ id, before.cached? other = some id →
      after.library.table id = before.library.table id := by
  have old : ∀ id, before.cached? other = some id → id ≠ before.library.nextTable :=
    fun id cached ↦ Nat.ne_of_lt (order.bounded id (order.known other id cached))
  cases load with
  | current cached idle current cache tables =>
    exact ⟨by rw [cached?, cached?, cache], fun id _ ↦ tables id⟩
  | refilled cached stale store cache tables outcome =>
    refine ⟨by rw [cached?, cached?, cache], fun id cached' ↦ tables id ?_⟩
    rintro rfl
    exact apart (order.distinct other key id cached' cached)
  | made absent store cache tables outcome =>
    refine ⟨?_, fun id cached ↦ tables id (old id cached)⟩
    rw [cached?, cached?, cache, Std.TreeMap.getElem?_insert, if_neg]
    exact fun same ↦ apart (Std.LawfulEqOrd.eq_of_compare same).symm
  | dropped absent store cache tables outcome =>
    exact ⟨by rw [cached?, cached?, cache], fun id cached ↦ tables id (old id cached)⟩

theorem opens (load : Load before key optional force after result)
    (stale : before.Stale key force) : Opens before (before.resource key) after := by
  cases load with
  | current cached idle current cache tables =>
    rcases stale _ cached with forced | outdated
    · rw [idle] at forced
      cases forced
    · rw [current] at outdated
      cases outdated
  | refilled cached _ store cache tables outcome => exact opens_of_store store
  | made absent store cache tables outcome => exact opens_of_store store
  | dropped absent store cache tables outcome => exact opens_of_store store

/-- Whether a missing resource is a failure makes no difference to entries that are left out. -/
theorem rejected_iff (load : Load before key optional force after result) :
    (∃ location errors, result = .error (.rejected location errors)) ↔
      before.Stale key force ∧ ∃ entries, before.Offers key entries ∧ ¬ Document.Clean entries := by
  have readable : ∀ location errors, before.contents key ≠ .error (.rejected location errors) :=
    fun _ _ failed ↦ by simpa using contentsOf_eq_error failed
  simp only [offers_iff]
  cases load with
  | current cached idle current cache tables =>
    refine ⟨fun ⟨_, _, rejected⟩ ↦ (by cases rejected), fun ⟨stale, _⟩ ↦ ?_⟩
    rcases stale _ cached with forced | outdated
    · rw [idle] at forced
      cases forced
    · rw [current] at outdated
      cases outdated
  | @refilled id result cached stale store cache tables outcome =>
    rw [← outcome.rejected_iff readable]
    cases result with
    | ok _ => simp [Except.map]
    | error error => simp [Except.map, stale]
  | made absent store cache tables outcome =>
    rw [← outcome.rejected_iff readable]
    simp
  | dropped absent store cache tables outcome =>
    rw [← outcome.rejected_iff readable]
    simp [stale_of_absent absent]

end Load

/-! ## What a failure leaves -/

/-- A load failed and left everything as it was, but for a table whose document could be loaded in
part. -/
structure Intact (before : Catalog) (key : TableKey) (error : TableError) (after : Catalog) :
    Prop where
  cache : after.cache = before.cache
  others : ∀ other id, other ≠ key → before.cached? other = some id →
    after.library.table id = before.library.table id
  kept : (∀ location errors, error ≠ .rejected location errors) →
    ∀ id, before.cached? key = some id → after.library.table id = before.library.table id
  rejected : ∀ location errors, error = .rejected location errors → 0 < errors.length ∧
    ∀ id, before.cached? key = some id → ∃ entries, before.Offers key entries ∧
      (after.library.table id).Mirrors entries errors.length ∧
      (after.library.table id).status.rejected = errors.length
  notFound : ∀ location, error = .notFound location → before.cached? key = none

/-- Whatever makes a load fail, the catalog stays intact. -/
theorem Load.intact (load : Load before key optional force after (.error error))
    (order : InOrder before) : Intact before key error after := by
  have others := fun other id apart ↦ (@Load.others _ _ _ other _ _ _ load order apart).2 id
  generalize hanswer : Except.error error = answer at load
  cases load with
  | current cached idle current cache tables => cases hanswer
  | made absent store cache tables outcome => cases hanswer
  | @refilled id result cached stale store cache tables outcome =>
    cases result with
    | ok _ => cases hanswer
    | error failure =>
      obtain rfl : error = failure := Except.error.inj hanswer
      have only : ∀ number, before.cached? key = some number → number = id :=
        fun number cached' ↦ Option.some.inj (cached'.symm.trans cached)
      rcases outcome.of_error with ⟨entries, errors, rfl, some, found, mirrors, counted⟩ |
        ⟨same, cause⟩
      · refine ⟨cache, others, fun unrejected ↦ absurd rfl (unrejected _ _), ?_, nofun⟩
        intro _ _ rejected
        cases rejected
        refine ⟨some, fun number cached' ↦ ?_⟩
        rw [only number cached']
        exact ⟨entries, offers_iff.2 found, mirrors, counted⟩
      · have cause : before.contents key = .error error := by
          rcases cause with failed | ⟨-, reloading, -⟩
          · exact failed
          · cases reloading
        have cause := contentsOf_eq_error cause
        refine ⟨cache, others, fun _ number cached' ↦ ?_, ?_, ?_⟩
        · rw [only number cached', same]
        · rintro _ _ rfl
          simp at cause
        · rintro _ rfl
          simp at cause
  | @dropped failure table filled absent store cache tables outcome =>
    obtain rfl : error = failure := Except.error.inj hanswer
    have none_cached : ∀ number, before.cached? key ≠ some number :=
      fun number cached ↦ by cases absent.symm.trans cached
    refine ⟨cache, others, fun _ number cached ↦ absurd cached (none_cached number), ?_,
      fun _ _ ↦ absent⟩
    rintro _ _ rfl
    rcases outcome.of_error with ⟨_, _, rejected, some, -⟩ | ⟨-, failed | ⟨-, -, missing⟩⟩
    · cases rejected
      exact ⟨some, fun number cached ↦ absurd cached (none_cached number)⟩
    · simpa using contentsOf_eq_error failed
    · cases missing

/-! ## Runs -/

/-- What is done with tables keeps the catalog in order: it drops none, it makes new ones only under
new numbers, and it does not touch what is noted about resources. -/
structure KeepsTables (before after : Library) : Prop where
  bounded : ∀ id, id ∈ after.tables → id < after.nextTable
  known : ∀ id, id ∈ before.tables → id ∈ after.tables
  status : ∀ id, id ∈ before.tables → (after.table id).status = (before.table id).status

/-- Changing one table without what is noted about its resource is no harm. -/
theorem KeepsTables.of_sameBut {before after : Library}
    (bounded : ∀ number, number ∈ before.tables → number < before.nextTable)
    (frame : Library.SameBut id before after)
    (status : (after.table id).status = (before.table id).status) : KeepsTables before after where
  bounded number h := by
    rw [frame.next]
    exact bounded number ((frame.known number).1 h)
  known number := (frame.known number).2
  status number _ := by
    by_cases same : number = id
    · rw [same, status]
    · rw [frame.others number same]

theorem keepsTables_clear (id : TableId) {library : Library}
    (bounded : ∀ number, number ∈ library.tables → number < library.nextTable) :
    KeepsTables library ((Library.clear id).run library).2 := by
  rw [Library.clear_run]
  refine .of_sameBut bounded (Library.sameBut_modifyTable id Table.cleared library) ?_
  dsimp only
  by_cases known : id ∈ library.tables
  · simp [known]
  · simp [known, Library.table_of_not_mem known]

theorem keepsTables_addTable (name : String) (relays : Bool) {library : Library}
    (bounded : ∀ number, number ∈ library.tables → number < library.nextTable) :
    KeepsTables library ((Library.addTable name relays).run library).2 := by
  rw [Library.addTable_run]
  dsimp only
  refine ⟨fun number h ↦ ?_, fun number h ↦ Library.mem_adding.2 (.inr h), fun number h ↦ ?_⟩
  · rcases Library.mem_adding.1 h with rfl | h
    · exact Nat.lt_succ_self _
    · exact Nat.lt_succ_of_lt (bounded number h)
  · simp [Nat.ne_of_lt (bounded number h)]

/-- What may happen when one thing happens after the other. -/
inductive Happening where
  | operation (operation : Operation)
  /-- Someone asks for the table without entries. -/
  | emptyTable
  /-- Those who hold tables use them. -/
  | use (step : Library → Library)
      (keeps : ∀ library, (∀ id, id ∈ library.tables → id < library.nextTable) →
        KeepsTables library (step library))

namespace Happening

def take : Happening → Catalog → Catalog
  | .operation done, catalog => (done.perform.run catalog).2
  | .emptyTable, catalog => (Catalog.emptyTable.run catalog).2
  | .use step _, catalog => { catalog with library := step catalog.library }

def Loads (key : TableKey) : Happening → Prop
  | .operation (.load asked _ _) => asked = key
  | _ => False

/-- Apart from the operations of a catalog nothing changes but its library. -/
theorem keepsTables {happening : Happening} (order : InOrder catalog)
    (no_operation : ∀ operation, happening ≠ .operation operation) :
    (happening.take catalog).cache = catalog.cache ∧
      (happening.take catalog).interruptions = catalog.interruptions ∧
      KeepsTables catalog.library (happening.take catalog).library := by
  cases happening with
  | operation done => exact absurd rfl (no_operation done)
  | use step keeps => exact ⟨rfl, rfl, keeps catalog.library order.bounded⟩
  | emptyTable =>
    have unchanged : KeepsTables catalog.library catalog.library :=
      ⟨order.bounded, fun _ h ↦ h, fun _ _ ↦ rfl⟩
    rcases catalog.emptyTable_run_cases with ran | ran
    · rw [take, ran]
      exact ⟨rfl, rfl, unchanged⟩
    · rw [take, ran]
      exact ⟨rfl, rfl, keepsTables_addTable "<empty>" false order.bounded⟩

theorem inOrder (happening : Happening) (order : InOrder catalog) :
    InOrder (happening.take catalog) := by
  by_cases operation : ∃ operation, happening = .operation operation
  · obtain ⟨done, rfl⟩ := operation
    exact (done.advanced order).order
  · obtain ⟨cache, quiet, keeps⟩ := keepsTables order (not_exists.1 operation)
    have cached (key : TableKey) : (happening.take catalog).cached? key = catalog.cached? key := by
      rw [cached?, cached?, cache]
    refine ⟨⟨keeps.bounded, fun key id h ↦ ?_, fun key other id h h' ↦ ?_⟩, quiet.trans order.quiet⟩
    · rw [cached] at h
      exact keeps.known id (order.known key id h)
    · rw [cached] at h h'
      exact order.distinct key other id h h'

theorem loads_iff {happening : Happening} : happening.Loads key ↔
    ∃ optional force, happening = .operation (.load key optional force) := by
  constructor
  · intro asked
    cases happening with
    | operation done =>
      cases done with
      | load other optional force =>
        obtain rfl : other = key := asked
        exact ⟨optional, force, rfl⟩
      | _ => exact asked.elim
    | _ => exact asked.elim
  · rintro ⟨optional, force, rfl⟩
    rfl

/-- What is noted about the table of a key changes only by a load of the key or a reload. -/
theorem status_take (happening : Happening) (order : InOrder catalog)
    (other_key : ¬ happening.Loads key) (no_reload : happening ≠ .operation .reloadAll)
    (cached : (happening.take catalog).cached? key = some id) :
    catalog.cached? key = some id ∧
      ((happening.take catalog).library.table id).status = (catalog.library.table id).status := by
  by_cases operation : ∃ operation, happening = .operation operation
  · obtain ⟨done, rfl⟩ := operation
    cases done with
    | setLocale locale =>
      obtain ⟨journal, run⟩ := setLocale_run locale catalog
      change (((setLocale locale).run catalog).2).cached? key = some id at cached
      change catalog.cached? key = some id ∧
        ((((setLocale locale).run catalog).2).library.table id).status = _
      rw [run] at cached ⊢
      exact ⟨cached, rfl⟩
    | load asked optional force =>
      obtain ⟨same, tables⟩ :=
        (load_outcome order asked optional force).others order (Ne.symm other_key)
      have kept := same.symm.trans cached
      exact ⟨kept, congrArg Table.status (tables id kept)⟩
    | reloadAll => exact absurd rfl no_reload
    | clearCache => cases cached
    | edit change => exact ⟨cached, rfl⟩
  · obtain ⟨cache, -, keeps⟩ := keepsTables order (not_exists.1 operation)
    rw [cached?, cache] at cached
    exact ⟨cached, keeps.status id (order.known key id cached)⟩

end Happening

def afterAll (catalog : Catalog) (happenings : List Happening) : Catalog :=
  happenings.foldl (fun catalog happening ↦ happening.take catalog) catalog

theorem inOrder_afterAll (order : InOrder catalog) (happenings : List Happening) :
    InOrder (catalog.afterAll happenings) := by
  induction happenings generalizing catalog with
  | nil => exact order
  | cons happening happenings ih => exact ih (happening.inOrder order)

/-- Entries of the table of a key, if there is one, were left out. -/
def LeftOut (catalog : Catalog) (key : TableKey) : Prop :=
  ∀ id, catalog.cached? key = some id → 0 < (catalog.library.table id).status.rejected

theorem LeftOut.stale (left_out : catalog.LeftOut key) : catalog.Stale key false := by
  intro id cached
  refine .inr (Bool.eq_false_iff.2 fun current ↦ ?_)
  exact Nat.ne_of_gt (left_out id cached) (isCurrent_iff.1 current).1

theorem LeftOut.take (left_out : catalog.LeftOut key) (order : InOrder catalog)
    {happening : Happening} (other_key : ¬ happening.Loads key)
    (no_reload : happening ≠ .operation .reloadAll) : (happening.take catalog).LeftOut key := by
  intro id cached
  obtain ⟨kept, status⟩ := happening.status_take order other_key no_reload cached
  rw [status]
  exact left_out id kept

theorem LeftOut.afterAll (left_out : catalog.LeftOut key) (order : InOrder catalog)
    {happenings : List Happening} (other_keys : ∀ happening ∈ happenings, ¬ happening.Loads key)
    (no_reload : .operation .reloadAll ∉ happenings) :
    (catalog.afterAll happenings).LeftOut key := by
  induction happenings generalizing catalog with
  | nil => exact left_out
  | cons happening happenings ih =>
    have first := left_out.take order (other_keys happening List.mem_cons_self)
      (Ne.symm (List.ne_of_not_mem_cons no_reload))
    exact ih first (happening.inOrder order)
      (fun other mem ↦ other_keys other (List.mem_cons_of_mem _ mem))
      (List.not_mem_of_not_mem_cons no_reload)

/-- After entries were left out, the next load of the key opens its resource again, unless all tables
were filled again in between and the one of the key is complete now. -/
def Retries (catalog : Catalog) (key : TableKey) : Prop :=
  ∀ later : List Happening, (∀ happening ∈ later, ¬ happening.Loads key) → ∀ optional,
    let again := catalog.afterAll later
    Opens again (again.resource key) ((load key optional false).run again).2 ∨
      .operation .reloadAll ∈ later ∧
        ∃ id, again.cached? key = some id ∧ again.isCurrent id again.locale = true

theorem LeftOut.retries (left_out : catalog.LeftOut key) (order : InOrder catalog) :
    catalog.Retries key := by
  intro later other_keys optional again
  have load := load_outcome (inOrder_afterAll order later) key optional false
  by_cases reloaded : .operation .reloadAll ∈ later
  · by_cases stale : again.Stale key false
    · exact .inl (load.opens stale)
    · refine .inr ⟨reloaded, ?_⟩
      simpa [Stale] using stale
  · exact .inl (load.opens (left_out.afterAll order other_keys reloaded).stale)

theorem Intact.leftOut {location : String} {errors : List EntryError}
    (intact : Intact before key (.rejected location errors) after) : after.LeftOut key := by
  obtain ⟨some, rejected⟩ := intact.rejected location errors rfl
  intro id cached
  rw [cached?, intact.cache] at cached
  obtain ⟨_, -, -, counted⟩ := rejected id cached
  rw [counted]
  exact some

/-- Whatever happened to a catalog before, a load that fails leaves every table that is kept in its
place and as it was. Only a table whose document could be loaded in part changes; it is asked for
again, and that it could be loaded in part is a failure for optional and required loads alike. -/
theorem failed_load_leaves_tables (locale : String) (locator : Locator) (store : Store)
    (happenings : List Happening) (key : TableKey) (optional force : Bool) :
    let start : Catalog := { locale := locale, locator := locator, store := store }
    let now := start.afterAll happenings
    let answer := ((load key optional force).run now).1
    let after := ((load key optional force).run now).2
    (∀ error, answer = .error error → Intact now key error after) ∧
    ((∃ location errors, answer = .error (.rejected location errors)) ↔
      now.Stale key force ∧ ∃ entries, now.Offers key entries ∧ ¬ Document.Clean entries) ∧
    ((∃ location errors, answer = .error (.rejected location errors)) → after.Retries key) := by
  intro start now answer after
  have order : InOrder now := inOrder_afterAll (inOrder_new locale locator store) happenings
  have load : Load now key optional force after answer := load_outcome order key optional force
  have intact : ∀ error, answer = .error error → Intact now key error after :=
    fun error failed ↦ (failed ▸ load).intact order
  refine ⟨intact, load.rejected_iff, fun ⟨location, errors, failed⟩ ↦ ?_⟩
  have loaded := @loadWith_loaded now key order interleave optional force
  exact (intact _ failed).leftOut.retries loaded.advanced.order

/-- A table that is kept, and was cleared by someone, when its document has an entry that is no
phrase. -/
theorem failed_load_leaves_tables_menu :
    let document := Text.Utf8.encode
      "<StringTable><File SourcePath='m'><String Name='a'>\x7b</String></File></StringTable>"
    let store := Store.inMemory.put "menu_en.xml" (Text.Utf8.encode "<StringTable/>")
    let happenings : List Happening :=
      [.operation (.load ⟨"", "menu"⟩ false false),
        .use (fun library ↦ ((Library.clear 0).run library).2) fun _ ↦ keepsTables_clear 0,
        .operation (.edit (·.put "menu_en.xml" document))]
    let now := ({ locale := "en", store := store } : Catalog).afterAll happenings
    let loaded := (load ⟨"", "menu"⟩ true true).run now
    ∃ location errors, loaded.1 = .error (.rejected location errors) ∧
      now.cached? ⟨"", "menu"⟩ = some 0 ∧
      Intact now ⟨"", "menu"⟩ (.rejected location errors) loaded.2 ∧
      loaded.2.Retries ⟨"", "menu"⟩ := by
  intro document store happenings now loaded
  obtain ⟨intact, -, retries⟩ :=
    failed_load_leaves_tables "en" {} store happenings ⟨"", "menu"⟩ true true
  have failed : loaded.1 = .error (.rejected "menu_en.xml"
      [.template ⟨"a", 0, .unterminatedPlaceholder⟩]) := by
    decide +kernel
  have cached : now.cached? ⟨"", "menu"⟩ = some 0 := by decide +kernel
  exact ⟨_, _, failed, cached, intact _ failed, retries ⟨_, _, failed⟩⟩

end

end Catalog

end Phrasebook
