import Phrasebook.Proofs.Catalog.FailedLoads
import Phrasebook.Proofs.Catalog.Listening
import Phrasebook.Proofs.Library.Tally

/-!
# The verdicts of a reload

A reload of all tables puts every key that is kept into one of four lists. Which one it is follows from
what was found for the key and from nothing else: the table was filled without a loss, it is empty
because there is no resource, it lacks entries of its document, or it was left as it was because no
document could be read. Since the tables are filled one after the other, in the order of their keys, and
no table is kept for two keys, what becomes of one of them is not touched by the others.
-/

namespace Phrasebook

open Phrasebook.Document (Entry)
open Phrasebook.Storage
open Library (definitionsOf)

/-! ## Documents that were taken in -/

/-- What a table has of the entries of a document that took the place of what it had, and what is wrong
with the others. The phrases are numbered from `next` on, and `left` are those that are left out. -/
structure Table.Sifted (table : Table) (entries : List Entry) (errors : List EntryError) (next : Nat)
    (left : List Shared) : Prop where
  /-- First come the entries that are no phrases, then the phrases whose key was taken. -/
  errors : errors = entries.filterMap Document.Entry.error? ++
    left.map fun shared ↦ .duplicateKey table.name shared.phrase.name
  ordered : left.Sublist (definitionsOf next entries)
  /-- Of every key the first phrase is there. -/
  held : ∀ key, table.entries[key]? = (definitionsUnder key (definitionsOf next entries)).head?
  /-- Of every key the other phrases are left out. -/
  others : ∀ key, definitionsUnder key left =
    (definitionsUnder key (definitionsOf next entries)).tail

namespace Catalog

section

variable {id : TableId} {entries : List Entry} {location locale : String} {optional reloading : Bool}
  {before after library : Library} {opened : Opened}

/-- A table without entries has taken in the first phrase of each key, and left out the rest. -/
theorem sifted_of_takenIn {collisions : List EntryError}
    (taken : Library.TakenIn id false (Library.phrasesOf entries).1 before after collisions)
    (blank : (before.table id).entries = ∅) :
    ∃ left, (after.table id).Sifted entries ((Library.phrasesOf entries).2 ++ collisions)
      before.nextIdentity left := by
  obtain ⟨left, ordered, rfl, lines⟩ := taken.lines
  have name : (after.table id).name = (before.table id).name := by rw [taken.table]
  rw [Library.phrases_phrasesOf] at ordered lines
  have line (key : String) : (before.table id).lineAt (definitionsOf before.nextIdentity entries) key =
      definitionsUnder key (definitionsOf before.nextIdentity entries) := by
    rw [Table.lineAt, blank, Std.TreeMap.getElem?_emptyc, Option.toList_none, List.nil_append]
  refine ⟨left, ?_, ordered, fun key ↦ ?_, fun key ↦ ?_⟩
  · rw [Library.errors_phrasesOf, name]
  · rw [(lines key).1]
    exact congrArg (keptOf false) (line key)
  · rw [(lines key).2]
    exact congrArg (refusedOf false) (line key)

/-- A document that is taken in fails the filling exactly if something is wrong with an entry. -/
theorem takeIn_sifted (locale : String) (optional reloading : Bool)
    (found : contentsOf location opened = .ok (some entries)) (known : id ∈ library.tables) :
    ∃ errors next left,
      ((takeIn id location locale optional reloading opened).run library).1 =
        (if errors.isEmpty then .ok () else .error (.rejected location errors)) ∧
      (((takeIn id location locale optional reloading opened).run library).2.table id).Sifted entries
        errors next left := by
  obtain ⟨stream, rfl, read⟩ := contentsOf_eq_some_iff.1 found
  obtain ⟨collisions, after, ran, taken⟩ := Library.reload_takenIn read location known
  have blank : ((Library.modifyTable id Table.cleared library).table id).entries = ∅ := by
    simp [known]
  obtain ⟨left, sifted⟩ := sifted_of_takenIn taken blank
  have opens : (readOpened id location (optional || reloading) (.content stream)).run library =
      (.ok (some ⟨(after.table id).entries.size, (Library.phrasesOf entries).2 ++ collisions⟩),
        after) := by
    simp [readOpened, ran]
  obtain ⟨logged, noted, filled⟩ := takeIn_of_report locale opens
  have there : id ∈ logged.tables := by
    have frame := (Library.sameBut_modifyTable id Table.cleared library).trans taken.frame
    exact ((noted.sameBut id).known id).2 ((frame.known id).2 known)
  rw [filled]
  refine ⟨(Library.phrasesOf entries).2 ++ collisions, library.nextIdentity, left, rfl, ?_⟩
  dsimp only
  rw [Library.table_modifyTable_self there, noted.table]
  exact ⟨sifted.errors, sifted.ordered, sifted.held, sifted.others⟩

end

/-! ## Reports -/

/-- The lists of a report. -/
inductive Verdict where
  | reloaded
  | missing
  | rejected
  | failed
deriving DecidableEq

/-- The verdict on a table, by what is found for it. -/
def Verdict.on : Except TableError (Option (List Entry)) → Verdict
  | .ok (some entries) => if Document.Clean entries then .reloaded else .rejected
  | .ok none => .missing
  | .error _ => .failed

def ReloadReport.keys (report : ReloadReport) : Verdict → List TableKey
  | .reloaded => report.reloaded
  | .missing => report.missing
  | .rejected => report.rejected.map Prod.fst
  | .failed => report.failed.map Prod.fst

/-- What came of filling a table, and whether the table says then that its resource is missing. -/
structure Refill where
  key : TableKey
  missing : Bool
  result : Except TableError Unit

namespace Refill

/-- The list of a report that a table comes into. -/
def verdict : Refill → Verdict
  | ⟨_, missing, .ok ()⟩ => if missing then .missing else .reloaded
  | ⟨_, _, .error (.rejected _ _)⟩ => .rejected
  | ⟨_, _, .error _⟩ => .failed

def error? (refill : Refill) : Option TableError :=
  match refill.result with
  | .ok () => none
  | .error error => some error

end Refill

namespace ReloadReport

def enter (report : ReloadReport) : Refill → ReloadReport
  | ⟨key, missing, .ok ()⟩ =>
    if missing then { report with missing := report.missing ++ [key] }
    else { report with reloaded := report.reloaded ++ [key] }
  | ⟨key, _, .error (.rejected location errors)⟩ =>
    { report with rejected := report.rejected ++ [(key, .rejected location errors)] }
  | ⟨key, _, .error error⟩ => { report with failed := report.failed ++ [(key, error)] }

def lines (report : ReloadReport) : Verdict → List (TableKey × Option TableError)
  | .reloaded => report.reloaded.map (·, none)
  | .missing => report.missing.map (·, none)
  | .rejected => report.rejected.map fun (key, error) ↦ (key, some error)
  | .failed => report.failed.map fun (key, error) ↦ (key, some error)

theorem keys_eq_lines (report : ReloadReport) (verdict : Verdict) :
    report.keys verdict = (report.lines verdict).map Prod.fst := by
  cases verdict <;> simp [keys, lines, Function.comp_def]

theorem lines_enter (report : ReloadReport) (refill : Refill) (verdict : Verdict) :
    (report.enter refill).lines verdict = report.lines verdict ++
      if refill.verdict = verdict then [(refill.key, refill.error?)] else [] := by
  obtain ⟨key, missing, result⟩ := refill
  cases result with
  | ok _ => cases missing <;> cases verdict <;> simp [enter, lines, Refill.verdict, Refill.error?]
  | error error =>
    cases error <;> cases verdict <;> simp [enter, lines, Refill.verdict, Refill.error?]

theorem lines_foldl_enter (report : ReloadReport) (tables : List Refill) (verdict : Verdict) :
    (tables.foldl enter report).lines verdict = report.lines verdict ++
      (tables.filter (·.verdict = verdict)).map fun refill ↦ (refill.key, refill.error?) := by
  induction tables generalizing report with
  | nil => exact (List.append_nil _).symm
  | cons refill tables ih =>
    rw [List.foldl_cons, ih, lines_enter, List.append_assoc, List.filter_cons]
    by_cases same : refill.verdict = verdict
    · simp [same]
    · simp [same]

theorem keys_foldl_enter (tables : List Refill) (verdict : Verdict) :
    (tables.foldl enter {}).keys verdict =
      (tables.filter (·.verdict = verdict)).map Refill.key := by
  rw [keys_eq_lines, lines_foldl_enter, List.map_append, List.map_map]
  cases verdict <;> rfl

/-- Every key is in one list of the report, and every list is in the order of the keys. -/
structure Sorts (report : ReloadReport) (keys : List TableKey) : Prop where
  ordered : ∀ verdict, (report.keys verdict).Pairwise (compare · · = .lt)
  once : ∀ key ∈ keys, ∃! verdict, key ∈ report.keys verdict
  only : ∀ verdict, ∀ key ∈ report.keys verdict, key ∈ keys

/-- Tables that are entered in the order of their keys fill every list in that order. -/
theorem sorts_foldl_enter {tables : List Refill} {keys : List TableKey}
    (same : tables.map Refill.key = keys) (ordered : keys.Pairwise (compare · · = .lt)) :
    (tables.foldl enter {}).Sorts keys := by
  subst same
  have listed (verdict : Verdict) (key : TableKey) :
      key ∈ (tables.foldl enter {}).keys verdict ↔
        ∃ refill ∈ tables, refill.verdict = verdict ∧ refill.key = key := by
    simp [keys_foldl_enter, and_assoc]
  have distinct : (tables.map Refill.key).Nodup := by
    refine ordered.imp fun {key other} before same ↦ ?_
    rw [same] at before
    cases before.symm.trans Std.ReflCmp.compare_self
  refine ⟨fun verdict ↦ ?_, fun key mem ↦ ?_, fun verdict key mem ↦ ?_⟩
  · rw [keys_foldl_enter]
    exact ordered.sublist (List.filter_sublist.map Refill.key)
  · obtain ⟨refill, entered, rfl⟩ := List.mem_map.1 mem
    refine ⟨refill.verdict, (listed _ _).2 ⟨refill, entered, rfl, rfl⟩, fun verdict other ↦ ?_⟩
    obtain ⟨twin, among, rfl, same⟩ := (listed _ _).1 other
    rw [List.inj_on_of_nodup_map distinct among entered same]
  · obtain ⟨refill, entered, -, rfl⟩ := (listed _ _).1 mem
    exact List.mem_map_of_mem entered

end ReloadReport

theorem report_run (filling : Filling) (report : ReloadReport) (catalog : Catalog) :
    ((filling.report report).run catalog).1 =
      let finished := (filling.finish true).run catalog
      report.enter ⟨filling.key, (finished.2.library.table filling.id).status.missing,
        finished.1⟩ := by
  rw [Filling.report, run_bind]
  generalize (filling.finish true).run catalog = finished
  obtain ⟨result, after⟩ := finished
  cases result with
  | error error => cases error <;> simp [ReloadReport.enter]
  | ok _ => cases missing : (after.library.table filling.id).status.missing <;>
      simp [isMissing_run, missing, ReloadReport.enter]

/-- Whatever others do in the meantime, every table that is to be filled is entered, one after the
other. -/
theorem reloadEach_enters (interleave : Interleave) (target : String)
    (tables : List (TableKey × TableId)) (report : ReloadReport) (catalog : Catalog) :
    ∃ entered : List Refill, entered.map Refill.key = tables.map Prod.fst ∧
      ((reloadEach interleave target tables report).run catalog).1 =
        entered.foldl .enter report := by
  induction tables generalizing report catalog with
  | nil => exact ⟨[], rfl, rfl⟩
  | cons pair tables ih =>
    obtain ⟨key, id⟩ := pair
    let filling := catalog.filling key id target false
    let opened := ((filling.await interleave).run (catalog.openedAgain key target)).2
    have reported := report_run filling report opened
    obtain ⟨entered, same, ran⟩ := ih ((filling.report report).run opened).1
      ((filling.report report).run opened).2
    let finished := (filling.finish true).run opened
    refine ⟨⟨key, (finished.2.library.table id).status.missing, finished.1⟩ :: entered,
      congrArg (key :: ·) same, ?_⟩
    rw [reloadEach, run_bind, openAgain_run, run_bind, run_bind, List.foldl_cons, ran, reported]
    rfl

theorem sorts_reloadAllWith (interleave : Interleave) (catalog : Catalog) :
    ((reloadAllWith interleave).run catalog).1.Sorts catalog.cache.keys := by
  obtain ⟨entered, same, ran⟩ :=
    reloadEach_enters interleave catalog.locale catalog.cache.toList {} catalog
  rw [reloadAllWith_run, ran]
  refine ReloadReport.sorts_foldl_enter ?_ Std.TreeMap.ordered_keys
  rw [same, Std.TreeMap.map_fst_toList_eq_keys]

/-! ## Filling tables that are kept -/

section

variable {catalog before middle after : Catalog} {key : TableKey} {id : TableId}
  {refill : Refill} {report : ReloadReport}

theorem SameSetting.resource (same : SameSetting before after) (key : TableKey) :
    after.resource key = before.resource key := by
  rw [Catalog.resource, Catalog.resource, same.locale, same.locate]

theorem SameSetting.contents (same : SameSetting before after) (key : TableKey) :
    after.contents key = before.contents key := by
  rw [Catalog.contents, Catalog.contents, same.resource, same.found]

/-- What became of a table that was filled again for the current locale. -/
structure Refilled (before after : Catalog) (id : TableId) (refill : Refill) : Prop where
  missing : refill.missing = (after.library.table id).status.missing
  outcome : Outcome (before.resource refill.key) before.locale false true
    (before.library.table id) (after.library.table id) (before.contents refill.key) refill.result
  sifted : ∀ entries, before.contents refill.key = .ok (some entries) → ∃ errors next left,
    refill.result =
      (if errors.isEmpty then .ok () else .error (.rejected (before.resource refill.key) errors)) ∧
    (after.library.table id).Sifted entries errors next left

/-- What is done before and after is of no account if it leaves the table alone. -/
theorem Refilled.framed {last : Catalog} (refilled : Refilled before after id refill)
    (setting : SameSetting catalog before)
    (earlier : before.library.table id = catalog.library.table id)
    (later : last.library.table id = after.library.table id) :
    Refilled catalog last id refill := by
  obtain ⟨missing, outcome, sifted⟩ := refilled
  rw [setting.resource, setting.contents] at outcome sifted
  rw [setting.locale, earlier] at outcome
  exact ⟨by rw [missing, later], by rwa [later], by rwa [later]⟩

theorem report_refilled (order : InOrder catalog) (cached : catalog.cached? key = some id)
    (report : ReloadReport) :
    let reported := ((catalog.filling key id catalog.locale false).report report).run
      (catalog.openedAgain key catalog.locale)
    ∃ refill, refill.key = key ∧ reported.1 = report.enter refill ∧
      Refilled catalog reported.2 id refill ∧
      ∀ number, number ≠ id → reported.2.library.table number = catalog.library.table number := by
  intro reported
  have opening := catalog.noted_openedAgain key catalog.locale
  have known : id ∈ (catalog.openedAgain key catalog.locale).library.tables :=
    ((opening.recorded.sameBut id).known id).2 (order.known key id cached)
  have entered := report_run (catalog.filling key id catalog.locale false) report
    (catalog.openedAgain key catalog.locale)
  have noted := noted_report (catalog.filling key id catalog.locale false) report
    (catalog.openedAgain key catalog.locale)
  have found : (catalog.openedAgain key catalog.locale).store.contentNow (catalog.resource key)
      (catalog.found (catalog.resource key)) = catalog.found (catalog.resource key) :=
    opening.setting.contentNow _
  obtain ⟨-, frame, outcome⟩ := finished_run (catalog.filling key id catalog.locale false) true known
  rw [filling, ← Catalog.resource, found, opening.recorded.table] at outcome
  refine ⟨_, rfl, entered, ⟨?_, ?_, fun entries offered ↦ ?_⟩, fun number apart ↦ ?_⟩
  · exact congrArg (·.status.missing) (noted.recorded.table id).symm
  · dsimp only
    rw [noted.recorded.table]
    exact outcome
  · dsimp only
    rw [noted.recorded.table, finish_run, filling, ← Catalog.resource, found]
    exact takeIn_sifted catalog.locale false true offered known
  · rw [noted.recorded.table, frame.others number apart, opening.recorded.table]

/-- Every table is filled from what is found for its key, by induction on the tables that are still to
be filled: no table comes twice, so those that were filled are not filled again. -/
theorem reloadEach_refilled (interleave : Interleave) (tables : List (TableKey × TableId))
    (report : ReloadReport) (order : InOrder catalog) (distinct : (tables.map Prod.snd).Nodup)
    (cached : ∀ pair ∈ tables, catalog.cached? pair.1 = some pair.2) :
    let ran := (reloadEach interleave catalog.locale tables report).run catalog
    ∃ refills : List Refill, ran.1 = refills.foldl .enter report ∧
      refills.map Refill.key = tables.map Prod.fst ∧
      (∀ refill ∈ refills, ∃ id, (refill.key, id) ∈ tables ∧ Refilled catalog ran.2 id refill) ∧
      ∀ number, number ∉ tables.map Prod.snd →
        ran.2.library.table number = catalog.library.table number := by
  induction tables generalizing catalog report with
  | nil => exact ⟨[], rfl, rfl, nofun, fun _ _ ↦ rfl⟩
  | cons pair rest ih =>
    obtain ⟨key, id⟩ := pair
    obtain ⟨new, apart⟩ := List.nodup_cons.1 distinct
    have kept := cached (key, id) List.mem_cons_self
    obtain ⟨refill, rfl, entered, refilled, others⟩ := report_refilled order kept report
    have first := report_refreshed order kept report
    rw [reloadEach_cons_run order.quiet]
    generalize ((catalog.filling refill.key id catalog.locale false).report report).run
      (catalog.openedAgain refill.key catalog.locale) = reported at entered refilled others first
    obtain ⟨refills, ran, keys, all, untouched⟩ := ih reported.1 (first.inOrder order) apart
      fun other mem ↦ (first.cached other.1).trans (cached other (List.mem_cons_of_mem _ mem))
    rw [first.setting.locale] at ran all untouched
    refine ⟨refill :: refills, by rw [ran, entered]; rfl, congrArg (refill.key :: ·) keys,
      List.forall_mem_cons.2 ⟨⟨id, List.mem_cons_self, ?_⟩, fun later mem ↦ ?_⟩, fun number apart ↦ ?_⟩
    · exact refilled.framed (.refl catalog) rfl (untouched _ new)
    · obtain ⟨other, listed, refilled⟩ := all later mem
      have apart : other ≠ id := by
        rintro rfl
        exact new (List.mem_map.2 ⟨_, listed, rfl⟩)
      exact ⟨other, List.mem_cons_of_mem _ listed,
        refilled.framed first.setting (others other apart) rfl⟩
    · obtain ⟨apart, unlisted⟩ := not_or.1 (List.mem_cons.not.1 apart)
      rw [untouched number unlisted, others number apart]

/-! ## What the verdicts mean -/

/-- The verdict on a table says what was found for its key and what became of it. -/
inductive Judged (before : Catalog) (report : ReloadReport) (after : Catalog) (key : TableKey)
    (id : TableId) : Prop where
  /-- The table holds the entries of a document, and nothing was wrong with them. -/
  | reloaded {entries : List Entry} (listed : key ∈ report.reloaded)
      (offered : before.Offers key entries) (mirrors : (after.library.table id).Mirrors entries 0)
      (status : (after.library.table id).status =
        filledStatus (before.resource key) before.locale 0)
  /-- There is no resource, and the table is empty. -/
  | missing (listed : key ∈ report.missing)
      (absent : before.found (before.resource key) = .absent)
      (empty : (after.library.table id).entries = ∅)
      (status : (after.library.table id).status =
        missingStatus (before.resource key) before.locale)
  /-- The table holds the entries of a document but for those that the report lists. -/
  | rejected {entries : List Entry} {errors : List EntryError} {next : Nat} {left : List Shared}
      (listed : (key, .rejected (before.resource key) errors) ∈ report.rejected)
      (offered : before.Offers key entries) (some : errors ≠ [])
      (sifted : (after.library.table id).Sifted entries errors next left)
      (mirrors : (after.library.table id).Mirrors entries errors.length)
      (status : (after.library.table id).status =
        filledStatus (before.resource key) before.locale errors.length)
  /-- The resource is malformed or cannot be read, and the table is what it was. -/
  | failed {error : TableError} (listed : (key, error) ∈ report.failed)
      (cause : before.contents key = .error error)
      (broken : (∃ fault, error = .document (before.resource key) fault) ∨
        ∃ reason, error = .unreadable (before.resource key) reason)
      (kept : after.library.table id = before.library.table id)

/-- The list that a table comes into is decided by what is found for its key. -/
theorem Refilled.verdict (refilled : Refilled before after id refill) :
    refill.verdict = .on (before.contents refill.key) := by
  obtain ⟨missing, outcome, -⟩ := refilled
  obtain ⟨key, flag, result⟩ := refill
  dsimp only at missing outcome ⊢
  generalize found : before.contents key = contents at outcome
  subst missing
  cases outcome with
  | @filled entries errors mirrors table =>
    cases errors with
    | nil =>
      rw [Verdict.on, if_pos mirrors.clean, table]
      rfl
    | cons error rest =>
      rw [Verdict.on, if_neg fun clean ↦ Nat.succ_ne_zero _ (mirrors.rejected_eq_zero clean)]
      rfl
  | emptied lenient table =>
    obtain ⟨rfl, -⟩ := lenient.resolve_right fun optional ↦ Bool.false_ne_true optional.2
    rw [table]
    rfl
  | @kept _ error strict cause table =>
    obtain rfl := cause.resolve_right fun ⟨_, fresh, _⟩ ↦ nomatch fresh
    obtain ⟨fault, rfl⟩ | ⟨reason, rfl⟩ := contentsOf_eq_error found
    all_goals rfl

/-- A table that was filled again is judged by what is found for its key. -/
theorem Refilled.judged (refilled : Refilled before after id refill)
    (listed : (refill.key, refill.error?) ∈ report.lines refill.verdict) :
    Judged before report after refill.key id := by
  have verdict := refilled.verdict
  obtain ⟨missing, outcome, sifted⟩ := refilled
  rw [verdict] at listed
  obtain ⟨key, flag, result⟩ := refill
  dsimp only at missing outcome sifted listed ⊢
  generalize found : before.contents key = contents at outcome sifted listed
  cases outcome with
  | @filled entries errors mirrors table =>
    obtain ⟨others, next, left, same, sifted⟩ := sifted entries rfl
    have offered := offers_iff.2 found
    have status : (after.library.table id).status =
        filledStatus (before.resource key) before.locale errors.length := by rw [table]
    cases errors with
    | nil =>
      rw [Verdict.on, if_pos mirrors.clean] at listed
      exact .reloaded (by simpa [ReloadReport.lines, Refill.error?] using listed) offered mirrors status
    | cons error rest =>
      obtain rfl : error :: rest = others := by
        cases others with
        | nil => cases same
        | cons other more => simpa using same
      rw [Verdict.on, if_neg fun clean ↦ Nat.succ_ne_zero _ (mirrors.rejected_eq_zero clean)] at listed
      exact .rejected (by simpa [ReloadReport.lines, Refill.error?] using listed) offered
        (List.cons_ne_nil _ _) sifted mirrors status
  | emptied lenient table =>
    obtain ⟨rfl, -⟩ := lenient.resolve_right fun optional ↦ Bool.false_ne_true optional.2
    exact .missing (by simpa [ReloadReport.lines, Verdict.on, Refill.error?] using listed)
      (contentsOf_eq_none_iff.1 found) (by rw [table]) (by rw [table])
  | @kept _ error strict cause table =>
    obtain rfl := cause.resolve_right fun ⟨_, fresh, _⟩ ↦ nomatch fresh
    exact .failed (by simpa [ReloadReport.lines, Verdict.on, Refill.error?] using listed) found
      (contentsOf_eq_error found) table

/-- A reload that nobody interferes with keeps the cache, and every key that is kept comes into the list
that is due to what is found for it. -/
theorem reloadAllWith_judged (order : InOrder catalog) (interleave : Interleave) :
    let ran := (reloadAllWith interleave).run catalog
    (∀ verdict, ran.1.keys verdict =
      catalog.cache.keys.filter fun key ↦ .on (catalog.contents key) = verdict) ∧
    ∀ key id, catalog.cached? key = some id → Judged catalog ran.1 ran.2 key id := by
  intro ran
  have cached (pair : TableKey × TableId) (mem : pair ∈ catalog.cache.toList) :
      catalog.cached? pair.1 = some pair.2 := Std.TreeMap.mem_toList_iff_getElem?_eq_some.1 mem
  have distinct : (catalog.cache.toList.map Prod.snd).Nodup := by
    refine List.pairwise_map.2 (Std.TreeMap.distinct_keys_toList.imp_of_mem ?_)
    intro pair other mem among apart same
    have kept := cached other among
    rw [← same] at kept
    exact apart (Std.LawfulEqOrd.compare_eq_iff_eq.2
      (order.distinct pair.1 other.1 pair.2 (cached pair mem) kept))
  obtain ⟨refills, entered, keys, all, -⟩ :=
    reloadEach_refilled interleave catalog.cache.toList {} order distinct cached
  rw [← reloadAllWith_run] at entered all
  rw [Std.TreeMap.map_fst_toList_eq_keys] at keys
  have judged (refill : Refill) (mem : refill ∈ refills) :
      ∃ id, catalog.cached? refill.key = some id ∧ Refilled catalog ran.2 id refill := by
    obtain ⟨id, listed, refilled⟩ := all refill mem
    exact ⟨id, cached _ listed, refilled⟩
  refine ⟨fun verdict ↦ ?_, fun key id kept ↦ ?_⟩
  · rw [entered, ReloadReport.keys_foldl_enter, ← keys, List.filter_map]
    refine congrArg (List.map Refill.key) (List.filter_congr fun refill mem ↦ ?_)
    obtain ⟨id, -, refilled⟩ := judged refill mem
    rw [refilled.verdict]
    rfl
  · have mem : key ∈ refills.map Refill.key := by
      rw [keys, Std.TreeMap.mem_keys]
      exact Std.TreeMap.isSome_getElem?_iff_mem.1 (Option.isSome_of_eq_some kept)
    obtain ⟨refill, among, rfl⟩ := List.mem_map.1 mem
    obtain ⟨number, held, refilled⟩ := judged refill among
    obtain rfl : number = id := Option.some.inj (held.symm.trans kept)
    refine refilled.judged ?_
    rw [entered, ReloadReport.lines_foldl_enter]
    exact List.mem_append_right _
      (List.mem_map.2 ⟨refill, List.mem_filter.2 ⟨among, decide_eq_true rfl⟩, rfl⟩)

end

/-! ## Every catalog that can come about -/

/-- No table is kept for two keys. -/
def Unshared (catalog : Catalog) : Prop :=
  ∀ key other id, catalog.cached? key = some id → catalog.cached? other = some id → key = other

section

variable {catalog before after : Catalog} {frames : List Frame} {frame : Frame}
  {handed : List TableId}

theorem Unshared.of_cache (unshared : before.Unshared) (cache : after.cache = before.cache) :
    after.Unshared := by
  intro key other id kept kept'
  rw [cached?, cache] at kept kept'
  exact unshared key other id kept kept'

theorem cache_beginLoad (catalog : Catalog) (key : TableKey) (optional force : Bool) :
    ((beginLoad key optional force).run catalog).2.cache = catalog.cache := by
  cases kept : catalog.cached? key with
  | none =>
    rw [beginLoad_run_of_absent kept]
    exact (noted_openedNew (catalog.journaling .enter) key catalog.locale).cache
  | some id =>
    rw [beginLoad_run_of_cached kept]
    exact (noted_beginRefresh key id catalog.locale optional force (catalog.journaling .enter)).cache

/-- A new table is kept for one key only, since nobody knew of it before. -/
theorem Unshared.keeping {filling : Filling} (unshared : catalog.Unshared)
    (wired : Wired catalog (.fresh filling :: frames) handed) :
    (catalog.keeping filling.key filling.id).Unshared := by
  have new (key : TableKey) : catalog.cached? key ≠ some filling.id := by
    intro kept
    have old := (wired.kept key filling.id kept).old
    rw [newTables_cons_fresh] at old
    exact old List.mem_cons_self
  exact fun _ _ _ kept kept' ↦ distinct_keeping _ new unshared kept kept'

/-- An operation that goes on puts no table into the cache for a second key. -/
theorem Unshared.resume (unshared : catalog.Unshared) (wired : Wired catalog (frame :: frames) handed) :
    (frame.resume.run catalog).2.Unshared := by
  cases frame with
  | stale filling =>
    rw [resume_stale_run]
    exact unshared.of_cache rfl
  | all filling rest report =>
    rw [resume_all_run]
    exact unshared.of_cache ((quiet_report filling report catalog).cache ▸
      (noted_beginEach filling.target rest _ _).cache)
  | fresh filling =>
    have filled := quiet_finish filling false catalog
    have same := unshared.of_cache filled.cache
    cases finished : ((filling.finish false).run catalog).1 with
    | error error =>
      rw [resume_fresh_of_error finished]
      exact same
    | ok _ =>
      cases kept : ((filling.finish false).run catalog).2.cached? filling.key with
      | none =>
        rw [resume_fresh_of_kept finished kept]
        exact same.keeping (wired.quiet filled)
      | some winner =>
        rw [resume_fresh_of_lost finished kept]
        exact same.of_cache (noted_beginRefresh filling.key winner filling.target filling.optional
          false _).cache

end

namespace Scene

variable {scene : Scene}

/-- No act makes two keys share a table. -/
theorem Wired.unshared_act (wired : scene.Wired) (unshared : scene.catalog.Unshared) (act : Act) :
    (scene.act act).catalog.Unshared := by
  cases act with
  | ask key => exact unshared
  | perform deed keeps => exact unshared.of_cache rfl
  | clearCache => exact fun key other id kept ↦ by cases kept
  | emptyTable =>
    rw [Scene.act]
    cases made : scene.catalog.empty with
    | some id =>
      rw [emptyTable_run_of_some made]
      exact unshared
    | none =>
      rw [emptyTable_run_of_none made]
      exact unshared.of_cache rfl
  | move move =>
    cases move with
    | edit change => exact unshared
    | rearrange interruptions => exact unshared.of_cache rfl
    | setLocale locale =>
      obtain ⟨journal, ran⟩ := setLocale_run locale scene.catalog
      exact unshared.of_cache (congrArg (·.2.cache) ran)
    | load key optional force => exact unshared.of_cache (cache_beginLoad _ key optional force)
    | reloadAll =>
      refine unshared.of_cache ?_
      change (beginReloadAll.run scene.catalog).2.cache = _
      rw [beginReloadAll_run]
      exact (noted_beginEach _ _ _ _).cache
    | resume =>
      obtain ⟨⟨catalog, epoch, suspended⟩, handed⟩ := scene
      cases suspended with
      | nil => exact unshared
      | cons operation rest => exact unshared.resume wired

theorem Wired.unshared_run (wired : scene.Wired) (unshared : scene.catalog.Unshared)
    (acts : List Act) : (scene.run acts).catalog.Unshared := by
  induction acts generalizing scene with
  | nil => exact unshared
  | cons act acts ih => exact ih (wired.act act).1 (wired.unshared_act unshared act)

/-- Whatever was done to a catalog, and whatever still waits, its tables are kept in order. -/
theorem indexed_run (locale : String) (locator : Locator) (store : Store) (acts : List Act) :
    Indexed ((opening locale locator store).run acts).catalog := by
  have wired := wired_opening locale locator store
  have now := (wired.run acts).1
  refine ⟨Catalog.Wired.bounded now, fun key id kept ↦ (Catalog.Wired.kept now key id kept).known, ?_⟩
  exact wired.unshared_run (fun key other id kept ↦ by cases kept) acts

end Scene

/-! ## A reload of everything -/

/-- Whatever was done to a catalog and its store before, and whatever is still being loaded, a reload
of all tables puts every key that is kept when it begins into exactly one of its four lists, and no other
key into any of them, and every list is in the order of the keys; others may even interfere in the
meantime. If nobody does, what is found for a key decides into which list it comes, the list says what
became of the table, and the same tables are kept for the same keys. -/
theorem reload_judges_every_table (locale : String) (locator : Locator) (store : Store)
    (acts : List Act) :
    let before := ((Scene.opening locale locator store).run acts).catalog
    let report := (reloadAll.run before).1
    let after := (reloadAll.run before).2
    report.Sorts before.cache.keys ∧
    (before.interruptions = ∅ →
      after.cache = before.cache ∧
      (∀ verdict, report.keys verdict =
        before.cache.keys.filter fun key ↦ .on (before.contents key) = verdict) ∧
      ∀ key id, before.cached? key = some id → Judged before report after key id) := by
  intro before report after
  refine ⟨sorts_reloadAllWith interleave before, fun quiet ↦ ?_⟩
  have order : InOrder before := ⟨Scene.indexed_run locale locator store acts, quiet⟩
  exact ⟨(reloadAllWith_refreshed order interleave).cache, reloadAllWith_judged order interleave⟩

/-- Four tables that were empty, after documents were put down for three of them: a good one, one with
an entry that is no phrase, and one that is malformed. -/
theorem reload_judges_every_table_greetings :
    let loads : List Act := ["hi", "menu", "news", "shop"].flatMap fun name ↦
      [.move (.load ⟨"", name⟩ true false), .move .resume]
    let change : Store → Store := fun store ↦ ((store.put "hi_en.xml" (Text.Utf8.encode
        "<StringTable><File SourcePath='m'><String Name='a'>b</String></File></StringTable>")).put
      "news_en.xml" (Text.Utf8.encode
        "<StringTable><File SourcePath='m'><String Name='a'>\x7b</String></File></StringTable>")).put
      "shop_en.xml" (Text.Utf8.encode "<StringTable>")
    let acts := loads ++ [.move (.edit change), .move (.rearrange ∅)]
    let before := ((Scene.opening "en" {} .inMemory).run acts).catalog
    let report := (reloadAll.run before).1
    let after := (reloadAll.run before).2
    before.cache.toList = [(⟨"", "hi"⟩, 0), (⟨"", "menu"⟩, 1), (⟨"", "news"⟩, 2), (⟨"", "shop"⟩, 3)] ∧
      report.reloaded = [⟨"", "hi"⟩] ∧ report.missing = [⟨"", "menu"⟩] ∧
      report.keys .rejected = [⟨"", "news"⟩] ∧ report.keys .failed = [⟨"", "shop"⟩] ∧
      report.Sorts before.cache.keys ∧
      ∀ pair ∈ before.cache.toList, Judged before report after pair.1 pair.2 := by
  intro loads change acts before report after
  have quiet : before.interruptions = ∅ := by
    dsimp only [before, acts]
    rw [Scene.run, List.foldl_append]
    rfl
  obtain ⟨sorts, judges⟩ := reload_judges_every_table "en" {} .inMemory acts
  obtain ⟨-, -, judged⟩ := judges quiet
  have lists : before.cache.toList =
        [(⟨"", "hi"⟩, 0), (⟨"", "menu"⟩, 1), (⟨"", "news"⟩, 2), (⟨"", "shop"⟩, 3)] ∧
      report.reloaded = [⟨"", "hi"⟩] ∧ report.missing = [⟨"", "menu"⟩] ∧
      report.keys .rejected = [⟨"", "news"⟩] ∧ report.keys .failed = [⟨"", "shop"⟩] := by
    decide +kernel
  obtain ⟨tables, reloaded, missing, rejected, failed⟩ := lists
  refine ⟨tables, reloaded, missing, rejected, failed, sorts, fun pair mem ↦ judged pair.1 pair.2 ?_⟩
  exact Std.TreeMap.mem_toList_iff_getElem?_eq_some.1 mem

end Catalog

end Phrasebook
