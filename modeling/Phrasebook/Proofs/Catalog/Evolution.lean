import Phrasebook.Proofs.Catalog.Interleaving

/-!
# What a part of an operation does

Every part of a load or a reload is about one table. It may fill the table, keep it or drop it, and
it leaves all other tables and everything that is already kept as they are. A machine therefore
stays well-formed: what an operation waits to fill is there, the new tables of loads are not kept
for any key yet, and the others are kept for the keys that they are filled for.
-/

namespace Phrasebook.Catalog

/-- What a part of an operation about one table, which belongs to a key, does to a catalog. -/
structure Evolved (touched : TableId) (owner : TableKey) (before after : Catalog) : Prop where
  setting : SameSetting before after
  cached : ∀ key id, before.cached? key = some id → after.cached? key = some id
  fresh : ∀ key id, after.cached? key = some id →
    before.cached? key = some id ∨ id = touched ∧ key = owner
  known : ∀ id, id ∈ after.library.tables → id ∈ before.library.tables ∨ id = touched
  kept : ∀ id, id ∈ before.library.tables → id ≠ touched →
    id ∈ after.library.tables ∧ after.library.table id = before.library.table id
  next : before.library.nextTable ≤ after.library.nextTable

namespace Evolved

variable {touched : TableId} {owner : TableKey} {before middle after : Catalog}

theorem trans (first : Evolved touched owner before middle)
    (second : Evolved touched owner middle after) : Evolved touched owner before after where
  setting := first.setting.trans second.setting
  cached key id h := second.cached key id (first.cached key id h)
  fresh key id h := (second.fresh key id h).elim (first.fresh key id) .inr
  known id h := (second.known id h).elim (first.known id) .inr
  kept id h other := by
    obtain ⟨there, same⟩ := first.kept id h other
    obtain ⟨there', same'⟩ := second.kept id there other
    exact ⟨there', same'.trans same⟩
  next := Nat.le_trans first.next second.next

theorem of_noted (noted : Noted before after) (touched : TableId) (owner : TableKey) :
    Evolved touched owner before after where
  setting := noted.setting
  cached key id h := by rwa [cached?, noted.cache]
  fresh key id h := by
    rw [cached?, noted.cache] at h
    exact .inl h
  known id h := .inl (((noted.recorded.sameBut 0).known id).1 h)
  kept id h _ := ⟨((noted.recorded.sameBut 0).known id).2 h, noted.recorded.table id⟩
  next := Nat.le_of_eq (noted.recorded.sameBut 0).next.symm

theorem of_finished {filling : Filling} {reloading : Bool} {result : Except TableError Unit}
    (finished : Finished filling reloading before after result) :
    Evolved filling.id filling.key before after where
  setting := by
    rw [finished.others]
    exact ⟨⟨rfl, rfl, rfl⟩, rfl⟩
  cached key id h := by
    rw [finished.others]
    exact h
  fresh key id h := by
    rw [finished.others] at h
    exact .inl h
  known id h := .inl ((finished.frame.known id).1 h)
  kept id h other := ⟨(finished.frame.known id).2 h, finished.frame.others id other⟩
  next := Nat.le_of_eq finished.frame.next.symm

theorem adding (catalog : Catalog) (name : String) (owner : TableKey) :
    Evolved catalog.library.nextTable owner catalog (catalog.adding name) where
  setting := catalog.sameSetting_adding name
  cached _ _ h := h
  fresh _ _ h := .inl h
  known _ h := (Library.mem_adding.1 h).symm
  kept _ h other :=
    ⟨Library.mem_adding.2 (.inr h), Library.table_adding_of_ne other name true⟩
  next := Nat.le_succ _

theorem keeping {catalog : Catalog} {key : TableKey} (absent : catalog.cached? key = none)
    (id : TableId) : Evolved id key catalog (catalog.keeping key id) where
  setting := ⟨⟨rfl, rfl, rfl⟩, rfl⟩
  cached other number h := by
    have apart : key ≠ other := by
      rintro rfl
      cases absent.symm.trans h
    simpa [apart] using h
  fresh other number h := by
    exact (of_cached?_keeping h).symm.imp_right And.symm
  known _ h := .inl h
  kept _ h _ := ⟨h, rfl⟩
  next := Nat.le_refl _

theorem dropping (catalog : Catalog) (id : TableId) (owner : TableKey) :
    Evolved id owner catalog (catalog.dropping id) where
  setting := ⟨⟨rfl, rfl, rfl⟩, rfl⟩
  cached _ _ h := h
  fresh _ _ h := .inl h
  known _ h := .inl (Library.mem_dropping.1 h).2
  kept _ h other := ⟨Library.mem_dropping.2 ⟨other, h⟩, Library.table_dropping_of_ne other⟩
  next := Nat.le_refl _

end Evolved

/-- A table that is there and not kept for any key. -/
def Loose (catalog : Catalog) (id : TableId) : Prop :=
  id ∈ catalog.library.tables ∧ ∀ key, catalog.cached? key ≠ some id

theorem Loose.evolved {touched id : TableId} {owner : TableKey} {before after : Catalog}
    (loose : before.Loose id) (evolved : Evolved touched owner before after)
    (other : id ≠ touched) : after.Loose id := by
  refine ⟨(evolved.kept id loose.1 other).1, fun key h ↦ ?_⟩
  exact (evolved.fresh key id h).elim (loose.2 key) fun new ↦ other new.1

theorem Loose.of_noted {id : TableId} {before after : Catalog} (loose : before.Loose id)
    (noted : Noted before after) : after.Loose id := by
  refine ⟨((noted.recorded.sameBut 0).known id).2 loose.1, fun key h ↦ loose.2 key ?_⟩
  rwa [cached?, noted.cache] at h

theorem Loose.of_finished {id : TableId} {before after : Catalog} (loose : before.Loose id)
    {filling : Filling} {reloading : Bool} {result : Except TableError Unit}
    (finished : Finished filling reloading before after result) : after.Loose id := by
  refine ⟨(finished.frame.known id).2 loose.1, fun key h ↦ loose.2 key ?_⟩
  rwa [finished.others] at h

namespace Indexed

variable {catalog before after : Catalog}

theorem of_noted (indexed : Indexed before) (noted : Noted before after) : Indexed after where
  bounded id h := by
    rw [(noted.recorded.sameBut 0).next]
    exact indexed.bounded id (((noted.recorded.sameBut 0).known id).1 h)
  known key id h := by
    rw [cached?, noted.cache] at h
    exact ((noted.recorded.sameBut 0).known id).2 (indexed.known key id h)
  distinct key other id h h' := by
    rw [cached?, noted.cache] at h h'
    exact indexed.distinct key other id h h'

theorem of_finished {filling : Filling} {reloading : Bool} {result : Except TableError Unit}
    (indexed : Indexed before) (finished : Finished filling reloading before after result) :
    Indexed after where
  bounded id h := by
    rw [finished.frame.next]
    exact indexed.bounded id ((finished.frame.known id).1 h)
  known key id h := by
    rw [finished.others] at h
    exact (finished.frame.known id).2 (indexed.known key id h)
  distinct key other id h h' := by
    rw [finished.others] at h h'
    exact indexed.distinct key other id h h'

theorem adding (indexed : Indexed catalog) (name : String) : Indexed (catalog.adding name) where
  bounded _ h := Library.lt_nextTable_adding indexed.bounded h
  known key id h := Library.mem_adding.2 (.inr (indexed.known key id h))
  distinct := indexed.distinct

theorem loose_adding (indexed : Indexed catalog) (name : String) :
    (catalog.adding name).Loose catalog.library.nextTable :=
  ⟨Library.mem_adding.2 (.inl rfl),
    fun key h ↦ Nat.lt_irrefl _ (indexed.bounded _ (indexed.known key _ h))⟩

theorem keeping (indexed : Indexed catalog) {id : TableId} (loose : catalog.Loose id)
    (key : TableKey) : Indexed (catalog.keeping key id) where
  bounded := indexed.bounded
  known other number h := by
    rcases of_cached?_keeping h with ⟨-, rfl⟩ | h
    · exact loose.1
    · exact indexed.known other number h
  distinct _ _ _ h h' := distinct_keeping _ loose.2 indexed.distinct h h'

theorem dropping (indexed : Indexed catalog) {id : TableId} (loose : catalog.Loose id) :
    Indexed (catalog.dropping id) where
  bounded number h := indexed.bounded number (Library.mem_dropping.1 h).2
  known key number h := by
    refine Library.mem_dropping.2 ⟨?_, indexed.known key number h⟩
    rintro rfl
    exact loose.2 key h
  distinct := indexed.distinct

end Indexed

/-! ## Frames -/

def Frame.newTable? : Frame → Option TableId
  | fresh filling => some filling.id
  | stale _ => none
  | all _ _ _ => none

/-- What an operation that waits takes for granted. -/
def Frame.Fits (catalog : Catalog) : Frame → Prop
  | fresh filling => catalog.Loose filling.id
  | stale filling => catalog.cached? filling.key = some filling.id
  | all filling rest _ => catalog.cached? filling.key = some filling.id ∧
      ∀ pair ∈ rest, catalog.cached? pair.1 = some pair.2

section

variable {catalog before after : Catalog} {frame : Frame} {touched : TableId} {owner : TableKey}

theorem Frame.Fits.known (fits : frame.Fits catalog) (indexed : Indexed catalog) :
    frame.filling.id ∈ catalog.library.tables := by
  cases frame with
  | fresh filling => exact fits.1
  | stale filling => exact indexed.known _ _ fits
  | all filling rest report => exact indexed.known _ _ fits.1

theorem Frame.Fits.evolved (fits : frame.Fits before)
    (evolved : Evolved touched owner before after) (other : frame.newTable? ≠ some touched) :
    frame.Fits after := by
  cases frame with
  | fresh filling => exact Loose.evolved fits evolved fun same ↦ other (congrArg some same)
  | stale filling => exact evolved.cached _ _ fits
  | all filling rest report =>
    exact ⟨evolved.cached _ _ fits.1, fun pair h ↦ evolved.cached _ _ (fits.2 pair h)⟩

/-- The new tables of other operations are not the one that an operation fills. -/
theorem Frame.Fits.newTable?_ne {other : Frame} (fits : frame.Fits catalog)
    (others : other.Fits catalog)
    (apart : ∀ id, frame.newTable? = some id → other.newTable? ≠ some id) :
    other.newTable? ≠ some frame.filling.id := by
  cases other with
  | stale filling => exact nofun
  | all filling rest report => exact nofun
  | fresh filling =>
    cases frame with
    | fresh mine => exact apart mine.id rfl
    | stale mine =>
      intro same
      exact others.2 mine.key (by rw [Option.some.inj same]; exact fits)
    | all mine rest report =>
      intro same
      exact others.2 mine.key (by rw [Option.some.inj same]; exact fits.1)

theorem noted_beginRefresh (key : TableKey) (id : TableId) (target : String)
    (optional force : Bool) (catalog : Catalog) :
    Noted catalog ((beginRefresh key id target optional force).run catalog).2 := by
  cases current : !force && catalog.isCurrent id target with
  | true =>
    rw [beginRefresh_run_of_current current]
    exact noted_journaling catalog .leave
  | false =>
    rw [beginRefresh_run_of_stale current]
    exact catalog.noted_openedAgain key target

theorem noted_beginEach (target : String) (tables : List (TableKey × TableId))
    (report : ReloadReport) (catalog : Catalog) :
    Noted catalog ((beginEach target tables report).run catalog).2 := by
  cases tables with
  | nil => exact noted_log _ catalog
  | cons pair rest => exact catalog.noted_openedAgain pair.1 target

/-- A new table that was filled is kept, or dropped if it lost or could not be filled. -/
theorem Loose.resume_fresh {filling : Filling} (fresh : catalog.Loose filling.id)
    (indexed : Indexed catalog) :
    Evolved filling.id filling.key catalog ((Frame.fresh filling).resume.run catalog).2 ∧
      Indexed ((Frame.fresh filling).resume.run catalog).2 := by
  have finished := finished_run filling false fresh.1
  have filled := Evolved.of_finished finished
  have indexed' := indexed.of_finished finished
  have loose := Loose.of_finished fresh finished
  cases result : ((filling.finish false).run catalog).1 with
  | error error =>
    rw [resume_fresh_of_error result]
    have dropped := Evolved.dropping ((filling.finish false).run catalog).2 filling.id filling.key
    have leaving := noted_journaling
      (((filling.finish false).run catalog).2.dropping filling.id) .leave
    exact ⟨filled.trans (dropped.trans (.of_noted leaving _ _)),
      (indexed'.dropping loose).of_noted leaving⟩
  | ok _ =>
    cases kept : ((filling.finish false).run catalog).2.cached? filling.key with
    | none =>
      rw [resume_fresh_of_kept result kept]
      have leaving := noted_journaling
        (((filling.finish false).run catalog).2.keeping filling.key filling.id) .leave
      exact ⟨filled.trans ((Evolved.keeping kept filling.id).trans (.of_noted leaving _ _)),
        (indexed'.keeping loose filling.key).of_noted leaving⟩
    | some winner =>
      rw [resume_fresh_of_lost result kept]
      have losing := noted_journaling ((filling.finish false).run catalog).2
        (·.log (.duplicateDiscarded filling.key.text))
      have dropped := Evolved.dropping (((filling.finish false).run catalog).2.journaling
        (·.log (.duplicateDiscarded filling.key.text))) filling.id filling.key
      have going := noted_beginRefresh filling.key winner filling.target filling.optional false
        ((((filling.finish false).run catalog).2.journaling
          (·.log (.duplicateDiscarded filling.key.text))).dropping filling.id)
      exact ⟨((filled.trans (.of_noted losing _ _)).trans dropped).trans (.of_noted going _ _),
        ((indexed'.of_noted losing).dropping (loose.of_noted losing)).of_noted going⟩

/-- Resuming an operation concerns the table that it waits to fill. -/
theorem Frame.Fits.resume (fits : frame.Fits catalog) (indexed : Indexed catalog) :
    Evolved frame.filling.id frame.filling.key catalog (frame.resume.run catalog).2 ∧
      Indexed (frame.resume.run catalog).2 := by
  have known := fits.known indexed
  cases frame with
  | fresh filling => exact fits.resume_fresh indexed
  | stale filling =>
    have finished := finished_run filling true known
    rw [resume_stale_run]
    have leaving := noted_journaling ((filling.finish true).run catalog).2 .leave
    exact ⟨(Evolved.of_finished finished).trans (.of_noted leaving _ _),
      (indexed.of_finished finished).of_noted leaving⟩
  | all filling rest report =>
    have finished := finished_run filling true known
    rw [resume_all_run]
    have going := (noted_report filling report catalog).trans (noted_beginEach filling.target rest
      ((filling.report report).run catalog).1 _)
    exact ⟨(Evolved.of_finished finished).trans (.of_noted going _ _),
      (indexed.of_finished finished).of_noted going⟩

/-! ## Operations that have just begun or gone on -/

def Progress.Fits (catalog : Catalog) : Progress → Prop
  | waiting frame => frame.Fits catalog
  | answered _ _ => True
  | reported _ => True

def Progress.newTable? : Progress → Option TableId
  | waiting frame => frame.newTable?
  | answered _ _ => none
  | reported _ => none

/-- A refresh of a kept table fits where it waits. -/
theorem fits_beginRefresh {key : TableKey} {id : TableId} (h : catalog.cached? key = some id)
    (target : String) (optional force : Bool) :
    ((beginRefresh key id target optional force).run catalog).1.Fits
        ((beginRefresh key id target optional force).run catalog).2 ∧
      ((beginRefresh key id target optional force).run catalog).1.newTable? = none := by
  cases current : !force && catalog.isCurrent id target with
  | true =>
    rw [beginRefresh_run_of_current current]
    exact ⟨trivial, rfl⟩
  | false =>
    rw [beginRefresh_run_of_stale current]
    have opening := Evolved.of_noted (catalog.noted_openedAgain key target) id key
    exact ⟨opening.cached key id h, rfl⟩

theorem fits_beginEach {tables : List (TableKey × TableId)}
    (h : ∀ pair ∈ tables, catalog.cached? pair.1 = some pair.2) (target : String)
    (report : ReloadReport) :
    ((beginEach target tables report).run catalog).1.Fits
        ((beginEach target tables report).run catalog).2 ∧
      ((beginEach target tables report).run catalog).1.newTable? = none := by
  cases tables with
  | nil => exact ⟨trivial, rfl⟩
  | cons pair rest =>
    have opening := Evolved.of_noted (catalog.noted_openedAgain pair.1 target) pair.2 pair.1
    refine ⟨⟨opening.cached _ _ (h pair List.mem_cons_self), fun other hother ↦ ?_⟩, rfl⟩
    exact opening.cached _ _ (h other (List.mem_cons_of_mem pair hother))

/-- An operation that goes on fits where it waits next, and has no new table left to fill. -/
theorem Frame.Fits.fits_resume (fits : frame.Fits catalog) (indexed : Indexed catalog) :
    (frame.resume.run catalog).1.Fits (frame.resume.run catalog).2 ∧
      (frame.resume.run catalog).1.newTable? = none := by
  have known := fits.known indexed
  cases frame with
  | stale filling => exact ⟨trivial, rfl⟩
  | all filling rest report =>
    have filled := Evolved.of_finished (finished_run filling true known)
    have reporting := Evolved.of_noted (noted_report filling report catalog) filling.id
      filling.key
    rw [resume_all_run]
    exact fits_beginEach (fun pair h ↦ reporting.cached _ _ (filled.cached _ _ (fits.2 pair h))) _ _
  | fresh filling =>
    cases result : ((filling.finish false).run catalog).1 with
    | error error =>
      rw [resume_fresh_of_error result]
      exact ⟨trivial, rfl⟩
    | ok _ =>
      cases kept : ((filling.finish false).run catalog).2.cached? filling.key with
      | none =>
        rw [resume_fresh_of_kept result kept]
        exact ⟨trivial, rfl⟩
      | some winner =>
        have kept' : ((((filling.finish false).run catalog).2.journaling
          (·.log (.duplicateDiscarded filling.key.text))).dropping filling.id).cached?
            filling.key = some winner := by simpa using kept
        rw [resume_fresh_of_lost result kept]
        exact fits_beginRefresh kept' filling.target filling.optional false

/-- Beginning a load concerns the next table if none is kept for the key, and no table otherwise. -/
theorem beginLoad_spec (indexed : Indexed catalog) (key : TableKey) (optional force : Bool) :
    Evolved catalog.library.nextTable key catalog ((beginLoad key optional force).run catalog).2 ∧
      Indexed ((beginLoad key optional force).run catalog).2 ∧
      ((beginLoad key optional force).run catalog).1.Fits
        ((beginLoad key optional force).run catalog).2 ∧
      ∀ id, ((beginLoad key optional force).run catalog).1.newTable? = some id →
        id = catalog.library.nextTable := by
  have entering := noted_journaling catalog .enter
  cases h : catalog.cached? key with
  | none =>
    rw [beginLoad_run_of_absent h]
    have opening := noted_openedNew (catalog.journaling .enter) key catalog.locale
    have adding := Evolved.adding (catalog.journaling .enter) key.text key
    have indexed' := indexed.of_noted entering
    refine ⟨((Evolved.of_noted entering _ _).trans adding).trans (.of_noted opening _ _),
      (indexed'.adding key.text).of_noted opening,
      (indexed'.loose_adding key.text).of_noted opening, fun id new ↦ ?_⟩
    exact (Option.some.inj new).symm
  | some id =>
    have kept : (catalog.journaling .enter).cached? key = some id := h
    rw [beginLoad_run_of_cached h]
    have going := entering.trans
      (noted_beginRefresh key id catalog.locale optional force (catalog.journaling .enter))
    obtain ⟨fits, old⟩ := fits_beginRefresh kept catalog.locale optional force
    exact ⟨.of_noted going _ _, indexed.of_noted going, fits, fun number new ↦ by
      rw [old] at new
      cases new⟩

/-- How an operation goes on that waits again. -/
inductive Frame.Continues (catalog : Catalog) : Frame → Frame → Prop where
  /-- A load whose new table came too late fills the one that is kept. -/
  | lost {filling : Filling} {winner : TableId}
      (kept : catalog.cached? filling.key = some winner) :
      Continues catalog (.fresh filling)
        (.stale (catalog.filling filling.key winner filling.target filling.optional))
  /-- A reload fills the next table. -/
  | next {filling : Filling} {pair : TableKey × TableId} {rest : List (TableKey × TableId)}
      {report report' : ReloadReport} :
      Continues catalog (.all filling (pair :: rest) report)
        (.all (catalog.filling pair.1 pair.2 filling.target false) rest report')

theorem beginRefresh_waiting {key : TableKey} {id : TableId} {target : String}
    {optional force : Bool}
    (h : ((beginRefresh key id target optional force).run catalog).1 = .waiting frame) :
    frame = .stale (catalog.filling key id target optional) := by
  cases current : !force && catalog.isCurrent id target with
  | true =>
    rw [beginRefresh_run_of_current current] at h
    cases h
  | false =>
    rw [beginRefresh_run_of_stale current] at h
    exact (Progress.waiting.inj h).symm

/-- If an operation waits again, it refreshes a table that is kept or goes on to the next one. -/
theorem Frame.Fits.continues {later : Frame} (fits : frame.Fits catalog) (indexed : Indexed catalog)
    (h : (frame.resume.run catalog).1 = .waiting later) : frame.Continues catalog later := by
  have known := fits.known indexed
  cases frame with
  | stale filling => cases h
  | all filling rest report =>
    rw [resume_all_run] at h
    cases rest with
    | nil => cases h
    | cons pair rest =>
      have setting := (Evolved.of_finished (finished_run filling true known)).setting.trans
        (noted_report filling report catalog).setting
      rw [beginEach_cons_run, setting.filling] at h
      rw [← Progress.waiting.inj h]
      exact .next
  | fresh filling =>
    have filled := Evolved.of_finished (finished_run filling false known)
    cases result : ((filling.finish false).run catalog).1 with
    | error error =>
      rw [resume_fresh_of_error result] at h
      cases h
    | ok _ =>
      cases kept : ((filling.finish false).run catalog).2.cached? filling.key with
      | none =>
        rw [resume_fresh_of_kept result kept] at h
        cases h
      | some winner =>
        rw [resume_fresh_of_lost result kept] at h
        have setting : SameSetting catalog ((((filling.finish false).run catalog).2.journaling
            (·.log (.duplicateDiscarded filling.key.text))).dropping filling.id) :=
          ⟨⟨filled.setting.locator, filled.setting.backing, filled.setting.broken⟩,
            filled.setting.locale⟩
        rw [beginRefresh_waiting h, setting.filling]
        refine .lost ((filled.fresh _ _ kept).elim id fun ⟨same, _⟩ ↦ ?_)
        exact absurd kept (same ▸ (Loose.of_finished fits (finished_run filling false known)).2 _)

theorem Frame.Continues.target {later : Frame} (continues : frame.Continues catalog later) :
    later.filling.target = frame.filling.target := by
  cases continues with
  | lost kept => rfl
  | next => rfl

/-! ## Answers -/

/-- The table is kept for the key, and was filled for the locale with nothing left out. -/
def Answers (catalog : Catalog) (key : TableKey) (id : TableId) (locale : String) : Prop :=
  catalog.cached? key = some id ∧ catalog.isCurrent id locale = true

/-- A refresh that ends at once finds its table filled for the target. -/
theorem answers_beginRefresh {key owner : TableKey} {id number : TableId} {target : String}
    {optional force : Bool} (kept : catalog.cached? key = some id)
    (h : ((beginRefresh key id target optional force).run catalog).1 =
      .answered owner (.ok number)) :
    owner = key ∧ ((beginRefresh key id target optional force).run catalog).2.Answers key number
      target := by
  cases current : !force && catalog.isCurrent id target with
  | true =>
    rw [beginRefresh_run_of_current current] at h ⊢
    cases h
    exact ⟨rfl, kept, (Bool.and_eq_true_iff.1 current).2⟩
  | false =>
    rw [beginRefresh_run_of_stale current] at h
    cases h

/-- A load that is answered when it begins found its table kept and filled for the locale. -/
theorem answers_beginLoad {key owner : TableKey} {number : TableId} {optional force : Bool}
    (h : ((beginLoad key optional force).run catalog).1 = .answered owner (.ok number)) :
    ((beginLoad key optional force).run catalog).2.Answers owner number catalog.locale := by
  cases kept : catalog.cached? key with
  | none =>
    rw [beginLoad_run_of_absent kept] at h
    cases h
  | some id =>
    have kept' : (catalog.journaling .enter).cached? key = some id := kept
    rw [beginLoad_run_of_cached kept] at h ⊢
    obtain ⟨rfl, answers⟩ := answers_beginRefresh kept' h
    exact answers

/-- A load that is answered when it goes on leaves its table filled for its locale. -/
theorem Frame.Fits.answers {key : TableKey} {id : TableId} (fits : frame.Fits catalog)
    (indexed : Indexed catalog)
    (h : (frame.resume.run catalog).1 = .answered key (.ok id)) :
    (frame.resume.run catalog).2.Answers key id frame.filling.target := by
  have known := fits.known indexed
  cases frame with
  | all filling rest report =>
    rw [resume_all_run] at h
    cases rest with
    | nil => cases h
    | cons pair rest => cases h
  | stale filling =>
    have finished := finished_run filling true known
    rw [resume_stale_run] at h ⊢
    dsimp only at h ⊢
    cases result : ((filling.finish true).run catalog).1 with
    | error error =>
      rw [result] at h
      cases h
    | ok _ =>
      rw [result] at h finished
      cases h
      exact ⟨(Evolved.of_finished finished).cached _ _ fits, finished.isCurrent⟩
  | fresh filling =>
    have finished := finished_run filling false known
    cases result : ((filling.finish false).run catalog).1 with
    | error error =>
      rw [resume_fresh_of_error result] at h
      cases h
    | ok _ =>
      rw [result] at finished
      cases kept : ((filling.finish false).run catalog).2.cached? filling.key with
      | none =>
        rw [resume_fresh_of_kept result kept] at h ⊢
        cases h
        exact ⟨by simp, finished.isCurrent⟩
      | some winner =>
        have kept' : ((((filling.finish false).run catalog).2.journaling
          (·.log (.duplicateDiscarded filling.key.text))).dropping filling.id).cached?
            filling.key = some winner := by simpa using kept
        rw [resume_fresh_of_lost result kept] at h ⊢
        obtain ⟨rfl, answers⟩ := answers_beginRefresh kept' h
        exact answers

end

/-! ## Well-formed machines -/

namespace Machine

/-- No two operations fill the same new table. -/
def Apart (above below : Nat × Frame) : Prop :=
  ∀ id, above.2.newTable? = some id → below.2.newTable? ≠ some id

/-- The cache is in order, and what the operations that wait take for granted holds. -/
structure WellFormed (machine : Machine) : Prop where
  indexed : Indexed machine.catalog
  fits : ∀ operation ∈ machine.suspended, operation.2.Fits machine.catalog
  apart : machine.suspended.Pairwise Apart

/-- A part of an operation touches one table. The operations below still fit if none of them is to
fill that table as a new one. -/
theorem WellFormed.advance {machine : Machine} {touched : TableId} {owner : TableKey}
    {part : CatalogM Progress} {rest : List (Nat × Frame)} (began : Nat)
    (evolved : Evolved touched owner machine.catalog (part.run machine.catalog).2)
    (indexed : Indexed (part.run machine.catalog).2)
    (fits : (part.run machine.catalog).1.Fits (part.run machine.catalog).2)
    (new : ∀ id, (part.run machine.catalog).1.newTable? = some id → id = touched)
    (others : ∀ operation ∈ rest, operation.2.Fits machine.catalog ∧
      operation.2.newTable? ≠ some touched)
    (apart : rest.Pairwise Apart) : WellFormed (machine.advance began rest part).1 := by
  have still : ∀ operation ∈ rest, operation.2.Fits (part.run machine.catalog).2 :=
    fun operation h ↦ (others operation h).1.evolved evolved (others operation h).2
  refine ⟨indexed, fun operation h ↦ ?_, Progress.pairwise_onto apart fun frame waits other h ↦ ?_⟩
  · rcases Progress.mem_onto h with ⟨waits, -⟩ | h
    · rw [waits] at fits
      exact fits
    · exact still operation h
  · intro id adds
    rw [waits] at new
    rw [new id adds]
    exact (others other h).2

theorem WellFormed.resume {machine : Machine} (formed : WellFormed machine) :
    WellFormed (machine.step .resume).1 := by
  cases waiting : machine.suspended with
  | nil => simpa [waiting] using formed
  | cons operation rest =>
    obtain ⟨began, frame⟩ := operation
    rw [step_resume waiting]
    have fits := formed.fits
    have apart := formed.apart
    rw [waiting] at fits apart
    obtain ⟨above, apart⟩ := List.pairwise_cons.1 apart
    have mine := fits _ List.mem_cons_self
    obtain ⟨evolved, indexed⟩ := mine.resume formed.indexed
    obtain ⟨fits', old⟩ := mine.fits_resume formed.indexed
    refine .advance began evolved indexed fits' (fun id new ↦ ?_) (fun other h ↦ ?_) apart
    · rw [old] at new
      cases new
    · have theirs := fits other (List.mem_cons_of_mem _ h)
      exact ⟨theirs, mine.newTable?_ne theirs (above other h)⟩

/-- No move disturbs what the operations that wait take for granted. -/
theorem WellFormed.step {machine : Machine} (formed : WellFormed machine) (move : Move) :
    WellFormed (machine.step move).1 := by
  have indexed := formed.indexed
  -- the new tables that are waited for are there, so the next table is none of them
  have old : ∀ operation ∈ machine.suspended, operation.2.Fits machine.catalog ∧
      operation.2.newTable? ≠ some machine.catalog.library.nextTable := by
    intro operation h
    refine ⟨formed.fits operation h, fun adds ↦ ?_⟩
    have fits := formed.fits operation h
    obtain ⟨began, frame⟩ := operation
    cases frame with
    | fresh filling =>
      exact Nat.ne_of_lt (indexed.bounded _ fits.1) (Option.some.inj adds)
    | stale filling => cases adds
    | all filling rest report => cases adds
  cases move with
  | setLocale locale =>
    obtain ⟨journal, run⟩ := setLocale_run locale machine.catalog
    rw [step_setLocale, run]
    exact ⟨⟨indexed.bounded, indexed.known, indexed.distinct⟩, formed.fits, formed.apart⟩
  | edit change =>
    exact ⟨⟨indexed.bounded, indexed.known, indexed.distinct⟩, formed.fits, formed.apart⟩
  | rearrange interruptions =>
    exact ⟨⟨indexed.bounded, indexed.known, indexed.distinct⟩, formed.fits, formed.apart⟩
  | load key optional force =>
    obtain ⟨evolved, indexed', fits, new⟩ := beginLoad_spec indexed key optional force
    exact .advance machine.epoch evolved indexed' fits new old formed.apart
  | reloadAll =>
    have cached : ∀ pair ∈ machine.catalog.cache.toList,
        machine.catalog.cached? pair.1 = some pair.2 :=
      fun pair h ↦ Std.TreeMap.mem_toList_iff_getElem?_eq_some.1 h
    have going := noted_beginEach machine.catalog.locale machine.catalog.cache.toList {}
      machine.catalog
    obtain ⟨fits, none_new⟩ := fits_beginEach cached machine.catalog.locale {}
    have begins := beginReloadAll_run machine.catalog
    rw [← begins] at going fits none_new
    refine .advance machine.epoch (.of_noted going _ ⟨"", ""⟩) (indexed.of_noted going) fits
      (fun id new ↦ ?_) old formed.apart
    rw [none_new] at new
    cases new
  | resume => exact formed.resume

end Machine

end Phrasebook.Catalog
