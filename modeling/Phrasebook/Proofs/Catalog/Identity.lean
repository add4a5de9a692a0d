import Phrasebook.Proofs.Catalog.Evolution

/-!
# One table for every key

A table is kept for a key exactly if some load of the key was answered with it, and it is kept for
good. The first load that finishes has its table kept; a load that comes later drops its own table and
answers with the kept one, and a load that fails drops its table as well. So no table is there that
is neither kept nor still being loaded.
-/

namespace Phrasebook.Catalog

open Phrasebook.Storage

section

variable {catalog before after : Catalog} {filling : Filling} {frame : Frame}

theorem Finished.cached? {reloading : Bool} {result : Except TableError Unit}
    (finished : Finished filling reloading before after result) (key : TableKey) :
    after.cached? key = before.cached? key := by
  rw [Catalog.cached?, Catalog.cached?, finished.others]

theorem Noted.cached? (noted : Noted before after) (key : TableKey) :
    after.cached? key = before.cached? key := by
  rw [Catalog.cached?, Catalog.cached?, noted.cache]

theorem Noted.mem_tables (noted : Noted before after) (id : TableId) :
    id ∈ after.library.tables ↔ id ∈ before.library.tables :=
  (noted.recorded.sameBut 0).known id

/-- What is kept was kept before, or the part answered with it. -/
def Progress.Keeps (before after : Catalog) (progress : Progress) : Prop :=
  ∀ key id, after.cached? key = some id →
    before.cached? key = some id ∨ progress = .answered key (.ok id)

theorem Progress.Keeps.of_cached? {progress : Progress}
    (same : ∀ key, after.cached? key = before.cached? key) : progress.Keeps before after := by
  intro key id h
  rw [same] at h
  exact .inl h

theorem keeps_beginLoad (catalog : Catalog) (key : TableKey) (optional force : Bool) :
    ((beginLoad key optional force).run catalog).1.Keeps catalog
      ((beginLoad key optional force).run catalog).2 := by
  cases kept : catalog.cached? key with
  | none =>
    rw [beginLoad_run_of_absent kept]
    exact .of_cached? fun other ↦
      (noted_openedNew (catalog.journaling .enter) key catalog.locale).cached? other
  | some id =>
    rw [beginLoad_run_of_cached kept]
    exact .of_cached? fun other ↦
      (noted_beginRefresh key id catalog.locale optional force (catalog.journaling .enter)).cached?
        other

/-! ## Loads that come to their end -/

/-- What becomes of the new table of a load: it is kept and is the answer if none was kept before, and
otherwise it is gone. -/
theorem resume_fresh_run (loose : catalog.Loose filling.id) :
    ((Frame.fresh filling).resume.run catalog).1.Keeps catalog
        ((Frame.fresh filling).resume.run catalog).2 ∧
      (filling.id ∈ ((Frame.fresh filling).resume.run catalog).2.library.tables →
        catalog.cached? filling.key = none ∧
          ((Frame.fresh filling).resume.run catalog).2.cached? filling.key = some filling.id) := by
  have finished := finished_run filling false loose.1
  cases result : ((filling.finish false).run catalog).1 with
  | error error =>
    rw [resume_fresh_of_error result]
    refine ⟨.of_cached? fun key ↦ finished.cached? key, fun there ↦ ?_⟩
    exact absurd rfl (Library.mem_dropping.1 there).1
  | ok _ =>
    cases kept : ((filling.finish false).run catalog).2.cached? filling.key with
    | none =>
      rw [resume_fresh_of_kept result kept]
      constructor
      · intro key id h
        rcases of_cached?_keeping h with ⟨rfl, rfl⟩ | h
        · exact .inr rfl
        · rw [finished.cached?] at h
          exact .inl h
      · rw [finished.cached?] at kept
        exact fun _ ↦ ⟨kept, by simp⟩
    | some winner =>
      have going := noted_beginRefresh filling.key winner filling.target filling.optional false
        ((((filling.finish false).run catalog).2.journaling
          (·.log (.duplicateDiscarded filling.key.text))).dropping filling.id)
      rw [resume_fresh_of_lost result kept]
      refine ⟨.of_cached? fun key ↦ (going.cached? key).trans (finished.cached? key), fun there ↦ ?_⟩
      exact absurd rfl (Library.mem_dropping.1 ((going.mem_tables _).1 there)).1

/-- An operation that goes on keeps a table only to answer with it. -/
theorem Frame.Fits.keeps_resume (fits : frame.Fits catalog) (indexed : Indexed catalog) :
    (frame.resume.run catalog).1.Keeps catalog (frame.resume.run catalog).2 := by
  have known := fits.known indexed
  cases frame with
  | fresh filling => exact (resume_fresh_run fits).1
  | stale filling =>
    rw [resume_stale_run]
    exact .of_cached? fun key ↦ (finished_run filling true known).cached? key
  | all filling rest report =>
    have going := (noted_report filling report catalog).trans (noted_beginEach filling.target rest
      ((filling.report report).run catalog).1 _)
    rw [resume_all_run]
    exact .of_cached? fun key ↦ (going.cached? key).trans ((finished_run filling true known).cached? key)

/-- What a part of an operation about one table, which belongs to a key, does to what is kept: it
answers with tables that are kept, nothing else is kept anew, and the table is kept, still being
loaded, or gone. -/
structure Settles (touched : TableId) (owner : TableKey) (before : Catalog) (progress : Progress)
    (after : Catalog) : Prop where
  evolved : Evolved touched owner before after
  keeps : progress.Keeps before after
  answers : ∀ key id, progress = .answered key (.ok id) → after.cached? key = some id
  settled : touched ∈ after.library.tables →
    (∃ key, after.cached? key = some touched) ∨ progress.newTable? = some touched

theorem settles_beginLoad (indexed : Indexed catalog) (key : TableKey) (optional force : Bool) :
    Settles catalog.library.nextTable key catalog ((beginLoad key optional force).run catalog).1
      ((beginLoad key optional force).run catalog).2 where
  evolved := (beginLoad_spec indexed key optional force).1
  keeps := keeps_beginLoad catalog key optional force
  answers _ _ answered := (answers_beginLoad answered).1
  settled there := by
    cases kept : catalog.cached? key with
    | none =>
      rw [beginLoad_run_of_absent kept]
      exact .inr rfl
    | some id =>
      rw [beginLoad_run_of_cached kept] at there
      have going := noted_beginRefresh key id catalog.locale optional force
        (catalog.journaling .enter)
      exact absurd (indexed.bounded _ ((going.mem_tables _).1 there)) (Nat.lt_irrefl _)

theorem settles_beginReloadAll (indexed : Indexed catalog) (owner : TableKey) :
    Settles catalog.library.nextTable owner catalog (beginReloadAll.run catalog).1
      (beginReloadAll.run catalog).2 := by
  have going := noted_beginEach catalog.locale catalog.cache.toList {} catalog
  rw [← beginReloadAll_run] at going
  refine ⟨.of_noted going _ _, .of_cached? going.cached?, fun key id answered ↦ ?_, fun there ↦ ?_⟩
  · rw [beginReloadAll_run] at answered
    cases tables : catalog.cache.toList with
    | nil =>
      rw [tables] at answered
      cases answered
    | cons pair rest =>
      rw [tables] at answered
      cases answered
  · exact absurd (indexed.bounded _ ((going.mem_tables _).1 there)) (Nat.lt_irrefl _)

theorem Frame.Fits.settles (fits : frame.Fits catalog) (indexed : Indexed catalog) :
    Settles frame.filling.id frame.filling.key catalog (frame.resume.run catalog).1
      (frame.resume.run catalog).2 where
  evolved := (fits.resume indexed).1
  keeps := fits.keeps_resume indexed
  answers _ _ answered := (fits.answers indexed answered).1
  settled there := by
    have evolved := (fits.resume indexed).1
    cases frame with
    | fresh filling => exact .inl ⟨_, ((resume_fresh_run fits).2 there).2⟩
    | stale filling => exact .inl ⟨_, evolved.cached _ _ fits⟩
    | all filling rest report => exact .inl ⟨_, evolved.cached _ _ fits.1⟩

end

/-! ## Runs -/

namespace Machine

variable {machine : Machine} {answers : List Reply}

def replies (machine : Machine) : List Move → List Reply
  | [] => []
  | move :: moves => (machine.step move).2.toList ++ (machine.step move).1.replies moves

/-- A table is kept for a key exactly if a load was answered with it, and every other table is still
being loaded. -/
structure OneEach (machine : Machine) (answers : List Reply) : Prop where
  formed : machine.WellFormed
  kept : ∀ key id, machine.catalog.cached? key = some id ↔ ∃ began, ⟨key, .ok id, began⟩ ∈ answers
  held : ∀ id, id ∈ machine.catalog.library.tables →
    (∃ key, machine.catalog.cached? key = some id) ∨
      ∃ operation ∈ machine.suspended, operation.2.newTable? = some id

theorem OneEach.advance (each : machine.OneEach answers) {touched : TableId} {owner : TableKey}
    {part : CatalogM Progress} {began : Nat} {rest : List (Nat × Frame)}
    (formed : (machine.advance began rest part).1.WellFormed)
    (settles : Settles touched owner machine.catalog (part.run machine.catalog).1
      (part.run machine.catalog).2)
    (others : ∀ operation ∈ machine.suspended, ∀ id, operation.2.newTable? = some id →
      id ≠ touched → operation ∈ rest) :
    (machine.advance began rest part).1.OneEach
      (answers ++ (machine.advance began rest part).2.toList) where
  formed := formed
  kept key id := by
    have kept := each.kept key id
    constructor
    · intro cached
      rcases settles.keeps key id cached with before | answered
      · obtain ⟨mark, mem⟩ := kept.1 before
        exact ⟨mark, List.mem_append_left _ mem⟩
      · refine ⟨began, List.mem_append_right _ ?_⟩
        simp [answered, Progress.reply?]
    · rintro ⟨mark, mem⟩
      rcases List.mem_append.1 mem with mem | mem
      · exact settles.evolved.cached key id (kept.2 ⟨mark, mem⟩)
      · have answered := (Progress.reply?_eq_some (Option.mem_toList.1 mem)).1
        exact settles.answers key id answered
  held id there := by
    by_cases same : id = touched
    · subst same
      rcases settles.settled there with kept | new
      · exact .inl kept
      · right
        rw [advance_fst_suspended]
        cases progress : (part.run machine.catalog).1 with
        | waiting frame =>
          rw [progress] at new
          exact ⟨(began, frame), List.mem_cons_self, new⟩
        | answered key result =>
          rw [progress] at new
          cases new
        | reported report =>
          rw [progress] at new
          cases new
    · have there_before := (settles.evolved.known id there).resolve_right same
      rcases each.held id there_before with ⟨key, kept⟩ | ⟨operation, waits, new⟩
      · exact .inl ⟨key, settles.evolved.cached key id kept⟩
      · exact .inr ⟨operation, Progress.mem_onto_of_mem (others operation waits id new same) _ _, new⟩

/-- No move makes a second table for a key. -/
theorem OneEach.step (each : machine.OneEach answers) (move : Move) :
    (machine.step move).1.OneEach (answers ++ (machine.step move).2.toList) := by
  have formed := each.formed.step move
  have indexed := each.formed.indexed
  cases move with
  | setLocale locale =>
    obtain ⟨journal, run⟩ := setLocale_run locale machine.catalog
    rw [step_setLocale, run] at formed ⊢
    rw [Option.toList_none, List.append_nil]
    exact ⟨formed, each.kept, each.held⟩
  | edit change =>
    rw [step_edit, Option.toList_none, List.append_nil]
    exact ⟨formed, each.kept, each.held⟩
  | rearrange interruptions =>
    rw [step_rearrange, Option.toList_none, List.append_nil]
    exact ⟨formed, each.kept, each.held⟩
  | load key optional force =>
    exact each.advance formed (settles_beginLoad indexed key optional force) fun _ h _ _ _ ↦ h
  | reloadAll =>
    exact each.advance formed (settles_beginReloadAll indexed ⟨"", ""⟩) fun _ h _ _ _ ↦ h
  | resume =>
    cases stack : machine.suspended with
    | nil =>
      simpa [stack] using each
    | cons operation rest =>
      obtain ⟨began, frame⟩ := operation
      have fits := each.formed.fits (began, frame) (by simp [stack])
      rw [step_resume stack] at formed ⊢
      refine each.advance formed (fits.settles indexed) fun other h id new apart ↦ ?_
      rw [stack] at h
      rcases List.mem_cons.1 h with rfl | h
      · cases frame with
        | fresh filling => exact absurd (Option.some.inj new).symm apart
        | stale filling => cases new
        | all filling rest report => cases new
      · exact h

/-- By induction on the moves. -/
theorem OneEach.run (each : machine.OneEach answers) (moves : List Move) :
    (machine.run moves).OneEach (answers ++ machine.replies moves) := by
  induction moves generalizing machine answers with
  | nil =>
    rw [replies, List.append_nil]
    exact each
  | cons move rest ih =>
    rw [replies, ← List.append_assoc]
    exact ih (each.step move)

theorem oneEach_new (locale : String) (locator : Locator) (store : Store) :
    OneEach { catalog := { locale := locale, locator := locator, store := store } } [] where
  formed := {
    indexed := {
      bounded := fun _ h ↦ absurd h Std.TreeMap.not_mem_emptyc
      known := fun _ _ h ↦ by cases h
      distinct := fun _ _ _ h ↦ by cases h }
    fits := nofun
    apart := .nil }
  kept _ _ := ⟨nofun, nofun⟩
  held _ h := absurd h Std.TreeMap.not_mem_emptyc

/-- Every table that is there is kept for a key or still being loaded. -/
theorem OneEach.mem_tables_iff (each : machine.OneEach answers) (id : TableId) :
    id ∈ machine.catalog.library.tables ↔
      (∃ key, machine.catalog.cached? key = some id) ∨
        ∃ operation ∈ machine.suspended, operation.2.newTable? = some id := by
  refine ⟨each.held id, ?_⟩
  rintro (⟨key, kept⟩ | ⟨⟨began, frame⟩, waits, new⟩)
  · exact each.formed.indexed.known key id kept
  · have fits := each.formed.fits _ waits
    cases frame with
    | fresh filling =>
      obtain rfl := Option.some.inj new
      exact fits.1
    | stale filling => cases new
    | all filling rest report => cases new

/-- A load that finds another table kept when it goes on drops its own. -/
theorem OneEach.loses (each : machine.OneEach answers) {began : Nat} {filling : Filling}
    {rest : List (Nat × Frame)} {winner : TableId}
    (stack : machine.suspended = (began, .fresh filling) :: rest)
    (kept : machine.catalog.cached? filling.key = some winner) :
    (machine.step .resume).1.catalog.cached? filling.key = some winner ∧
      filling.id ∉ (machine.step .resume).1.catalog.library.tables := by
  have fits := each.formed.fits (began, .fresh filling) (by simp [stack])
  rw [step_resume stack]
  refine ⟨(fits.resume each.formed.indexed).1.cached _ _ kept, fun there ↦ ?_⟩
  have absent := ((resume_fresh_run fits).2 there).1
  rw [kept] at absent
  cases absent

theorem mem_replies_of_play {move : Move} {moves : List Move} {reply : Reply}
    (h : (play (machine.step move) moves).2 = some reply) :
    reply ∈ machine.replies (move :: moves) := by
  rw [replies]
  induction moves generalizing machine move with
  | nil =>
    refine List.mem_append_left _ (Option.mem_toList.2 ?_)
    exact h
  | cons next rest ih =>
    rw [replies]
    exact List.mem_append_right _ (ih h)

/-- However loads, reloads, changes of the locale and changes of the store are nested in the openings
of each other: all loads of a key that are answered with a table are answered with the same one, which
is kept for the key from the first of these answers on and for no other key; there is no other table,
except those that are still being loaded; and a load that finds a table kept drops its own. A load of
a catalog with interruptions is such a nesting, and so is a reload. -/
theorem one_table_per_key (locale : String) (locator : Locator) (store : Store)
    (moves : List Move) :
    let start : Machine := { catalog := { locale := locale, locator := locator, store := store } }
    let now := start.run moves
    (∀ key id, now.catalog.cached? key = some id ↔
      ∃ began, ⟨key, .ok id, began⟩ ∈ start.replies moves) ∧
    (∀ key other id, now.catalog.cached? key = some id → now.catalog.cached? other = some id →
      key = other) ∧
    (∀ id, id ∈ now.catalog.library.tables ↔ (∃ key, now.catalog.cached? key = some id) ∨
      ∃ operation ∈ now.suspended, operation.2.newTable? = some id) ∧
    (∀ began filling rest winner, now.suspended = (began, .fresh filling) :: rest →
      now.catalog.cached? filling.key = some winner →
        (now.step .resume).1.catalog.cached? filling.key = some winner ∧
          filling.id ∉ (now.step .resume).1.catalog.library.tables) ∧
    (∀ key optional force, ∃ more,
      (now.run (.load key optional force :: more)).catalog =
        ((load key optional force).run now.catalog).2 ∧
      (now.run (.load key optional force :: more)).suspended = now.suspended ∧
      ⟨key, ((load key optional force).run now.catalog).1, now.epoch⟩ ∈
        now.replies (.load key optional force :: more)) ∧
    ∃ more, (now.run (.reloadAll :: more)).catalog = (reloadAll.run now.catalog).2 ∧
      (now.run (.reloadAll :: more)).suspended = now.suspended := by
  intro start now
  have each : now.OneEach (start.replies moves) :=
    (oneEach_new locale locator store).run moves
  refine ⟨each.kept, each.formed.indexed.distinct, each.mem_tables_iff,
    fun began filling rest winner stack kept ↦ each.loses stack kept,
    fun key optional force ↦ ?_, ?_⟩
  · obtain ⟨more, catalog, waiting, reply⟩ := load_is_played now key optional force
    have answered := mem_replies_of_play reply
    rw [play_run] at catalog waiting
    exact ⟨more, catalog, waiting, answered⟩
  · obtain ⟨more, catalog, waiting, -⟩ := reloadAll_is_played now
    rw [play_run] at catalog waiting
    exact ⟨more, catalog, waiting⟩

/-- Two loads of one key at the same time, of which the later one is faster, and a load of a key
without a resource. -/
theorem one_table_per_key_race :
    let store := Store.inMemory.put "hi_en.xml" (Text.Utf8.encode "<StringTable></StringTable>")
    let start : Machine := { catalog := { locale := "en", store := store } }
    let moves : List Move := [.load ⟨"", "hi"⟩ false false, .load ⟨"", "hi"⟩ true false, .resume,
      .load ⟨"", "bye"⟩ false false, .resume, .resume]
    start.replies moves = [⟨⟨"", "hi"⟩, .ok 1, 0⟩, ⟨⟨"", "bye"⟩, .error (.notFound "bye_en.xml"), 0⟩,
        ⟨⟨"", "hi"⟩, .ok 1, 0⟩] ∧
      (start.run moves).catalog.cached? ⟨"", "hi"⟩ = some 1 ∧
      ∀ id, (start.run moves).catalog.cached? ⟨"", "bye"⟩ ≠ some id := by
  intro store start moves
  have answers : start.replies moves = [⟨⟨"", "hi"⟩, .ok 1, 0⟩,
      ⟨⟨"", "bye"⟩, .error (.notFound "bye_en.xml"), 0⟩, ⟨⟨"", "hi"⟩, .ok 1, 0⟩] := by
    decide +kernel
  have kept := (one_table_per_key "en" {} store moves).1
  rw [answers] at kept
  refine ⟨answers, (kept _ _).2 ⟨0, List.mem_cons_self⟩, fun id cached ↦ ?_⟩
  obtain ⟨began, mem⟩ := (kept _ _).1 cached
  simp at mem

end Machine

end Phrasebook.Catalog
