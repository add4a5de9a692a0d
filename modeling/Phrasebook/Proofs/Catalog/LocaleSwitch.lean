import Mathlib.Algebra.GroupWithZero.Nat
import Phrasebook.Proofs.Catalog.Orderly

/-!
# Changes of the locale

An operation fills its tables for the locale that was current when it began, even if the locale
changes while it waits for an opening. A table that was asked for after the change and given out for
the new locale therefore stays with it exactly if no operation that waits is still to fill the table
for another locale: whatever begins later fills it for the new one, and whatever waits goes on at
some point.
-/

namespace Phrasebook.Catalog

open Phrasebook.Storage

/-- The locale that a table was last filled for. -/
def recorded (catalog : Catalog) (id : TableId) : Option String :=
  (catalog.library.table id).status.locale

section

variable {start catalog before after : Catalog} {keys : List TableKey} {locales : List String}
  {filling : Filling} {frame later : Frame} {key : TableKey} {id : TableId}

theorem Noted.recorded_eq (noted : Noted before after) (id : TableId) :
    after.recorded id = before.recorded id := by
  rw [Catalog.recorded, Catalog.recorded, noted.recorded.table]

theorem Finished.recorded_eq {reloading : Bool} {result : Except TableError Unit}
    (finished : Finished filling reloading before after result) :
    after.recorded filling.id = before.recorded filling.id ∨
      after.recorded filling.id = some filling.target := by
  rcases finished.outcome.kept_or_filled with same | ⟨-, filled⟩
  · exact .inl (congrArg (·.status.locale) same)
  · exact .inr filled.target

/-! ## Operations that fill a table -/

/-- Resuming an operation leaves the locale of a kept table, or sets it to the operation's. -/
theorem Frame.Fits.recorded_resume (fits : frame.Fits catalog) (indexed : Indexed catalog)
    (kept : catalog.cached? key = some id) :
    (frame.resume.run catalog).2.recorded id = catalog.recorded id ∨
      key ∈ frame.keys ∧ (frame.resume.run catalog).2.recorded id = some frame.filling.target := by
  by_cases same : id = frame.filling.id
  · have known := fits.known indexed
    cases frame with
    | fresh filling => exact absurd kept (same ▸ fits.2 key)
    | stale filling =>
      obtain rfl := indexed.distinct key filling.key id kept (same ▸ fits)
      obtain rfl : id = filling.id := same
      have leaving := noted_journaling ((filling.finish true).run catalog).2 .leave
      rw [resume_stale_run, leaving.recorded_eq]
      exact (finished_run filling true known).recorded_eq.imp_right
        fun filled ↦ ⟨List.mem_cons_self, filled⟩
    | all filling rest report =>
      obtain rfl := indexed.distinct key filling.key id kept (same ▸ fits.1)
      obtain rfl : id = filling.id := same
      have going := (noted_report filling report catalog).trans
        (noted_beginEach filling.target rest ((filling.report report).run catalog).1 _)
      rw [resume_all_run, going.recorded_eq]
      exact (finished_run filling true known).recorded_eq.imp_right
        fun filled ↦ ⟨List.mem_cons_self, filled⟩
  · obtain ⟨evolved, -⟩ := fits.resume indexed
    exact .inl (congrArg (·.status.locale) (evolved.kept id (indexed.known key id kept) same).2)

/-- A clean document is taken in, and the table says for which locale. -/
theorem Finished.of_within {reloading : Bool} {result : Except TableError Unit}
    (finished : Finished filling reloading before after result)
    (within : filling.Within start keys locales) (store : SameStore start before)
    (serves : ∀ key ∈ keys, ∀ locale ∈ locales, start.Serves key locale) :
    result = .ok () ∧ after.recorded filling.id = some filling.target := by
  obtain ⟨found, hkey, htarget⟩ := within
  obtain ⟨entries, contents, clean⟩ := serves _ hkey _ htarget
  have location : filling.location = start.locate filling.key filling.target := by rw [found]; rfl
  have opened : filling.opened = start.found filling.location := by rw [location, found]; rfl
  have outcome := finished.outcome
  rw [opened, store.contentNow, location, contents] at outcome
  obtain ⟨ok, filled, -⟩ := outcome.of_clean clean
  exact ⟨ok, filled⟩

/-- An operation that goes on fills the table of a key, or waits again and is still to fill it. -/
theorem Frame.Fits.fills_or_waits (fits : frame.Fits catalog) (indexed : Indexed catalog)
    (within : frame.filling.Within start keys locales) (store : SameStore start catalog)
    (serves : ∀ key ∈ keys, ∀ locale ∈ locales, start.Serves key locale)
    (hkey : key ∈ frame.keys) (kept : catalog.cached? key = some id) :
    (frame.resume.run catalog).2.recorded id = some frame.filling.target ∨
      ∃ later, (frame.resume.run catalog).1 = .waiting later ∧ key ∈ later.keys := by
  have known := fits.known indexed
  cases frame with
  | stale filling =>
    obtain rfl := List.mem_singleton.1 hkey
    obtain rfl := Option.some.inj (kept.symm.trans fits)
    have leaving := noted_journaling ((filling.finish true).run catalog).2 .leave
    rw [resume_stale_run, leaving.recorded_eq]
    exact .inl ((finished_run filling true known).of_within within store serves).2
  | all filling rest report =>
    rcases List.mem_cons.1 hkey with rfl | hkey
    · obtain rfl := Option.some.inj (kept.symm.trans fits.1)
      have going := (noted_report filling report catalog).trans
        (noted_beginEach filling.target rest ((filling.report report).run catalog).1 _)
      rw [resume_all_run, going.recorded_eq]
      exact .inl ((finished_run filling true known).of_within within store serves).2
    · rw [resume_all_run]
      cases rest with
      | nil => cases hkey
      | cons pair rest => exact .inr ⟨_, rfl, hkey⟩
  | fresh filling =>
    obtain rfl := List.mem_singleton.1 hkey
    have finished := finished_run filling false known
    obtain ⟨ok, -⟩ := finished.of_within within store serves
    have kept' := (Evolved.of_finished finished).cached _ _ kept
    rw [resume_fresh_of_lost ok kept']
    cases current : !false && ((((filling.finish false).run catalog).2.journaling
        (·.log (.duplicateDiscarded filling.key.text))).dropping filling.id).isCurrent id
          filling.target with
    | true =>
      rw [beginRefresh_run_of_current current]
      exact .inl (isCurrent_iff.1 (Bool.and_eq_true_iff.1 current).2).2
    | false =>
      rw [beginRefresh_run_of_stale current]
      exact .inr ⟨_, rfl, List.mem_cons_self⟩

/-- A bound for how often an operation goes on. -/
def Frame.rank : Frame → Nat
  | fresh _ => 2
  | stale _ => 1
  | all _ rest _ => rest.length + 1

theorem Frame.rank_pos (frame : Frame) : 0 < frame.rank := by
  cases frame with
  | fresh filling => exact Nat.two_pos
  | stale filling => exact Nat.one_pos
  | all filling rest report => exact Nat.succ_pos _

theorem Frame.Continues.rank_lt (continues : frame.Continues catalog later) :
    later.rank < frame.rank := by
  cases continues with
  | lost kept => exact Nat.one_lt_two
  | next => exact Nat.lt_succ_self _

namespace Machine

variable {machine : Machine} {move : Move} {moves : List Move} {locale : String}

/-! ## Operations that wait go on -/

/-- How often operations go on at most. -/
def remaining (operations : List (Nat × Frame)) : Nat :=
  (operations.map fun operation ↦ operation.2.rank).sum

theorem remaining_cons (operation : Nat × Frame) (rest : List (Nat × Frame)) :
    remaining (operation :: rest) = operation.2.rank + remaining rest := by
  rw [remaining, List.map_cons, List.sum_cons, remaining]

theorem WellFormed.resume_evolved (formed : machine.WellFormed) :
    ∃ touched owner, Evolved touched owner machine.catalog (machine.step .resume).1.catalog := by
  cases stack : machine.suspended with
  | nil => exact ⟨0, ⟨"", ""⟩, by simpa [stack] using .of_noted (.refl _) _ _⟩
  | cons operation rest =>
    have top : operation ∈ machine.suspended := by simp [stack]
    rw [step_resume stack]
    exact ⟨_, _, ((formed.fits operation top).resume formed.indexed).1⟩

/-- When the innermost operation goes on, an operation fills the table of a key or is still to fill
it, and less remains to be done before. -/
theorem Scoped.fills_or_waits (held : machine.Scoped start keys locales)
    (serves : ∀ key ∈ keys, ∀ locale ∈ locales, start.Serves key locale)
    {above below : List (Nat × Frame)} {operation : Nat × Frame}
    (stack : machine.suspended = above ++ operation :: below) (hkey : key ∈ operation.2.keys)
    (kept : machine.catalog.cached? key = some id) :
    (machine.step .resume).1.catalog.recorded id = some operation.2.filling.target ∨
      ∃ above' operation', (machine.step .resume).1.suspended = above' ++ operation' :: below ∧
        key ∈ operation'.2.keys ∧
        operation'.2.filling.target = operation.2.filling.target ∧
        remaining (above' ++ [operation']) < remaining (above ++ [operation]) := by
  have formed := held.formed
  cases above with
  | nil =>
    obtain ⟨began, frame⟩ := operation
    have top : (began, frame) ∈ machine.suspended := by simp [stack]
    have fits := formed.fits _ top
    rw [step_resume stack]
    rcases fits.fills_or_waits formed.indexed (held.fillings _ top) held.store serves hkey kept with
      filled | ⟨later, waits, hkey'⟩
    · exact .inl filled
    · have continues := fits.continues formed.indexed waits
      refine .inr ⟨[], (began, later), ?_, hkey', continues.target, ?_⟩
      · simp [waits, Progress.onto]
      · rw [List.nil_append, List.nil_append, remaining_cons, remaining_cons]
        exact Nat.add_lt_add_right continues.rank_lt _
  | cons other above =>
    obtain ⟨began, frame⟩ := other
    have top : (began, frame) ∈ machine.suspended := by simp [stack]
    rw [step_resume stack, Machine.advance]
    cases progress : (frame.resume.run machine.catalog).1 with
    | waiting later =>
      have continues := (formed.fits _ top).continues formed.indexed progress
      refine .inr ⟨(began, later) :: above, operation, rfl, hkey, rfl, ?_⟩
      rw [List.cons_append, List.cons_append, remaining_cons, remaining_cons]
      exact Nat.add_lt_add_right continues.rank_lt _
    | _ =>
      refine .inr ⟨above, operation, rfl, hkey, rfl, ?_⟩
      rw [List.cons_append, remaining_cons]
      exact Nat.lt_add_of_pos_left frame.rank_pos

/-- An operation that waits fills the tables that it has still to fill, if only it and the
operations above it go on. The induction is on what remains to be done. -/
theorem Scoped.filled (held : machine.Scoped start keys locales)
    (serves : ∀ key ∈ keys, ∀ locale ∈ locales, start.Serves key locale)
    {above below : List (Nat × Frame)} {operation : Nat × Frame}
    (stack : machine.suspended = above ++ operation :: below) (hkey : key ∈ operation.2.keys)
    (kept : machine.catalog.cached? key = some id) :
    ∃ count, (machine.run (List.replicate count .resume)).catalog.recorded id =
        some operation.2.filling.target ∧
      (machine.run (List.replicate count .resume)).catalog.locale = machine.catalog.locale := by
  generalize left : remaining (above ++ [operation]) = total
  induction total using Nat.strongRecOn generalizing machine above operation with
  | ind total ih =>
    obtain ⟨touched, owner, evolved⟩ := held.formed.resume_evolved
    rcases held.fills_or_waits serves stack hkey kept with
      filled | ⟨above', operation', stack', hkey', target, less⟩
    · exact ⟨1, filled, evolved.setting.locale⟩
    · obtain ⟨count, filled, same⟩ := ih _ (left ▸ less) held.resume stack' hkey'
        (evolved.cached key id kept) rfl
      refine ⟨count + 1, ?_, ?_⟩
      · rw [List.replicate_succ, run_cons, filled, target]
      · rw [List.replicate_succ, run_cons, same, evolved.setting.locale]

/-! ## Tables that keep to the locale -/

/-- The table is kept for the key and was filled for the locale, and whatever waits fills it for no
other one. -/
structure Settled (key : TableKey) (id : TableId) (locale : String) (machine : Machine) : Prop where
  formed : machine.WellFormed
  current : machine.catalog.locale = locale
  cached : machine.catalog.cached? key = some id
  recorded : machine.catalog.recorded id = some locale
  pending : ∀ operation ∈ machine.suspended, key ∈ operation.2.keys →
    operation.2.filling.target = locale

theorem Settled.advance {touched : TableId} {owner : TableKey} {began : Nat}
    {rest : List (Nat × Frame)} {part : CatalogM Progress} (settled : machine.Settled key id locale)
    (formed : (machine.advance began rest part).1.WellFormed)
    (evolved : Evolved touched owner machine.catalog (part.run machine.catalog).2)
    (recorded : (part.run machine.catalog).2.recorded id = some locale)
    (below : ∀ operation ∈ rest, operation ∈ machine.suspended)
    (new : ∀ frame, (part.run machine.catalog).1 = .waiting frame → key ∈ frame.keys →
      frame.filling.target = locale) :
    (machine.advance began rest part).1.Settled key id locale where
  formed := formed
  current := evolved.setting.locale.trans settled.current
  cached := evolved.cached key id settled.cached
  recorded := recorded
  pending operation h hkey := by
    rcases Progress.mem_onto h with ⟨waits, -⟩ | h
    · exact new operation.2 waits hkey
    · exact settled.pending operation (below operation h) hkey

/-- Nothing that waits fills a settled table for another locale. -/
theorem Settled.resume (settled : machine.Settled key id locale) :
    (machine.step .resume).1.Settled key id locale := by
  have formed := settled.formed.resume
  cases stack : machine.suspended with
  | nil =>
    simpa [stack] using settled
  | cons operation rest =>
    obtain ⟨began, frame⟩ := operation
    have top : (began, frame) ∈ machine.suspended := by simp [stack]
    have fits := settled.formed.fits _ top
    have indexed := settled.formed.indexed
    obtain ⟨evolved, -⟩ := fits.resume indexed
    rw [step_resume stack] at formed ⊢
    refine settled.advance formed evolved ?_ (fun other h ↦ ?_) fun later waits hkey ↦ ?_
    · rcases fits.recorded_resume indexed settled.cached with same | ⟨hkey, filled⟩
      · rw [same, settled.recorded]
      · rw [filled, settled.pending _ top hkey]
    · rw [stack]
      exact List.mem_cons_of_mem _ h
    · have continues := fits.continues indexed waits
      rw [continues.target]
      exact settled.pending _ top (continues.keys hkey)

/-- A settled table stays so through every move but a change of the locale. -/
theorem Settled.step (settled : machine.Settled key id locale)
    (steady : ∀ other, move ≠ .setLocale other) :
    (machine.step move).1.Settled key id locale := by
  have formed := settled.formed.step move
  cases move with
  | setLocale other => exact absurd rfl (steady other)
  | edit change =>
    exact ⟨formed, settled.current, settled.cached, settled.recorded, settled.pending⟩
  | rearrange interruptions =>
    exact ⟨formed, settled.current, settled.cached, settled.recorded, settled.pending⟩
  | load other optional force =>
    have indexed := settled.formed.indexed
    have known := indexed.known key id settled.cached
    obtain ⟨evolved, -⟩ := beginLoad_spec indexed other optional force
    have same := (evolved.kept id known (Nat.ne_of_lt (indexed.bounded id known))).2
    refine settled.advance formed evolved ?_ (fun _ h ↦ h) fun frame waits _ ↦ ?_
    · rw [← settled.recorded, Catalog.recorded, Catalog.recorded, same]
    · obtain ⟨number, filling⟩ := beginLoad_waiting waits
      rw [filling]
      exact settled.current
  | reloadAll =>
    have going := noted_beginEach machine.catalog.locale machine.catalog.cache.toList {}
      machine.catalog
    rw [← beginReloadAll_run] at going
    refine settled.advance formed (.of_noted going id key) ?_ (fun _ h ↦ h) fun frame waits _ ↦ ?_
    · rw [going.recorded_eq, settled.recorded]
    · obtain ⟨other, number, -, filling⟩ := beginReloadAll_waiting waits
      rw [filling]
      exact settled.current
  | resume => exact settled.resume

/-- A table keeps to the locale until the locale changes, by induction on the moves. -/
theorem Settled.run (settled : machine.Settled key id locale)
    (steady : ∀ other, .setLocale other ∉ moves) : (machine.run moves).Settled key id locale := by
  induction moves generalizing machine with
  | nil => exact settled
  | cons move rest ih =>
    refine ih (settled.step fun other same ↦ steady other ?_) fun other h ↦
      steady other (List.mem_cons_of_mem move h)
    rw [same]
    exact List.mem_cons_self

/-- A load that began after the last change of the locale answers with a table that was filled for
the current one. -/
theorem Scoped.answers (held : machine.Scoped start keys locales)
    (answered : (machine.step move).2 = some ⟨key, .ok id, machine.epoch⟩) :
    (machine.step move).1.catalog.Answers key id (machine.step move).1.catalog.locale := by
  cases move with
  | setLocale locale => cases answered
  | edit change => cases answered
  | rearrange interruptions => cases answered
  | reloadAll =>
    obtain ⟨answered, -⟩ := Progress.reply?_eq_some answered
    rw [beginReloadAll_run] at answered
    cases tables : machine.catalog.cache.toList with
    | nil =>
      rw [tables] at answered
      cases answered
    | cons pair rest =>
      rw [tables] at answered
      cases answered
  | load other optional force =>
    obtain ⟨evolved, -⟩ := beginLoad_spec held.formed.indexed other optional force
    obtain ⟨answered, -⟩ := Progress.reply?_eq_some answered
    have answers := answers_beginLoad answered
    rwa [← evolved.setting.locale] at answers
  | resume =>
    cases stack : machine.suspended with
    | nil =>
      simp [stack] at answered
    | cons operation rest =>
      obtain ⟨began, frame⟩ := operation
      have top : (began, frame) ∈ machine.suspended := by simp [stack]
      have fits := held.formed.fits _ top
      obtain ⟨evolved, -⟩ := fits.resume held.formed.indexed
      rw [step_resume stack] at answered ⊢
      obtain ⟨answered, now⟩ := Progress.reply?_eq_some answered
      have answers := fits.answers held.formed.indexed answered
      rwa [(held.epochs _ top).2 now, ← evolved.setting.locale] at answers

theorem scoped_new {locator : Locator} {store : Store} (h : locale ∈ locales) :
    Scoped { locale := locale, locator := locator, store := store } keys locales
      { catalog := { locale := locale, locator := locator, store := store } } where
  formed := {
    indexed := {
      bounded := fun _ h ↦ absurd h Std.TreeMap.not_mem_emptyc
      known := fun _ _ h ↦ by cases h
      distinct := fun _ _ _ h ↦ by cases h }
    fits := nofun
    apart := .nil }
  store := .refl _
  locale := h
  cached _ _ h := by cases h
  fillings := nofun
  epochs := nofun

/-- Let a load that began after the last change of the locale answer with a table. The table keeps
to the current locale until the next change, whatever happens, exactly if no operation that waits
then is still to fill the table for another locale. -/
theorem answered_table_keeps_locale_iff {keys : List TableKey} {locales : List String}
    {locale : String} {locator : Locator} {store : Store} {moves : List Move} {move : Move}
    {key : TableKey} {id : TableId} (known : locale ∈ locales)
    (serves : ∀ key ∈ keys, ∀ target ∈ locales,
      Serves { locale := locale, locator := locator, store := store } key target)
    (tame :
      let start : Machine := { catalog := { locale := locale, locator := locator, store := store } }
      start.Tame keys locales (moves ++ [move]))
    (answered :
      let start : Machine := { catalog := { locale := locale, locator := locator, store := store } }
      ((start.run moves).step move).2 = some ⟨key, .ok id, (start.run moves).epoch⟩) :
    let start : Machine := { catalog := { locale := locale, locator := locator, store := store } }
    let now := start.run (moves ++ [move])
    (∀ more, now.Tame keys locales more → (∀ other, .setLocale other ∉ more) →
      (now.run more).catalog.recorded id = some (now.run more).catalog.locale) ↔
    ∀ operation ∈ now.suspended, key ∈ operation.2.keys →
      operation.2.filling.target = now.catalog.locale := by
  intro start now
  have begun : start.Scoped start.catalog keys locales := scoped_new known
  have held : now.Scoped start.catalog keys locales := begun.run tame
  have answers : now.catalog.Answers key id now.catalog.locale := by
    obtain ⟨before, -⟩ := tame_append.1 tame
    have answers := (begun.run before).answers answered
    have reached : now = ((start.run moves).step move).1 := start.run_append moves [move]
    rwa [← reached] at answers
  obtain ⟨kept, current⟩ := answers
  constructor
  · intro keeps operation h hkey
    obtain ⟨above, below, stack⟩ := List.append_of_mem h
    obtain ⟨count, filled, same⟩ := held.filled serves stack hkey kept
    have orderly := Tame.orderly tame .nil
    have keeping := keeps (List.replicate count .resume)
      (orderly.tame_resumes held.formed keys locales count)
      fun other h ↦ by cases List.eq_of_mem_replicate h
    rw [filled, same] at keeping
    exact Option.some.inj keeping
  · intro pending more tame' steady
    have settled : now.Settled key id now.catalog.locale :=
      ⟨held.formed, rfl, kept, (isCurrent_iff.1 current).2, pending⟩
    have settled' := settled.run steady
    rw [settled'.recorded, settled'.current]

/-- One greeting in two locales. -/
def greetings : Store :=
  (Store.inMemory.put "hi_en.xml" (Text.Utf8.encode
    "<StringTable><File SourcePath='hi'><String Name='hi'>Hello</String></File></StringTable>")).put
    "hi_de.xml" (Text.Utf8.encode
      "<StringTable><File SourcePath='hi'><String Name='hi'>Hallo</String></File></StringTable>")

/-- A table that was asked for again after the locale changed, while nothing else waited. -/
theorem answered_table_keeps_locale_greetings :
    let start : Machine := { catalog := { locale := "en", store := greetings } }
    let now := start.run [.load ⟨"", "hi"⟩ false false, .resume, .setLocale "de",
      .load ⟨"", "hi"⟩ false false, .resume]
    ∀ more, now.Tame [⟨"", "hi"⟩] ["en", "de"] more → (∀ other, .setLocale other ∉ more) →
      (now.run more).catalog.recorded 0 = some (now.run more).catalog.locale :=
  (@answered_table_keeps_locale_iff [⟨"", "hi"⟩] ["en", "de"] "en" {} greetings
    [.load ⟨"", "hi"⟩ false false, .resume, .setLocale "de", .load ⟨"", "hi"⟩ false false] .resume
    ⟨"", "hi"⟩ 0 (by decide) (by decide +kernel) (by decide +kernel) (by decide +kernel)).2
    (by decide +kernel)

/-- A load waits for its opening while the locale changes and another load of the same table is
answered for the new locale. When it goes on it finds the table kept and fills it for the locale
before. -/
theorem waiting_load_restores_earlier_locale :
    let start : Machine := { catalog := { locale := "en", store := greetings } }
    let moves : List Move :=
      [.load ⟨"", "hi"⟩ false false, .setLocale "de", .load ⟨"", "hi"⟩ false false]
    let now := start.run (moves ++ [.resume])
    let later := now.run [.resume, .resume]
    (∀ key ∈ [⟨"", "hi"⟩], ∀ target ∈ ["en", "de"], start.catalog.Serves key target) ∧
      start.Tame [⟨"", "hi"⟩] ["en", "de"] (moves ++ [.resume, .resume, .resume]) ∧
      ((start.run moves).step .resume).2 = some ⟨⟨"", "hi"⟩, .ok 1, (start.run moves).epoch⟩ ∧
      now.catalog.recorded 1 = some "de" ∧ later.catalog.recorded 1 = some "en" ∧
      later.catalog.locale = "de" := by
  decide +kernel

/-- The same run, with the second load as an interruption of the first one. -/
example :
    let catalog : Catalog := { locale := "en", store := greetings }
    let interrupted := ((interrupt "hi_en.xml"
      [.setLocale "de", .load ⟨"", "hi"⟩ false false]).run catalog).2
    let loaded := (load ⟨"", "hi"⟩ false false).run interrupted
    loaded.1 = .ok 1 ∧ loaded.2.recorded 1 = some "en" ∧ loaded.2.locale = "de" := by
  decide +kernel

end Machine

end

end Phrasebook.Catalog
