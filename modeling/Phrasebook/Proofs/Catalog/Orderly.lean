import Phrasebook.Proofs.Catalog.Evolution

/-!
# Orderly runs

The operations of an orderly run ask for certain keys in certain locales only, and for each of these
there is a clean document that nobody edits. They may interfere with each other, but none begins to
fill a table while that table is being filled anew. What such operations wait to fill then stays
what the first catalog of the run found.
-/

namespace Phrasebook.Catalog

/-- There is a clean document for a key and a locale. -/
def Serves (catalog : Catalog) (key : TableKey) (locale : String) : Prop :=
  ∃ entries, contentsOf (catalog.locate key locale)
      (catalog.found (catalog.locate key locale)) = .ok (some entries) ∧
    Document.Clean entries

instance (catalog : Catalog) (key : TableKey) (locale : String) :
    Decidable (catalog.Serves key locale) :=
  match h : contentsOf (catalog.locate key locale) (catalog.found (catalog.locate key locale)) with
  | .ok (some entries) =>
    decidable_of_iff (Document.Clean entries)
      ⟨fun clean ↦ ⟨entries, h, clean⟩, fun ⟨others, found, clean⟩ ↦ by
        obtain rfl : entries = others := by simpa [h] using found
        exact clean⟩
  | .ok none => isFalse fun ⟨_, found, _⟩ ↦ by simp [h] at found
  | .error error => isFalse fun ⟨_, found, _⟩ ↦ by simp [h] at found

/-- The keys whose tables an operation has still to fill. -/
def Frame.keys : Frame → List TableKey
  | fresh filling => [filling.key]
  | stale filling => [filling.key]
  | all filling rest _ => filling.key :: rest.map Prod.fst

/-- The key whose table an operation is filling anew. -/
def Frame.reloads? : Frame → Option TableKey
  | fresh _ => none
  | stale filling => some filling.key
  | all filling _ _ => some filling.key

/-- No operation is to fill a table that was being filled anew when the operation began. -/
def Machine.Orderly (machine : Machine) : Prop :=
  machine.suspended.Pairwise fun above below ↦ ∀ key ∈ above.2.keys, below.2.reloads? ≠ some key

instance (machine : Machine) : Decidable machine.Orderly :=
  inferInstanceAs (Decidable (List.Pairwise _ _))

/-- A move that asks for certain keys and locales and edits nothing. -/
def Move.Within (keys : List TableKey) (locales : List String) : Move → Prop
  | setLocale locale => locale ∈ locales
  | load key _ _ => key ∈ keys
  | reloadAll => True
  | resume => True
  | edit _ => False
  | rearrange _ => True

instance (keys : List TableKey) (locales : List String) :
    (move : Move) → Decidable (move.Within keys locales)
  | .setLocale locale => inferInstanceAs (Decidable (locale ∈ locales))
  | .load key _ _ => inferInstanceAs (Decidable (key ∈ keys))
  | .reloadAll => inferInstanceAs (Decidable True)
  | .resume => inferInstanceAs (Decidable True)
  | .edit _ => inferInstanceAs (Decidable False)
  | .rearrange _ => inferInstanceAs (Decidable True)

/-- Moves that ask for certain keys and locales and after each of which the machine is orderly. -/
def Machine.Tame (keys : List TableKey) (locales : List String) : Machine → List Move → Prop
  | _, [] => True
  | machine, move :: rest =>
    move.Within keys locales ∧ (machine.step move).1.Orderly ∧
      (machine.step move).1.Tame keys locales rest

instance decidableTame (keys : List TableKey) (locales : List String) :
    (machine : Machine) → (moves : List Move) → Decidable (machine.Tame keys locales moves)
  | _, [] => inferInstanceAs (Decidable True)
  | machine, move :: rest =>
    have := decidableTame keys locales (machine.step move).1 rest
    inferInstanceAs (Decidable (_ ∧ _ ∧ _))

/-- A table that is filled for one of certain keys and locales with what a catalog finds. -/
def Filling.Within (start : Catalog) (keys : List TableKey) (locales : List String)
    (filling : Filling) : Prop :=
  filling = start.filling filling.key filling.id filling.target filling.optional ∧
    filling.key ∈ keys ∧ filling.target ∈ locales

section

variable {start catalog : Catalog} {frame later : Frame} {key : TableKey} {id : TableId}
  {optional force : Bool}

theorem SameStore.within_filling {keys : List TableKey} {locales : List String} {target : String}
    (same : SameStore start catalog) (hkey : key ∈ keys) (htarget : target ∈ locales)
    (id : TableId) (optional : Bool) :
    (catalog.filling key id target optional).Within start keys locales :=
  ⟨same.filling key id target optional, hkey, htarget⟩

/-! ## Operations that begin or go on -/

theorem beginLoad_waiting
    (h : ((beginLoad key optional force).run catalog).1 = .waiting frame) :
    ∃ id, frame.filling = catalog.filling key id catalog.locale optional := by
  cases kept : catalog.cached? key with
  | none =>
    rw [beginLoad_run_of_absent kept] at h
    rw [← Progress.waiting.inj h]
    exact ⟨_, rfl⟩
  | some id =>
    rw [beginLoad_run_of_cached kept] at h
    rw [beginRefresh_waiting h]
    exact ⟨id, rfl⟩

/-- A reload starts with a table that is kept, for the current locale. -/
theorem beginReloadAll_waiting (h : (beginReloadAll.run catalog).1 = .waiting frame) :
    ∃ key id, catalog.cached? key = some id ∧
      frame.filling = catalog.filling key id catalog.locale false := by
  rw [beginReloadAll_run] at h
  cases tables : catalog.cache.toList with
  | nil =>
    rw [tables] at h
    cases h
  | cons pair rest =>
    have kept : pair ∈ catalog.cache.toList := by simp [tables]
    rw [tables, beginEach_cons_run] at h
    rw [← Progress.waiting.inj h]
    exact ⟨pair.1, pair.2, Std.TreeMap.mem_toList_iff_getElem?_eq_some.1 kept, rfl⟩

theorem Frame.Continues.keys (continues : frame.Continues catalog later) :
    later.keys ⊆ frame.keys := by
  cases continues with
  | lost kept => exact List.Subset.refl _
  | next => exact List.subset_cons_self _ _

/-- The key of the next filling is one that the operation had still to fill. -/
theorem Frame.Continues.key_mem (continues : frame.Continues catalog later) :
    later.filling.key ∈ frame.keys := by
  cases continues with
  | lost kept => exact List.mem_cons_self
  | next => exact List.mem_cons_of_mem _ List.mem_cons_self

theorem Frame.Continues.filling (continues : frame.Continues catalog later) :
    later.filling = catalog.filling later.filling.key later.filling.id later.filling.target
      later.filling.optional := by
  cases continues with
  | lost kept => rfl
  | next => rfl

/-- Every table that an operation has still to fill is kept, but for a new one. -/
theorem Frame.Fits.cached (fits : frame.Fits catalog) (hkey : key ∈ frame.keys) :
    key = frame.filling.key ∨ ∃ id, catalog.cached? key = some id := by
  cases frame with
  | fresh filling => exact .inl (List.mem_singleton.1 hkey)
  | stale filling => exact .inl (List.mem_singleton.1 hkey)
  | all filling rest report =>
    rcases List.mem_cons.1 hkey with rfl | hkey
    · exact .inl rfl
    · obtain ⟨pair, hpair, rfl⟩ := List.mem_map.1 hkey
      exact .inr ⟨pair.2, fits.2 pair hpair⟩

/-! ## What holds in an orderly run -/

namespace Machine

variable {machine : Machine} {moves more : List Move} {move : Move} {keys : List TableKey}
  {locales : List String}

/-- The state of a machine that is asked for certain keys and locales only. An operation that began
after the last change of the locale fills tables for the current one. -/
structure Scoped (start : Catalog) (keys : List TableKey) (locales : List String)
    (machine : Machine) : Prop where
  formed : machine.WellFormed
  store : SameStore start machine.catalog
  locale : machine.catalog.locale ∈ locales
  cached : ∀ key id, machine.catalog.cached? key = some id → key ∈ keys
  fillings : ∀ operation ∈ machine.suspended, operation.2.filling.Within start keys locales
  epochs : ∀ operation ∈ machine.suspended, operation.1 ≤ machine.epoch ∧
    (operation.1 = machine.epoch → operation.2.filling.target = machine.catalog.locale)

theorem Scoped.advance {began : Nat} {rest : List (Nat × Frame)} {part : CatalogM Progress}
    (held : machine.Scoped start keys locales)
    (formed : (machine.advance began rest part).1.WellFormed)
    (setting : SameSetting machine.catalog (part.run machine.catalog).2)
    (cached : ∀ key id, (part.run machine.catalog).2.cached? key = some id → key ∈ keys)
    (below : ∀ operation ∈ rest, operation ∈ machine.suspended) (earlier : began ≤ machine.epoch)
    (new : ∀ frame, (part.run machine.catalog).1 = .waiting frame →
      frame.filling.Within start keys locales ∧
        (began = machine.epoch → frame.filling.target = machine.catalog.locale)) :
    (machine.advance began rest part).1.Scoped start keys locales where
  formed := formed
  store := held.store.trans setting.toSameStore
  locale := by
    simpa [setting.locale] using held.locale
  cached := cached
  fillings operation h := by
    rcases Progress.mem_onto h with ⟨waits, -⟩ | h
    · exact (new operation.2 waits).1
    · exact held.fillings operation (below operation h)
  epochs operation h := by
    simp only [advance_fst_epoch, advance_fst_catalog, setting.locale]
    rcases Progress.mem_onto h with ⟨waits, mark⟩ | h
    · rw [mark]
      exact ⟨earlier, (new operation.2 waits).2⟩
    · exact held.epochs operation (below operation h)

theorem Scoped.resume (held : machine.Scoped start keys locales) :
    (machine.step .resume).1.Scoped start keys locales := by
  have formed := held.formed.resume
  cases waiting : machine.suspended with
  | nil => simpa [waiting] using held
  | cons operation rest =>
    obtain ⟨began, frame⟩ := operation
    rw [step_resume waiting] at formed ⊢
    have top : (began, frame) ∈ machine.suspended := by simp [waiting]
    have fits := held.formed.fits _ top
    have within := held.fillings _ top
    obtain ⟨evolved, -⟩ := fits.resume held.formed.indexed
    refine held.advance formed evolved.setting (fun key id h ↦ ?_) (fun other h ↦ ?_)
      (held.epochs _ top).1 fun later waits ↦ ?_
    · rcases evolved.fresh key id h with h | ⟨-, rfl⟩
      · exact held.cached key id h
      · exact within.2.1
    · rw [waiting]
      exact List.mem_cons_of_mem _ h
    · have continues := fits.continues held.formed.indexed waits
      have target := continues.target
      refine ⟨?_, fun now ↦ target.trans ((held.epochs _ top).2 now)⟩
      rw [continues.filling]
      refine held.store.within_filling ?_ (target ▸ within.2.2) _ _
      rcases fits.cached continues.key_mem with same | ⟨id, kept⟩
      · rw [same]
        exact within.2.1
      · exact held.cached _ id kept

/-- A move that keeps to the keys and locales leaves every filling within them. -/
theorem Scoped.step (held : machine.Scoped start keys locales) (within : move.Within keys locales) :
    (machine.step move).1.Scoped start keys locales := by
  have formed := held.formed.step move
  cases move with
  | setLocale locale =>
    obtain ⟨journal, run⟩ := setLocale_run locale machine.catalog
    rw [step_setLocale, run] at formed ⊢
    refine ⟨formed, ⟨held.store.locator, held.store.backing, held.store.broken⟩, within,
      held.cached, held.fillings, fun operation h ↦ ?_⟩
    have earlier := (held.epochs operation h).1
    refine ⟨Nat.le_succ_of_le earlier, fun now ↦ ?_⟩
    exact absurd now (Nat.ne_of_lt (Nat.lt_succ_of_le earlier))
  | edit change => exact within.elim
  | rearrange interruptions =>
    exact ⟨formed, ⟨held.store.locator, held.store.backing, held.store.broken⟩, held.locale,
      held.cached, held.fillings, held.epochs⟩
  | load key optional force =>
    obtain ⟨evolved, -⟩ := beginLoad_spec held.formed.indexed key optional force
    refine held.advance formed evolved.setting (fun other id h ↦ ?_) (fun _ h ↦ h) (Nat.le_refl _)
      fun frame waits ↦ ?_
    · rcases evolved.fresh other id h with h | ⟨-, rfl⟩
      · exact held.cached other id h
      · exact within
    · obtain ⟨id, filling⟩ := beginLoad_waiting waits
      rw [filling]
      exact ⟨held.store.within_filling within held.locale id optional, fun _ ↦ rfl⟩
  | reloadAll =>
    have going := noted_beginEach machine.catalog.locale machine.catalog.cache.toList {}
      machine.catalog
    rw [← beginReloadAll_run] at going
    refine held.advance formed going.setting (fun key id h ↦ ?_) (fun _ h ↦ h) (Nat.le_refl _)
      fun frame waits ↦ ?_
    · rw [cached?, going.cache] at h
      exact held.cached key id h
    · obtain ⟨key, id, kept, filling⟩ := beginReloadAll_waiting waits
      rw [filling]
      exact ⟨held.store.within_filling (held.cached key id kept) held.locale id false,
        fun _ ↦ rfl⟩
  | resume => exact held.resume

/-- Moves that ask for certain keys and locales keep a machine within them, by induction on the
moves. -/
theorem Scoped.run (held : machine.Scoped start keys locales)
    (tame : machine.Tame keys locales moves) : (machine.run moves).Scoped start keys locales := by
  induction moves generalizing machine with
  | nil => exact held
  | cons move rest ih => exact ih (held.step tame.1) tame.2.2

theorem tame_append :
    machine.Tame keys locales (moves ++ more) ↔
      machine.Tame keys locales moves ∧ (machine.run moves).Tame keys locales more := by
  induction moves generalizing machine with
  | nil => exact ⟨fun h ↦ ⟨trivial, h⟩, And.right⟩
  | cons move rest ih =>
    rw [List.cons_append, Tame, Tame, ih, and_assoc, and_assoc]
    rfl

theorem Tame.orderly (tame : machine.Tame keys locales moves) (orderly : machine.Orderly) :
    (machine.run moves).Orderly := by
  induction moves generalizing machine with
  | nil => exact orderly
  | cons move rest ih => exact ih tame.2.2 tame.2.1

/-- Operations that only go on do not disturb each other. -/
theorem Orderly.resume (orderly : machine.Orderly) (formed : machine.WellFormed) :
    (machine.step .resume).1.Orderly := by
  cases waiting : machine.suspended with
  | nil => simpa [waiting] using orderly
  | cons operation rest =>
    obtain ⟨began, frame⟩ := operation
    rw [step_resume waiting]
    have top : (began, frame) ∈ machine.suspended := by simp [waiting]
    rw [Orderly, waiting] at orderly
    obtain ⟨above, others⟩ := List.pairwise_cons.1 orderly
    refine Progress.pairwise_onto others fun later waits other h key hkey ↦ ?_
    have continues := (formed.fits _ top).continues formed.indexed waits
    exact above other h key (continues.keys hkey)

theorem Orderly.tame_resumes (orderly : machine.Orderly) (formed : machine.WellFormed)
    (keys : List TableKey) (locales : List String) (count : Nat) :
    machine.Tame keys locales (List.replicate count .resume) := by
  induction count generalizing machine with
  | zero => trivial
  | succ count ih =>
    have orderly' := orderly.resume formed
    exact ⟨trivial, orderly', ih orderly' formed.resume⟩

end Machine

end

end Phrasebook.Catalog
