import Mathlib.Data.List.Induction
import Phrasebook.Proofs.Catalog.Sequential

/-!
# Coherence of the cache

A catalog goes through operations one after the other, and its store is edited in between. Whatever
they are, a table that is kept is in one of two states. Either it says that its resource is missing
and is empty, or it mirrors the document that was found at its location when it was last filled,
with a count of the entries that were left out.
-/

namespace Phrasebook

open Phrasebook.Storage

/-- There is a document at a location, and it can be opened and read. -/
def Storage.Store.Holds (store : Store) (location : String) (bytes : Text.Bytes) : Prop :=
  (store.openAt location).1 = .content (.ofBytes bytes)

namespace Catalog

/-- What may happen to a catalog when one thing happens after the other. -/
inductive Operation where
  | setLocale (locale : String)
  | load (key : TableKey) (optional force : Bool)
  | reloadAll
  | clearCache
  | edit (change : Store → Store)

def Operation.perform : Operation → CatalogM Unit
  | .setLocale locale => Catalog.setLocale locale
  | .load key optional force => do
    let _ ← Catalog.load key optional force
  | .reloadAll => do
    let _ ← Catalog.reloadAll
  | .clearCache => Catalog.clearCache
  | .edit change => inStore change

def after (catalog : Catalog) (operations : List Operation) : Catalog :=
  operations.foldl (fun catalog operation ↦ (operation.perform.run catalog).2) catalog

theorem after_concat (catalog : Catalog) (operations : List Operation) (operation : Operation) :
    catalog.after (operations ++ [operation]) =
      (operation.perform.run (catalog.after operations)).2 := by
  rw [after, List.foldl_append]
  rfl

/-- How often the entries of a table were replaced. -/
def generation (catalog : Catalog) (id : TableId) : Nat := (catalog.library.table id).generation

/-- Among operations, the one after the `earlier` ones is the last that filled a table. -/
def FilledLast (start : Catalog) (operations : List Operation) (id : TableId)
    (earlier : List Operation) : Prop :=
  ∃ operation later, operations = earlier ++ operation :: later ∧
    (start.after earlier).generation id ≠ (start.after (earlier ++ [operation])).generation id ∧
    ∀ seen, seen <+: later →
      (start.after (earlier ++ operation :: seen)).generation id =
        (start.after (earlier ++ [operation])).generation id

/-- What a table that is kept for a key says and holds after operations. -/
structure Coherent (start : Catalog) (operations : List Operation) (key : TableKey)
    (table : Table) (id : TableId) (locale : String) : Prop where
  target : table.status.locale = some locale
  source : table.status.location = some (start.locate key locale)
  missing : table.status.missing = true → table.entries = ∅ ∧ table.status.rejected = 0
  mirrors : table.status.missing = false → ∃ earlier bytes entries,
    FilledLast start operations id earlier ∧ (start.after earlier).locale = locale ∧
    (start.after earlier).store.Holds (start.locate key locale) bytes ∧
    Document.entriesOf (.ofBytes bytes) = .ok entries ∧
    table.Mirrors entries table.status.rejected

section

variable {start catalog : Catalog} {operations : List Operation} {operation : Operation}
  {key : TableKey} {id : TableId} {locale : String} {table : Table}

theorem FilledLast.concat {earlier : List Operation}
    (last : FilledLast start operations id earlier)
    (kept : (start.after (operations ++ [operation])).generation id =
      (start.after operations).generation id) :
    FilledLast start (operations ++ [operation]) id earlier := by
  obtain ⟨filling, later, rfl, filled, unchanged⟩ := last
  refine ⟨filling, later ++ [operation], by simp, filled, fun seen h ↦ ?_⟩
  rcases List.prefix_concat_iff.1 h with rfl | h
  · rw [← List.cons_append, ← List.append_assoc, kept]
    exact unchanged later List.prefix_rfl
  · exact unchanged seen h

theorem filledLast_concat
    (filled : (start.after operations).generation id ≠
      (start.after (operations ++ [operation])).generation id) :
    FilledLast start (operations ++ [operation]) id operations := by
  refine ⟨operation, [], rfl, filled, fun seen h ↦ ?_⟩
  rw [List.prefix_nil.1 h]

/-- What a store holds is a document of bytes, or markup that fails at once. -/
theorem lookup_eq_content {backing : Backing} {location : String} {stream : Markup.Stream}
    (h : Store.lookup backing location = .content stream) :
    (∃ bytes, stream = .ofBytes bytes) ∨ ∃ problem, stream = .failed problem 0 := by
  unfold Store.lookup at h
  cases backing with
  | memory documents foreign =>
    dsimp only at h
    split at h
    · cases h
      exact .inl ⟨_, rfl⟩
    · cases h
  | disk tree =>
    dsimp only at h
    split at h
    · cases h
      cases tree.read location with
      | ok bytes => exact .inl ⟨bytes, rfl⟩
      | error error => exact .inr ⟨_, rfl⟩
    · cases h
    · cases h

/-- Entries that were read came from the bytes of a document. -/
theorem exists_bytes_of_contentsOf {location : String} {entries : List Document.Entry}
    (h : contentsOf location (catalog.found location) = .ok (some entries)) :
    ∃ bytes, catalog.store.Holds location bytes ∧
      Document.entriesOf (.ofBytes bytes) = .ok entries := by
  obtain ⟨stream, found, read⟩ := contentsOf_eq_some_iff.1 h
  have looked_up : Store.lookup catalog.store.backing location = .content stream := by
    unfold Catalog.found Store.openAt at found
    split at found
    · cases found
    · exact found
  rcases lookup_eq_content looked_up with ⟨bytes, rfl⟩ | ⟨problem, rfl⟩
  · exact ⟨bytes, found, read⟩
  · cases read

/-! ## Every operation keeps the catalog coherent -/

/-- Order is about tables, the cache and interruptions alone. -/
theorem inOrder_of_same {other : Catalog} (order : InOrder catalog)
    (interruptions : other.interruptions = catalog.interruptions)
    (tables : other.library.tables = catalog.library.tables)
    (next : other.library.nextTable = catalog.library.nextTable)
    (cache : ∀ key id, other.cached? key = some id → catalog.cached? key = some id) :
    InOrder other where
  quiet := interruptions.trans order.quiet
  bounded id h := by
    rw [next]
    exact order.bounded id (tables ▸ h)
  known key id h := by
    rw [tables]
    exact order.known key id (cache key id h)
  distinct key third id h h' := order.distinct key third id (cache key id h) (cache third id h')

theorem advanced_of_same {other : Catalog} (order : InOrder catalog)
    (interruptions : other.interruptions = catalog.interruptions)
    (locator : other.locator = catalog.locator)
    (tables : other.library.tables = catalog.library.tables)
    (next : other.library.nextTable = catalog.library.nextTable)
    (cache : ∀ key id, other.cached? key = some id → catalog.cached? key = some id) :
    Advanced catalog other where
  order := inOrder_of_same order interruptions tables next cache
  locator := locator
  tables key id h := .inl ⟨cache key id h, Library.table_eq_of_tables_eq tables id⟩

theorem Operation.advanced (operation : Operation) (order : InOrder catalog) :
    Advanced catalog (operation.perform.run catalog).2 := by
  cases operation with
  | setLocale locale =>
    obtain ⟨journal, run⟩ := setLocale_run locale catalog
    rw [perform, run]
    exact advanced_of_same order rfl rfl rfl rfl fun _ _ h ↦ h
  | load key optional force => exact (loadWith_loaded order _ optional force).advanced
  | reloadAll => exact (reloadAllWith_refreshed order _).advanced order
  | clearCache => exact advanced_of_same order rfl rfl rfl rfl fun _ _ h ↦ by cases h
  | edit change => exact advanced_of_same order rfl rfl rfl rfl fun _ _ h ↦ h

/-- A table that the last operation filled says and holds what was found then. -/
theorem Coherent.of_filled (locator : (start.after operations).locator = start.locator)
    (raised : (start.after operations).generation id <
      (start.after (operations ++ [operation])).generation id)
    (filled : (start.after operations).FilledFor key (start.after operations).locale
      ((start.after (operations ++ [operation])).library.table id)) :
    Coherent start (operations ++ [operation]) key
      ((start.after (operations ++ [operation])).library.table id) id
      (start.after operations).locale := by
  have located : (start.after operations).locate key (start.after operations).locale =
      start.locate key (start.after operations).locale := by rw [locate, locate, locator]
  unfold FilledFor at filled
  rw [located] at filled
  refine ⟨filled.target, filled.source, fun missing ↦ ?_, fun present ↦ ?_⟩
  · rcases filled.contents with ⟨-, empty, rejected⟩ | ⟨present, -⟩
    · exact ⟨empty, rejected⟩
    · rw [present] at missing
      cases missing
  · rcases filled.contents with ⟨missing, -⟩ | ⟨-, entries, contents, mirrors⟩
    · rw [missing] at present
      cases present
    · obtain ⟨bytes, holds, read⟩ := exists_bytes_of_contentsOf contents
      exact ⟨operations, bytes, entries, filledLast_concat (Nat.ne_of_lt raised), rfl, holds, read,
        mirrors⟩

theorem Coherent.concat (coherent : Coherent start operations key table id locale)
    (kept : (start.after (operations ++ [operation])).generation id =
      (start.after operations).generation id) :
    Coherent start (operations ++ [operation]) key table id locale where
  target := coherent.target
  source := coherent.source
  missing := coherent.missing
  mirrors present := by
    obtain ⟨earlier, bytes, entries, last, found⟩ := coherent.mirrors present
    exact ⟨earlier, bytes, entries, last.concat kept, found⟩

/-- The state of a catalog after operations that nobody interferes with. -/
structure Sound (start : Catalog) (operations : List Operation) : Prop where
  order : InOrder (start.after operations)
  locator : (start.after operations).locator = start.locator
  coherent : ∀ key id, (start.after operations).cached? key = some id →
    ∃ locale, Coherent start operations key ((start.after operations).library.table id) id locale

theorem Sound.concat (sound : Sound start operations) (operation : Operation) :
    Sound start (operations ++ [operation]) := by
  have advanced := operation.advanced sound.order
  rw [← after_concat] at advanced
  refine ⟨advanced.order, advanced.locator.trans sound.locator, fun key id h ↦ ?_⟩
  rcases advanced.tables key id h with ⟨before, same⟩ | ⟨raised, filled⟩
  · obtain ⟨locale, coherent⟩ := sound.coherent key id before
    rw [same]
    exact ⟨locale, coherent.concat (congrArg Table.generation same)⟩
  · exact ⟨_, .of_filled sound.locator raised filled⟩

/-- Operations keep a catalog sound, by induction on how many there were. -/
theorem sound_after (order : InOrder start) (empty : start.cache = ∅)
    (operations : List Operation) : Sound start operations := by
  induction operations using List.reverseRecOn with
  | nil =>
    refine ⟨order, rfl, fun key id h ↦ ?_⟩
    have none_kept : start.cached? key = none := by simp [cached?, empty]
    rw [show start.after [] = start from rfl, none_kept] at h
    cases h
  | append_singleton operations operation ih => exact ih.concat operation

theorem inOrder_new (locale : String) (locator : Locator) (store : Store) :
    InOrder { locale := locale, locator := locator, store := store } where
  quiet := rfl
  bounded _ h := absurd h Std.TreeMap.not_mem_emptyc
  known _ _ h := by cases h
  distinct _ _ _ h := by cases h

/-- Whatever happens to a catalog, one thing after the other, every table that is kept is empty
because its resource is missing or mirrors the document that it was last filled from; and a load
that works answers with the table that is kept for the key, filled for the current locale with
nothing left out. -/
theorem cached_tables_coherent (locale : String) (locator : Locator) (store : Store)
    (operations : List Operation) :
    let start : Catalog := { locale := locale, locator := locator, store := store }
    let now := start.after operations
    (∀ key id, now.cached? key = some id →
      ∃ locale, Coherent start operations key (now.library.table id) id locale) ∧
    ∀ key optional force id, ((load key optional force).run now).1 = .ok id →
      let loaded := ((load key optional force).run now).2
      loaded.cached? key = some id ∧
        (loaded.library.table id).status.locale = some loaded.locale ∧
        (loaded.library.table id).status.rejected = 0 := by
  intro start now
  have sound : Sound start operations :=
    sound_after (inOrder_new locale locator store) rfl operations
  refine ⟨sound.coherent, fun key optional force id ok ↦ ?_⟩
  have loaded := @loadWith_loaded now key sound.order interleave optional force
  obtain ⟨cached, current⟩ := loaded.answered id ok
  obtain ⟨rejected, target⟩ := isCurrent_iff.1 current
  exact ⟨cached, target.trans (congrArg some loaded.setting.locale.symm), rejected⟩

/-- A catalog whose store holds one document, which was loaded. -/
theorem cached_tables_coherent_menu :
    let document := Text.Utf8.encode
      "<StringTable><File SourcePath='m'><String Name='a'>b</String></File></StringTable>"
    let start : Catalog := { locale := "en", store := Store.inMemory.put "menu_en.xml" document }
    let operations := [Operation.load ⟨"", "menu"⟩ false false]
    (start.after operations).cached? ⟨"", "menu"⟩ = some 0 ∧
      ∃ locale, Coherent start operations ⟨"", "menu"⟩
        ((start.after operations).library.table 0) 0 locale := by
  intro document start operations
  have kept : (start.after operations).cached? ⟨"", "menu"⟩ = some 0 := by decide +kernel
  exact ⟨kept, (cached_tables_coherent "en" {} (Store.inMemory.put "menu_en.xml" document)
    operations).1 _ _ kept⟩

end

end Catalog

end Phrasebook
