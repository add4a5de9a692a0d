import Mathlib.Data.List.Perm.Subperm
import Phrasebook.Library.Loading
import Phrasebook.Proofs.Library.Frame

/-!
# Tables that mirror a document

The entries of a document decide what a table holds that was filled with them. Under every key
stands the first phrase of that key, and every entry is in the table or counted as left out. A
reload either leaves the table as it was, because the document cannot be read to its end, or makes
it mirror the document.
-/

namespace Phrasebook

open Phrasebook.Document (Entry Section)

/-- The entries of all sections, if the document can be read to its end. -/
def Document.entriesOf (content : Markup.Stream) : Except Fault (List Entry) :=
  match ofStream content with
  | .error fault => .error fault
  | .ok opened => opened.sections.all.map fun sections ↦ sections.flatMap Section.entries

/-- The first phrase that entries have for a key. -/
def Document.definition? (key : String) (entries : List Entry) : Option Phrase :=
  entries.findSome? fun entry ↦ if entry.key = key then entry.phrase.toOption else none

/-- A table holds the first phrase for every key, and what it does not hold was counted. -/
structure Table.Mirrors (table : Table) (entries : List Entry) (rejected : Nat) : Prop where
  definitions : ∀ key, table.entries[key]?.map Shared.phrase = Document.definition? key entries
  complete : rejected + table.entries.size = entries.length

theorem Document.Entry.name_of_phrase_eq_ok {entry : Entry} {phrase : Phrase}
    (h : entry.phrase = .ok phrase) : phrase.name = entry.key := by
  unfold Entry.phrase Phrase.read at h
  split at h
  · cases h
    rfl
  · split at h
    · cases h
      rfl
    · cases h

theorem Document.definition?_cons (key : String) (entry : Entry) (rest : List Entry) :
    definition? key (entry :: rest) =
      (if entry.key = key then entry.phrase.toOption else none).or (definition? key rest) := by
  rw [definition?, List.findSome?_cons]
  split
  all_goals simp_all [definition?]

/-- Every entry has a phrase, and no two have the same key. -/
structure Document.Clean (entries : List Entry) : Prop where
  phrases : ∀ entry ∈ entries, ∃ phrase, entry.phrase = .ok phrase
  distinct : (entries.map Entry.key).Nodup

instance (entries : List Entry) : Decidable (Document.Clean entries) :=
  decidable_of_iff ((∀ entry ∈ entries, entry.phrase.isOk) ∧ (entries.map Entry.key).Nodup) <| by
    have read (entry : Entry) : entry.phrase.isOk ↔ ∃ phrase, entry.phrase = .ok phrase := by
      cases entry.phrase with
      | error fault => exact ⟨nofun, nofun⟩
      | ok phrase => exact ⟨fun _ ↦ ⟨phrase, rfl⟩, fun _ ↦ rfl⟩
    simp only [read]
    exact ⟨fun ⟨phrases, distinct⟩ ↦ ⟨phrases, distinct⟩,
      fun clean ↦ ⟨clean.phrases, clean.distinct⟩⟩

theorem Document.isSome_definition?_iff {key : String} {entries : List Entry} :
    (definition? key entries).isSome ↔
      ∃ entry ∈ entries, entry.key = key ∧ entry.phrase.toOption.isSome := by
  rw [definition?, List.findSome?_isSome_iff]
  refine exists_congr fun entry ↦ and_congr_right fun _ ↦ ?_
  by_cases same : entry.key = key
  · simp [same]
  · simp [same]

theorem Document.isSome_definition?_iff_mem {entries : List Entry}
    (phrases : ∀ entry ∈ entries, ∃ phrase, entry.phrase = .ok phrase) (key : String) :
    (definition? key entries).isSome ↔ key ∈ entries.map Entry.key := by
  rw [isSome_definition?_iff, List.mem_map]
  refine exists_congr fun entry ↦ and_congr_right fun h ↦ and_iff_left_of_imp fun _ ↦ ?_
  obtain ⟨phrase, read⟩ := phrases entry h
  rw [read]
  rfl

theorem Table.mem_keys_iff {table : Table} {entries : List Entry}
    (definitions : ∀ key,
      table.entries[key]?.map Shared.phrase = Document.definition? key entries) (key : String) :
    key ∈ table.entries.keys ↔ (Document.definition? key entries).isSome := by
  rw [Std.TreeMap.mem_keys, ← Std.TreeMap.isSome_getElem?_iff_mem, ← definitions, Option.isSome_map]

/-- A table with the first phrase for every key of a clean document has a phrase for every entry. -/
theorem Document.Clean.size_eq {table : Table} {entries : List Entry} (clean : Clean entries)
    (definitions : ∀ key, table.entries[key]?.map Shared.phrase = definition? key entries) :
    table.entries.size = entries.length := by
  have same (key : String) : key ∈ table.entries.keys ↔ key ∈ entries.map Entry.key :=
    (Table.mem_keys_iff definitions key).trans (isSome_definition?_iff_mem clean.phrases key)
  have perm := (List.perm_ext_iff_of_nodup Std.TreeMap.nodup_keys clean.distinct).2 same
  have length := perm.length_eq
  rwa [Std.TreeMap.length_keys, List.length_map] at length

/-- Nothing is left out of a clean document. -/
theorem Table.Mirrors.rejected_eq_zero {table : Table} {entries : List Entry} {rejected : Nat}
    (mirrors : table.Mirrors entries rejected) (clean : Document.Clean entries) :
    rejected = 0 := by
  have size := clean.size_eq mirrors.definitions
  have complete := mirrors.complete
  omega

/-- A document of which nothing is left out is clean. -/
theorem Table.Mirrors.clean {table : Table} {entries : List Entry}
    (mirrors : table.Mirrors entries 0) : Document.Clean entries := by
  have held (key : String) : key ∈ table.entries.keys ↔
      ∃ entry ∈ entries, entry.key = key ∧ entry.phrase.toOption.isSome :=
    (Table.mem_keys_iff mirrors.definitions key).trans Document.isSome_definition?_iff
  have length : entries.length = table.entries.keys.length := by
    rw [Std.TreeMap.length_keys, ← mirrors.complete, Nat.zero_add]
  have distinct : table.entries.keys.Nodup := Std.TreeMap.nodup_keys
  -- There are as many keys as entries, so every entry has a phrase and a key of its own.
  let read := entries.filter fun entry ↦ entry.phrase.toOption.isSome
  have keys_read : table.entries.keys ⊆ read.map Entry.key := by
    intro key h
    obtain ⟨entry, mem, same, some⟩ := (held key).1 h
    exact List.mem_map.2 ⟨entry, List.mem_filter.2 ⟨mem, some⟩, same⟩
  have all_read : read = entries := by
    refine List.filter_sublist.eq_of_length_le ?_
    have short := (distinct.subperm keys_read).length_le
    rwa [List.length_map, ← length] at short
  rw [all_read] at keys_read
  have perm : table.entries.keys.Perm (entries.map Entry.key) :=
    (distinct.subperm keys_read).perm_of_length_le
      (Nat.le_of_eq ((List.length_map _).trans length))
  refine ⟨fun entry mem ↦ ?_, perm.nodup_iff.1 distinct⟩
  rw [← all_read] at mem
  obtain ⟨phrase, some⟩ := Option.isSome_iff_exists.1 (List.mem_filter.1 mem).2
  exact ⟨phrase, eq_ok_of_toOption some⟩

namespace Library

/-- The first phrase of a key is that of the first entry that has one. -/
theorem find?_phrasesOf (key : String) (entries : List Entry) :
    (phrasesOf entries).1.find? (fun phrase ↦ phrase.name = key) =
      Document.definition? key entries := by
  induction entries with
  | nil => rfl
  | cons entry rest ih =>
    rw [Document.definition?_cons, ← ih, phrasesOf]
    cases h : entry.phrase with
    | error error => simp [Except.toOption]
    | ok phrase =>
      have name : phrase.name = entry.key := entry.name_of_phrase_eq_ok h
      by_cases same : entry.key = key
      · simp [same, name, Except.toOption]
      · simp [same, name]

theorem length_phrasesOf (entries : List Entry) :
    (phrasesOf entries).1.length + (phrasesOf entries).2.length = entries.length := by
  induction entries with
  | nil => rfl
  | cons entry rest ih =>
    rw [phrasesOf, List.length_cons, ← ih]
    cases entry.phrase with
    | error error => rfl
    | ok phrase => exact Nat.succ_add_eq_add_succ _ _

/-- What reading a document to its end comes to; nothing changes but the journal. -/
theorem stage_run (id : TableId) (location : String) (content : Markup.Stream) (library : Library) :
    ∃ staged, Recorded library staged ∧ (stage id location content).run library =
      (match Document.entriesOf content with
        | .error fault => .error (.document location fault)
        | .ok entries => .ok (phrasesOf entries), staged) := by
  unfold stage Document.entriesOf
  cases Document.ofStream content with
  | error fault => exact ⟨_, ⟨_, rfl⟩, rfl⟩
  | ok opened =>
    dsimp only
    cases opened.sections.all with
    | error fault =>
      cases !opened.header.locale.isEmpty with
      | false => exact ⟨_, ⟨_, rfl⟩, rfl⟩
      | true => exact ⟨_, ⟨_, rfl⟩, rfl⟩
    | ok sections =>
      cases !opened.header.locale.isEmpty with
      | false => exact ⟨_, ⟨_, rfl⟩, rfl⟩
      | true => exact ⟨_, ⟨_, rfl⟩, rfl⟩

/-- What putting phrases into a table leads to: a key that was taken keeps its phrase, and of the
phrases of a new key the first is taken. -/
structure Added (id : TableId) (phrases : List Phrase) (before after : Library)
    (errors : List EntryError) : Prop where
  frame : SameBut id before after
  table : after.table id = { before.table id with entries := (after.table id).entries }
  definitions : ∀ key, (after.table id).entries[key]?.map Shared.phrase =
    ((before.table id).entries[key]?.map Shared.phrase).or
      (phrases.find? fun phrase ↦ phrase.name = key)
  complete : errors.length + (after.table id).entries.size =
    phrases.length + (before.table id).entries.size

namespace Added

variable {id : TableId} {phrases more : List Phrase} {before middle after : Library}
  {errors others : List EntryError}

theorem nil (id : TableId) (library : Library) : Added id [] library library [] where
  frame := .refl id library
  table := rfl
  definitions key := by simp
  complete := rfl

theorem append (first : Added id phrases before middle errors)
    (second : Added id more middle after others) :
    Added id (phrases ++ more) before after (errors ++ others) where
  frame := first.frame.trans second.frame
  table := by rw [second.table, first.table]
  definitions key := by
    rw [second.definitions, first.definitions, List.find?_append, Option.or_assoc]
  complete := by
    have := first.complete
    have := second.complete
    simp only [List.length_append]
    omega

theorem of_taken {phrase : Phrase} (frame : SameBut id before after)
    (table : after.table id = before.table id)
    (taken : phrase.name ∈ (before.table id).entries) (error : EntryError) :
    Added id [phrase] before after [error] where
  frame := frame
  table := by rw [table]
  definitions key := by
    obtain ⟨shared, hshared⟩ := exists_getElem?_of_mem taken
    rw [table]
    by_cases same : phrase.name = key
    · simp [← same, hshared]
    · simp [same]
  complete := by
    simp [table]

theorem of_new {shared : Shared} (frame : SameBut id before after)
    (table : after.table id = { before.table id with
      entries := (before.table id).entries.insert shared.phrase.name shared })
    (new : shared.phrase.name ∉ (before.table id).entries) :
    Added id [shared.phrase] before after [] where
  frame := frame
  table := by rw [table]
  definitions key := by
    rw [table]
    by_cases same : shared.phrase.name = key
    · subst same
      simp [Std.TreeMap.getElem?_eq_none new]
    · simp [Std.TreeMap.getElem?_insert, same]
  complete := by
    have new : ¬ (before.table id).entries.contains shared.phrase.name = true := new
    rw [table, Std.TreeMap.size_insert, if_neg new, List.length_nil, List.length_singleton]
    omega

end Added

def errorsOf : Except EntryError Shared → List EntryError
  | .ok _ => []
  | .error error => [error]

theorem added_insert (id : TableId) (phrase : Phrase) (library : Library)
    (known : id ∈ library.tables) :
    Added id [phrase] library ((insert id phrase false).run library).2
      (errorsOf ((insert id phrase false).run library).1) := by
  have frame := sameBut_insert id phrase false library
  by_cases taken : phrase.name ∈ (library.table id).entries
  · have taken' : (!false && (library.table id).entries.contains phrase.name) = true := taken
    rw [insert_run, if_pos taken'] at frame ⊢
    exact .of_taken frame (table_eq_of_tables_eq rfl id) taken _
  · have new : ¬ (!false && (library.table id).entries.contains phrase.name) = true := taken
    rw [insert_run, if_neg new] at frame ⊢
    exact @Added.of_new id library _ ⟨library.nextIdentity, phrase⟩ frame
      (table_modifyTable_self known) taken

theorem insertAll_cons_run (id : TableId) (overwrite : Bool) (phrase : Phrase) (rest : List Phrase)
    (library : Library) :
    (insertAll id overwrite (phrase :: rest)).run library =
      let first := (insert id phrase overwrite).run library
      let others := (insertAll id overwrite rest).run first.2
      (errorsOf first.1 ++ others.1, others.2) := by
  cases outcome : ((insert id phrase overwrite).run library).1 with
  | ok shared => simp [insertAll, outcome, errorsOf]
  | error error => simp [insertAll, outcome, errorsOf]

/-- What holds of each phrase that is put into a table, and of two lists of phrases together if it
holds of both, holds of all. -/
theorem insertAll_induction {id : TableId} {overwrite : Bool}
    {motive : List Phrase → Library → Library → List EntryError → Prop}
    (nil : ∀ library, motive [] library library [])
    (append : ∀ phrases more before middle after errors others,
      motive phrases before middle errors → motive more middle after others →
        motive (phrases ++ more) before after (errors ++ others))
    (insert : ∀ phrase library, id ∈ library.tables →
      motive [phrase] library ((insert id phrase overwrite).run library).2
        (errorsOf ((Library.insert id phrase overwrite).run library).1))
    (phrases : List Phrase) {library : Library} (known : id ∈ library.tables) :
    motive phrases library ((insertAll id overwrite phrases).run library).2
      ((insertAll id overwrite phrases).run library).1 := by
  induction phrases generalizing library with
  | nil => exact nil library
  | cons phrase rest ih =>
    rw [insertAll_cons_run]
    have still := ((sameBut_insert id phrase overwrite library).known id).2 known
    exact append [phrase] rest _ _ _ _ _ (insert phrase library known) (ih still)

theorem added_insertAll (id : TableId) (phrases : List Phrase) (library : Library)
    (known : id ∈ library.tables) :
    Added id phrases library ((insertAll id false phrases).run library).2
      ((insertAll id false phrases).run library).1 :=
  @insertAll_induction id false (Added id) (.nil id) (fun _ _ _ _ _ _ _ ↦ .append)
    (added_insert id) phrases library known

/-- The table holds what the entries of a document say, in place of what it held before. -/
structure Replaced (id : TableId) (entries : List Entry) (before after : Library)
    (rejected : Nat) : Prop where
  frame : SameBut id before after
  table : after.table id = { before.table id with
    entries := (after.table id).entries
    generation := (before.table id).generation + 1 }
  mirrors : (after.table id).Mirrors entries rejected

theorem Replaced.of_added {id : TableId} {entries : List Entry}
    {before cleared filled after : Library} {collisions : List EntryError}
    (frame : SameBut id before cleared)
    (table : cleared.table id = (before.table id).cleared)
    (added : Added id (phrasesOf entries).1 cleared filled collisions)
    (recorded : Recorded filled after) :
    Replaced id entries before after ((phrasesOf entries).2 ++ collisions).length where
  frame := (frame.trans added.frame).trans (recorded.sameBut id)
  table := by
    rw [recorded.table, added.table, table, Table.cleared]
  mirrors := by
    rw [recorded.table]
    refine ⟨fun key ↦ ?_, ?_⟩
    · rw [added.definitions, table, find?_phrasesOf]
      simp
    · have counted := added.complete
      have all := length_phrasesOf entries
      rw [table] at counted
      simp only [List.length_append, Table.cleared_entries, Std.TreeMap.size_emptyc] at counted ⊢
      omega

theorem reload_of_fault {content : Markup.Stream} {fault : Document.Fault}
    (h : Document.entriesOf content = .error fault) (id : TableId) (location : String)
    (library : Library) :
    ∃ after, Recorded library after ∧
      (reload id location content).run library = (.error (.document location fault), after) := by
  obtain ⟨staged, recorded, hstage⟩ := stage_run id location content library
  rw [h] at hstage
  exact ⟨staged, recorded, by simp [reload, hstage]⟩

/-- What replacing a table by a document that can be read comes to. -/
theorem reload_run {content : Markup.Stream} {entries : List Entry}
    (h : Document.entriesOf content = .ok entries) (id : TableId) (location : String)
    (library : Library) :
    ∃ staged after, Recorded library staged ∧
      Recorded ((insertAll id false (phrasesOf entries).1).run
        (modifyTable id Table.cleared staged)).2 after ∧
      (reload id location content).run library =
        let collisions := ((insertAll id false (phrasesOf entries).1).run
          (modifyTable id Table.cleared staged)).1
        (.ok ⟨(after.table id).entries.size, (phrasesOf entries).2 ++ collisions⟩, after) := by
  obtain ⟨staged, unread, read⟩ := stage_run id location content library
  rw [h] at read
  rw [reload, run_bind, read]
  exact ⟨staged, _, unread, ⟨_, rfl⟩, rfl⟩

/-- A document that can be read takes the place of what the table held. -/
theorem reload_of_entries {content : Markup.Stream} {entries : List Entry}
    (h : Document.entriesOf content = .ok entries) {id : TableId} (location : String)
    {library : Library} (known : id ∈ library.tables) :
    ∃ report after, (reload id location content).run library = (.ok report, after) ∧
      Replaced id entries library after report.rejected.length := by
  obtain ⟨staged, after, recorded, logged, run⟩ := reload_run h id location library
  have unread := recorded.sameBut id
  have known := (unread.known id).2 known
  have cleared : (modifyTable id Table.cleared staged).table id = (library.table id).cleared := by
    rw [table_modifyTable_self known, recorded.table]
  have frame := unread.trans (sameBut_modifyTable id Table.cleared staged)
  have added := added_insertAll id (phrasesOf entries).1 _ ((frame.known id).2 ‹_›)
  exact ⟨_, after, run, .of_added frame cleared added logged⟩

end Library

end Phrasebook
