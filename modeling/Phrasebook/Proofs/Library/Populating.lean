import Phrasebook.Proofs.Library.Reloading

/-!
# Tables key by key

What a table has under a key after phrases were put into it, and how often the key was refused, depends
on what the table had under the key and on the phrases of the key in their order, and on nothing else.
So lists of phrases that agree key by key lead to the same phrases and to the same refusals, although
the refusals may come in another order.
-/

namespace Phrasebook

open Phrasebook.Document (Entry Section)

def Table.phrase? (table : Table) (key : String) : Option Phrase :=
  table.entries[key]?.map Shared.phrase

namespace Library

/-! ## Putting phrases into a table -/

/-- What becomes of the phrase under a key, and of the number of refusals, when one more phrase comes. -/
def settle (overwrite : Bool) : Option Phrase × Nat → Phrase → Option Phrase × Nat
  | (none, refused), phrase => (some phrase, refused)
  | (some held, refused), phrase =>
    if overwrite then (some phrase, refused) else (some held, refused + 1)

/-- What phrases lead to under every key. -/
structure Filled (id : TableId) (overwrite : Bool) (phrases : List Phrase) (before after : Library)
    (errors : List EntryError) : Prop where
  name : (after.table id).name = (before.table id).name
  settled : ∀ key refused,
    (phrases.filter (·.name = key)).foldl (settle overwrite)
        ((before.table id).phrase? key, refused) =
      ((after.table id).phrase? key,
        refused + errors.count (.duplicateKey (before.table id).name key))
  only : ∀ error ∈ errors, ∃ key, error = .duplicateKey (before.table id).name key

namespace Filled

variable {id : TableId} {overwrite : Bool} {phrases more : List Phrase}
  {before middle after : Library} {errors others : List EntryError}

theorem nil (library : Library) : Filled id overwrite [] library library [] where
  name := rfl
  settled _ _ := rfl
  only := List.forall_mem_nil _

theorem append (first : Filled id overwrite phrases before middle errors)
    (second : Filled id overwrite more middle after others) :
    Filled id overwrite (phrases ++ more) before after (errors ++ others) where
  name := second.name.trans first.name
  settled key refused := by
    rw [List.filter_append, List.foldl_append, first.settled, second.settled, first.name,
      List.count_append, Nat.add_assoc]
  only error h := by
    rcases List.mem_append.1 h with h | h
    · exact first.only error h
    · rw [← first.name]
      exact second.only error h

theorem of_taken {phrase : Phrase} (table : after.table id = before.table id)
    (taken : phrase.name ∈ (before.table id).entries) :
    Filled id false [phrase] before after [.duplicateKey (before.table id).name phrase.name] where
  name := by rw [table]
  settled key refused := by
    rw [table]
    by_cases same : phrase.name = key
    · subst same
      obtain ⟨shared, held⟩ := exists_getElem?_of_mem taken
      simp [Table.phrase?, held, settle]
    · simp [same]
  only error h := ⟨phrase.name, List.mem_singleton.1 h⟩

theorem of_put {shared : Shared}
    (table : after.table id = { before.table id with
      entries := (before.table id).entries.insert shared.phrase.name shared })
    (free : overwrite = true ∨ shared.phrase.name ∉ (before.table id).entries) :
    Filled id overwrite [shared.phrase] before after [] where
  name := by rw [table]
  settled key refused := by
    rw [table]
    by_cases same : shared.phrase.name = key
    · subst same
      cases held : (before.table id).entries[shared.phrase.name]? with
      | none => simp [Table.phrase?, held, settle]
      | some other =>
        have mem : shared.phrase.name ∈ (before.table id).entries :=
          Std.TreeMap.isSome_getElem?_iff_mem.1 (Option.isSome_of_eq_some held)
        have overwrites := free.resolve_right (not_not_intro mem)
        simp [Table.phrase?, held, settle, overwrites]
    · simp [Table.phrase?, Std.TreeMap.getElem?_insert, same]
  only := List.forall_mem_nil _

end Filled

/-- One phrase settles its own key and no other. -/
theorem filled_insert (id : TableId) (phrase : Phrase) (overwrite : Bool) {library : Library}
    (known : id ∈ library.tables) :
    Filled id overwrite [phrase] library ((insert id phrase overwrite).run library).2
      (errorsOf ((insert id phrase overwrite).run library).1) := by
  by_cases refused : (!overwrite && (library.table id).entries.contains phrase.name) = true
  · obtain ⟨keeps, taken⟩ := Bool.and_eq_true_iff.1 refused
    obtain rfl : overwrite = false := by simpa using keeps
    rw [insert_run, if_pos refused]
    exact .of_taken (table_eq_of_tables_eq rfl id) taken
  · have free : overwrite = true ∨ phrase.name ∉ (library.table id).entries := by
      cases overwrite with
      | true => exact .inl rfl
      | false => exact .inr refused
    rw [insert_run, if_neg refused]
    exact @Filled.of_put id overwrite library _ ⟨library.nextIdentity, phrase⟩
      (table_modifyTable_self known) free

theorem filled_insertAll (id : TableId) (phrases : List Phrase) (overwrite : Bool)
    {library : Library} (known : id ∈ library.tables) :
    Filled id overwrite phrases library ((insertAll id overwrite phrases).run library).2
      ((insertAll id overwrite phrases).run library).1 :=
  @insertAll_induction id overwrite (Filled id overwrite) .nil (fun _ _ _ _ _ _ _ ↦ .append)
    (fun phrase _ ↦ filled_insert id phrase overwrite) phrases library known

/-- Phrases that agree key by key lead to the same phrases under every key, and to the same refusals. -/
theorem Filled.agree {id : TableId} {overwrite : Bool} {phrases more : List Phrase}
    {before start after final : Library} {errors others : List EntryError}
    (first : Filled id overwrite phrases before after errors)
    (second : Filled id overwrite more start final others)
    (table : start.table id = before.table id)
    (agree : ∀ key : String, phrases.filter (·.name = key) = more.filter (·.name = key)) :
    (∀ key, (final.table id).phrase? key = (after.table id).phrase? key) ∧ others.Perm errors := by
  have both (key : String) :
      ((after.table id).phrase? key,
          0 + errors.count (.duplicateKey (before.table id).name key)) =
        ((final.table id).phrase? key,
          0 + others.count (.duplicateKey (before.table id).name key)) := by
    have settled := second.settled key 0
    rw [table, ← agree, first.settled] at settled
    exact settled
  -- The refusals come in the order of the phrases, but each names its key, so they are counted by key.
  refine ⟨fun key ↦ (Prod.mk.inj (both key)).1.symm, List.perm_iff_count.2 fun error ↦ ?_⟩
  by_cases duplicate : ∃ key, error = .duplicateKey (before.table id).name key
  · obtain ⟨key, rfl⟩ := duplicate
    have counts := (Prod.mk.inj (both key)).2
    rw [Nat.zero_add, Nat.zero_add] at counts
    exact counts.symm
  · have first_none : error ∉ errors := fun h ↦ duplicate (first.only error h)
    have second_none : error ∉ others := fun h ↦ duplicate (table ▸ second.only error h)
    rw [List.count_eq_zero_of_not_mem first_none, List.count_eq_zero_of_not_mem second_none]

/-! ## Loading documents -/

theorem Filled.recorded {id : TableId} {overwrite : Bool} {phrases : List Phrase}
    {before staged filled after : Library} {errors : List EntryError}
    (unread : Recorded before staged) (filling : Filled id overwrite phrases staged filled errors)
    (logged : Recorded filled after) : Filled id overwrite phrases before after errors := by
  have read := unread.table id
  have kept := logged.table id
  refine ⟨?_, ?_, ?_⟩
  · rw [kept, filling.name, read]
  · rw [kept, ← read]
    exact filling.settled
  · rw [← read]
    exact filling.only

/-- A document that cannot be read changes nothing. -/
theorem populate_of_fault {content : Markup.Stream} {fault : Document.Fault}
    (h : Document.entriesOf content = .error fault) (id : TableId) (overwrite : Bool)
    (library : Library) :
    ∃ after, Recorded library after ∧ (populate id content overwrite).run library =
      (.error (.document ((library.table id).status.location.getD (library.table id).name) fault),
        after) := by
  obtain ⟨staged, recorded, read⟩ :=
    stage_run id ((library.table id).status.location.getD (library.table id).name) content library
  rw [h] at read
  refine ⟨staged, recorded, ?_⟩
  simp [populate, read]

/-- What populating a table from a document that can be read comes to. -/
theorem populate_run {content : Markup.Stream} {entries : List Entry}
    (h : Document.entriesOf content = .ok entries) (id : TableId) (overwrite : Bool)
    (library : Library) :
    ∃ staged after, Recorded library staged ∧
      Recorded ((insertAll id overwrite (phrasesOf entries).1).run staged).2 after ∧
      (populate id content overwrite).run library =
        let collisions := ((insertAll id overwrite (phrasesOf entries).1).run staged).1
        (.ok ⟨(phrasesOf entries).1.length - collisions.length,
          (phrasesOf entries).2 ++ collisions⟩, after) := by
  obtain ⟨staged, unread, read⟩ :=
    stage_run id ((library.table id).status.location.getD (library.table id).name) content library
  rw [h] at read
  simp only [populate, run_bind, run_get, read]
  exact ⟨staged, _, unread, ⟨_, rfl⟩, rfl⟩

/-- A document that can be read is put into the table. -/
theorem populate_of_entries {content : Markup.Stream} {entries : List Entry}
    (h : Document.entriesOf content = .ok entries) {id : TableId} (overwrite : Bool)
    {library : Library} (known : id ∈ library.tables) :
    ∃ collisions after,
      (populate id content overwrite).run library =
        (.ok ⟨(phrasesOf entries).1.length - collisions.length,
          (phrasesOf entries).2 ++ collisions⟩, after) ∧
      Filled id overwrite (phrasesOf entries).1 library after collisions := by
  obtain ⟨staged, after, unread, logged, run⟩ := populate_run h id overwrite library
  have filling := filled_insertAll id (phrasesOf entries).1 overwrite
    (((unread.sameBut id).known id).2 known)
  exact ⟨_, after, run, filling.recorded unread logged⟩

/-- What replacing a table comes to, told from the table without its entries. -/
theorem reload_run_cleared {content : Markup.Stream} {entries : List Entry}
    (h : Document.entriesOf content = .ok entries) {id : TableId} (location : String)
    {library : Library} (known : id ∈ library.tables) :
    ∃ cleared after, Recorded (modifyTable id Table.cleared library) cleared ∧ id ∈ cleared.tables ∧
      Recorded ((insertAll id false (phrasesOf entries).1).run cleared).2 after ∧
      (reload id location content).run library =
        let collisions := ((insertAll id false (phrasesOf entries).1).run cleared).1
        (.ok ⟨(after.table id).entries.size, (phrasesOf entries).2 ++ collisions⟩, after) := by
  obtain ⟨staged, after, unread, logged, run⟩ := reload_run h id location library
  have frame := (unread.sameBut id).trans (sameBut_modifyTable id Table.cleared staged)
  have cleared : Recorded (modifyTable id Table.cleared library)
      (modifyTable id Table.cleared staged) := by
    obtain ⟨journal, rfl⟩ := unread
    exact ⟨journal, rfl⟩
  exact ⟨_, after, cleared, (frame.known id).2 known, logged, run⟩

/-- A document that can be read takes the place of what the table had. -/
theorem reload_fills {content : Markup.Stream} {entries : List Entry}
    (h : Document.entriesOf content = .ok entries) {id : TableId} (location : String)
    {library : Library} (known : id ∈ library.tables) :
    ∃ collisions after,
      (reload id location content).run library =
        (.ok ⟨(after.table id).entries.size, (phrasesOf entries).2 ++ collisions⟩, after) ∧
      Filled id false (phrasesOf entries).1 (modifyTable id Table.cleared library) after
        collisions := by
  obtain ⟨cleared, after, unread, known, logged, run⟩ := reload_run_cleared h location known
  have filling := filled_insertAll id (phrasesOf entries).1 false known
  exact ⟨_, after, run, filling.recorded unread logged⟩

/-- Entries that make the same phrases of every key, and the same errors in whatever order. -/
structure Alike (entries others : List Entry) : Prop where
  phrases : ∀ key : String,
    (phrasesOf entries).1.filter (·.name = key) = (phrasesOf others).1.filter (·.name = key)
  errors : (phrasesOf others).2.Perm (phrasesOf entries).2

theorem Alike.length {entries others : List Entry} (alike : Alike entries others) :
    (phrasesOf others).1.length = (phrasesOf entries).1.length := by
  refine List.Perm.length_eq (List.perm_iff_count.2 fun phrase ↦ ?_)
  have named (phrases : List Phrase) :
      (phrases.filter (·.name = phrase.name)).count phrase = phrases.count phrase :=
    List.count_filter (decide_eq_true rfl)
  rw [← named, ← alike.phrases, named]

/-- Two loads came to the same: there are the same phrases under the same keys, and the same errors in
whatever order. -/
structure SameLoad (id : TableId) (first second : Except TableError LoadReport × Library) : Prop where
  phrases : ∀ key, (second.2.table id).phrase? key = (first.2.table id).phrase? key
  reports : ∃ report other, first.1 = .ok report ∧ second.1 = .ok other ∧
    other.loaded = report.loaded ∧ other.rejected.Perm report.rejected

/-- Tables with the same phrases have as many. -/
theorem size_eq_of_phrases {table other : Table}
    (same : ∀ key, other.phrase? key = table.phrase? key) :
    other.entries.size = table.entries.size := by
  have keys (key : String) : key ∈ other.entries.keys ↔ key ∈ table.entries.keys := by
    rw [Std.TreeMap.mem_keys, Std.TreeMap.mem_keys, ← Std.TreeMap.isSome_getElem?_iff_mem,
      ← Std.TreeMap.isSome_getElem?_iff_mem, ← Option.isSome_map (f := Shared.phrase),
      ← Option.isSome_map (f := Shared.phrase)]
    exact iff_of_eq (congrArg (·.isSome = true) (same key))
  have perm := (List.perm_ext_iff_of_nodup Std.TreeMap.nodup_keys Std.TreeMap.nodup_keys).2 keys
  rw [← Std.TreeMap.length_keys, ← Std.TreeMap.length_keys, perm.length_eq]

section

variable {content other : Markup.Stream} {entries others : List Entry}
  (alike : Alike entries others) (read : Document.entriesOf content = .ok entries)
  (read_other : Document.entriesOf other = .ok others)
  {id : TableId} {library : Library} (known : id ∈ library.tables)

include alike read read_other known

theorem Alike.populate (overwrite : Bool) :
    SameLoad id ((populate id content overwrite).run library)
      ((populate id other overwrite).run library) := by
  obtain ⟨errors, after, loads, filling⟩ := populate_of_entries read overwrite known
  obtain ⟨more, final, loads_other, filling_other⟩ := populate_of_entries read_other overwrite known
  obtain ⟨phrases, perm⟩ := filling.agree filling_other rfl alike.phrases
  rw [loads, loads_other]
  refine ⟨phrases, _, _, rfl, rfl, ?_, alike.errors.append perm⟩
  dsimp only
  rw [alike.length, perm.length_eq]

theorem Alike.reload (location : String) :
    SameLoad id ((reload id location content).run library)
      ((reload id location other).run library) := by
  obtain ⟨errors, after, loads, filling⟩ := reload_fills read location known
  obtain ⟨more, final, loads_other, filling_other⟩ := reload_fills read_other location known
  obtain ⟨phrases, perm⟩ := filling.agree filling_other rfl alike.phrases
  rw [loads, loads_other]
  exact ⟨phrases, _, _, rfl, rfl, size_eq_of_phrases phrases, alike.errors.append perm⟩

end

end Library

end Phrasebook
