import Mathlib.Data.List.Dedup
import Phrasebook.Proofs.Library.Intake
import Phrasebook.Proofs.Library.Stock

/-!
# What is loaded

A report counts what was loaded: a table that is replaced counts what it has, and a table that is added
to counts the phrases that it took. The two counts mean the same, the keys that the document is behind
now, as long as no phrase of a document takes the place of another one of the same document.
-/

namespace Phrasebook

open Phrasebook.Document (Entry)

/-- The keys of a table that are bound to certain definitions. -/
def Table.boundTo (table : Table) (definitions : List Shared) : List String :=
  table.entries.keys.filter fun key ↦ table.entries[key]?.any (· ∈ definitions)

namespace Table

variable {table : Table} {definitions : List Shared} {key : String}

theorem mem_boundTo_iff :
    key ∈ table.boundTo definitions ↔ ∃ shared ∈ definitions, table.entries[key]? = some shared := by
  rw [boundTo, List.mem_filter, Option.any_eq_true]
  simp only [decide_eq_true_eq, Std.TreeMap.mem_keys]
  constructor
  · rintro ⟨-, shared, held, mem⟩
    exact ⟨shared, mem, held⟩
  · rintro ⟨shared, mem, held⟩
    exact ⟨Std.TreeMap.isSome_getElem?_iff_mem.1 (Option.isSome_of_eq_some held), shared, held, mem⟩

theorem nodup_boundTo (table : Table) (definitions : List Shared) :
    (table.boundTo definitions).Nodup := Std.TreeMap.nodup_keys.filter _

end Table

theorem le_identity_of_mem_sharedFrom {next : Nat} {phrases : List Phrase} {shared : Shared}
    (mem : shared ∈ sharedFrom next phrases) : next ≤ shared.identity := by
  induction phrases generalizing next with
  | nil => exact nomatch mem
  | cons phrase rest ih =>
    rcases List.mem_cons.1 mem with rfl | later
    · exact Nat.le_refl _
    · exact Nat.le_of_succ_le (ih later)

theorem count_name (key : String) (definitions : List Shared) :
    (definitions.map (·.phrase.name)).count key = (definitionsUnder key definitions).length := by
  rw [List.count_eq_countP, List.countP_map, List.countP_eq_length_filter, definitionsUnder]
  exact congrArg List.length (List.filter_congr fun shared _ ↦ beq_eq_decide _ _)

theorem mem_definitionsUnder_iff {key : String} {definitions : List Shared} {shared : Shared} :
    shared ∈ definitionsUnder key definitions ↔ shared ∈ definitions ∧ shared.phrase.name = key := by
  rw [definitionsUnder, List.mem_filter, decide_eq_true_iff]

namespace Library

theorem length_definitionsOf (next : Nat) (entries : List Entry) :
    (definitionsOf next entries).length + (entries.filterMap Document.Entry.error?).length =
      entries.length := by
  rw [definitionsOf, length_sharedFrom, ← phrases_phrasesOf, ← errors_phrasesOf, length_phrasesOf]

/-- No definition that a stocked library has comes from a document that it is still to load. -/
theorem Stocked.not_mem_definitionsOf {library : Library} (stocked : library.Stocked) {id : TableId}
    {key : String} {shared : Shared} (held : (library.table id).entries[key]? = some shared)
    (entries : List Entry) : shared ∉ definitionsOf library.nextIdentity entries :=
  fun mem ↦ Nat.not_lt.2 (le_identity_of_mem_sharedFrom mem) (stocked.given id key shared held)

/-! ## Adding to a table -/

namespace Populated

variable {id : TableId} {overwrite : Bool} {entries : List Entry} {before after : Library}
  {report : LoadReport} {left : List Shared}
  (populated : Populated id overwrite entries before after report left)

include populated

theorem loaded_add_length :
    report.loaded + left.length = (definitionsOf before.nextIdentity entries).length := by
  have counted := populated.counted
  have all := length_definitionsOf before.nextIdentity entries
  rw [populated.rejected, List.length_append, List.length_map] at counted
  omega

variable (stocked : before.Stocked)

include stocked

/-- Where nothing is overwritten, every definition is left out, or its key is bound to it. -/
theorem names_perm (keeps : overwrite = false) :
    ((definitionsOf before.nextIdentity entries).map (·.phrase.name)).Perm
      (left.map (·.phrase.name) ++
        (after.table id).boundTo (definitionsOf before.nextIdentity entries)) := by
  -- a key is bound at most once, so per key at most one definition is not left out
  refine List.perm_iff_count.2 fun key ↦ ?_
  rw [List.count_append, count_name, count_name, (Table.nodup_boundTo _ _).count]
  cases had : (before.table id).entries[key]? with
  | some shared =>
    obtain ⟨held, under⟩ := populated.held keeps key shared had
    rw [under, if_neg, Nat.add_zero]
    intro bound
    obtain ⟨other, mem, has⟩ := Table.mem_boundTo_iff.1 bound
    -- the key keeps what it had, and that is older than the document
    obtain rfl : other = shared := Option.some.inj (has.symm.trans held)
    exact stocked.not_mem_definitionsOf had entries mem
  | none =>
    obtain ⟨held, under⟩ := populated.new keeps key had
    rw [under]
    cases line : definitionsUnder key (definitionsOf before.nextIdentity entries) with
    | nil =>
      rw [line] at held
      rw [if_neg]
      · rfl
      · intro bound
        obtain ⟨other, -, has⟩ := Table.mem_boundTo_iff.1 bound
        cases held.symm.trans has
    | cons first rest =>
      rw [line] at held
      have mem : first ∈ definitionsOf before.nextIdentity entries :=
        (mem_definitionsUnder_iff.1 (line ▸ List.mem_cons_self)).1
      rw [if_pos (Table.mem_boundTo_iff.2 ⟨first, mem, held⟩)]
      rfl

/-- Where entries may be overwritten, the keys that are bound to definitions are the names of these. -/
theorem boundTo_perm (overwrites : overwrite = true) :
    ((after.table id).boundTo (definitionsOf before.nextIdentity entries)).Perm
      ((definitionsOf before.nextIdentity entries).map (·.phrase.name)).dedup := by
  refine (List.perm_ext_iff_of_nodup (Table.nodup_boundTo _ _) (List.nodup_dedup _)).2 fun key ↦ ?_
  have held := (populated.overwritten overwrites).2 key
  rw [Table.mem_boundTo_iff, List.mem_dedup, List.mem_map, held]
  constructor
  · rintro ⟨shared, mem, has⟩
    cases last : (definitionsUnder key (definitionsOf before.nextIdentity entries)).getLast? with
    | none =>
      rw [last] at has
      exact absurd mem (stocked.not_mem_definitionsOf has entries)
    | some other =>
      obtain ⟨mem, named⟩ := mem_definitionsUnder_iff.1 (List.mem_of_getLast? last)
      exact ⟨other, mem, named⟩
  · rintro ⟨shared, mem, named⟩
    have under := mem_definitionsUnder_iff.2 ⟨mem, named⟩
    obtain ⟨last, latest⟩ := Option.isSome_iff_exists.1 (List.getLast?_isSome.2 (List.ne_nil_of_mem under))
    rw [latest]
    exact ⟨last, (mem_definitionsUnder_iff.1 (List.mem_of_getLast? latest)).1, rfl⟩

theorem loaded_eq_iff :
    let bound := (after.table id).boundTo (definitionsOf before.nextIdentity entries)
    bound.length ≤ report.loaded ∧ (report.loaded = bound.length ↔ overwrite = false ∨
      ((definitionsOf before.nextIdentity entries).map (·.phrase.name)).Nodup) := by
  intro bound
  let names := (definitionsOf before.nextIdentity entries).map (·.phrase.name)
  have all : report.loaded + left.length = names.length :=
    populated.loaded_add_length.trans (List.length_map _).symm
  cases overwrite with
  | false =>
    have apart : names.length = left.length + bound.length := by
      rw [(populated.names_perm stocked rfl).length_eq, List.length_append, List.length_map]
    have same : report.loaded = bound.length := by omega
    exact ⟨Nat.le_of_eq same.symm, iff_of_true same (.inl rfl)⟩
  | true =>
    have distinct : bound.length = names.dedup.length :=
      (populated.boundTo_perm stocked rfl).length_eq
    have sublist : names.dedup.Sublist names := List.dedup_sublist names
    rw [(populated.overwritten rfl).1, List.length_nil, Nat.add_zero] at all
    rw [all, distinct]
    refine ⟨sublist.length_le, fun same ↦ .inr ?_, fun nodup ↦ ?_⟩
    · exact List.dedup_eq_self.1 (sublist.eq_of_length same.symm)
    · rw [List.dedup_eq_self.2 (nodup.resolve_left nofun)]

end Populated

/-! ## Replacing a table -/

/-- A table that is replaced by a document takes in the definitions of the document, and nothing else. -/
theorem reload_takenIn {content : Markup.Stream} {entries : List Entry}
    (read : Document.entriesOf content = .ok entries) {id : TableId} (location : String)
    {library : Library} (known : id ∈ library.tables) :
    ∃ collisions after,
      (reload id location content).run library =
        (.ok ⟨(after.table id).entries.size, (phrasesOf entries).2 ++ collisions⟩, after) ∧
      TakenIn id false (phrasesOf entries).1 (modifyTable id Table.cleared library) after
        collisions := by
  obtain ⟨cleared, after, unread, known, logged, run⟩ := reload_run_cleared read location known
  have taken := takenIn_insertAll id (phrasesOf entries).1 false known
  exact ⟨_, after, run, taken.recorded unread logged⟩

/-- Every key of a table that was replaced is bound to a definition of the document. -/
theorem TakenIn.boundTo_eq_keys {id : TableId} {entries : List Entry} {before after : Library}
    {errors : List EntryError}
    (taken : TakenIn id false (phrasesOf entries).1 before after errors)
    (blank : (before.table id).entries = ∅) :
    (after.table id).boundTo (definitionsOf before.nextIdentity entries) =
      (after.table id).entries.keys := by
  refine List.filter_eq_self.2 fun key listed ↦ ?_
  obtain ⟨shared, held⟩ := exists_getElem?_of_mem (Std.TreeMap.mem_keys.1 listed)
  obtain ⟨left, -, -, lines⟩ := taken.lines
  have line := (lines key).1
  rw [Table.lineAt, blank, Std.TreeMap.getElem?_emptyc, phrases_phrasesOf, held] at line
  have under := mem_definitionsUnder_iff.1 (List.mem_of_head? line.symm)
  rw [held]
  exact decide_eq_true under.1

/-- What the reports of loads count. Whatever was done before, a load that replaces the table counts the
keys that are bound to definitions of the document. A load that adds to the table counts at least these
keys, and exactly these unless entries may be overwritten and two phrases of the document have the same
name: such a phrase takes the place of the other one, and both are counted. -/
theorem loaded_counts_bound_keys_iff (deeds : List Deed) {id : TableId} {content : Markup.Stream}
    {entries : List Entry} (known : id ∈ (({} : Library).afterDeeds deeds).tables)
    (read : Document.entriesOf content = .ok entries) :
    let library := ({} : Library).afterDeeds deeds
    let definitions := definitionsOf library.nextIdentity entries
    (∀ overwrite, ∃ report after, (populate id content overwrite).run library = (.ok report, after) ∧
      let bound := (after.table id).boundTo definitions
      bound.length ≤ report.loaded ∧ (report.loaded = bound.length ↔
        overwrite = false ∨ (definitions.map (·.phrase.name)).Nodup)) ∧
    ∀ location, ∃ report after, (reload id location content).run library = (.ok report, after) ∧
      report.loaded = ((after.table id).boundTo definitions).length := by
  intro library definitions
  constructor
  · intro overwrite
    obtain ⟨report, after, left, ran, populated⟩ := populate_populated read overwrite known
    exact ⟨report, after, ran, populated.loaded_eq_iff (stocked_afterDeeds deeds)⟩
  · intro location
    obtain ⟨collisions, after, ran, taken⟩ := reload_takenIn read location known
    refine ⟨_, after, ran, ?_⟩
    have blank : ((modifyTable id Table.cleared library).table id).entries = ∅ := by
      rw [table_modifyTable_self known]
      rfl
    exact Std.TreeMap.length_keys.symm.trans (congrArg List.length (taken.boundTo_eq_keys blank).symm)

/-- A key that the table has and a key that comes twice, added and in place of what the table had. -/
theorem loaded_counts_bound_keys_iff_greetings :
    let content := Markup.Stream.ofBytes (["<StringTable><File SourcePath='hud.rs'>",
      "<Literal Name='hi'>Hi</Literal><Literal Name='bye'>Bye</Literal></File>",
      "<File SourcePath='end.rs'><Literal Name='bye'>So long</Literal></File>",
      "</StringTable>"].flatMap Text.Utf8.encode)
    let deeds : List Deed := [.create "hud" false, .change 0 (.addRaw "hi" "Hello" false)]
    let library := ({} : Library).afterDeeds deeds
    0 ∈ library.tables ∧ ∃ entries, Document.entriesOf content = .ok entries ∧
      let definitions := definitionsOf library.nextIdentity entries
      definitions.map (·.phrase.name) = ["hi", "bye", "bye"] ∧
      (∃ report after, (populate 0 content false).run library = (.ok report, after) ∧
        report.loaded = ((after.table 0).boundTo definitions).length) ∧
      (∃ report after, (populate 0 content true).run library = (.ok report, after) ∧
        report.loaded ≠ ((after.table 0).boundTo definitions).length) ∧
      ∃ report after, (reload 0 "end" content).run library = (.ok report, after) ∧
        report.loaded = ((after.table 0).boundTo definitions).length := by
  intro content deeds library
  have known : 0 ∈ library.tables := by decide +kernel
  obtain ⟨entries, read, names⟩ : ∃ entries, Document.entriesOf content = .ok entries ∧
      (definitionsOf library.nextIdentity entries).map (·.phrase.name) = ["hi", "bye", "bye"] := by
    have names : (Document.entriesOf content).toOption.map (fun entries ↦
        (definitionsOf library.nextIdentity entries).map (·.phrase.name)) =
          some ["hi", "bye", "bye"] := by
      decide +kernel
    obtain ⟨entries, read, names⟩ := Option.map_eq_some_iff.1 names
    exact ⟨entries, eq_ok_of_toOption read, names⟩
  obtain ⟨populates, reloads⟩ := loaded_counts_bound_keys_iff deeds known read
  obtain ⟨report, after, ran, -, counts⟩ := populates false
  obtain ⟨other, later, ran_over, -, counts_over⟩ := populates true
  refine ⟨known, entries, read, names, ⟨report, after, ran, counts.2 (.inl rfl)⟩,
    ⟨other, later, ran_over, fun same ↦ ?_⟩, reloads "end"⟩
  have distinct := (counts_over.1 same).resolve_left nofun
  rw [names] at distinct
  exact absurd distinct (by decide)

/-- Two entries of one key are counted, and the key is bound to the later one. -/
theorem overwritten_entry_counted :
    let content := Markup.Stream.ofBytes (["<StringTable><File SourcePath='a.rs'>",
      "<Literal Name='k'>1</Literal></File><File SourcePath='b.rs'>",
      "<Literal Name='k'>2</Literal></File></StringTable>"].flatMap Text.Utf8.encode)
    let library := ({} : Library).afterDeeds [.create "t" false]
    let loaded := (populate 0 content true).run library
    loaded.1.toOption = some ⟨2, []⟩ ∧ (loaded.2.table 0).entries.keys = ["k"] ∧
      (Document.entriesOf content).toOption.map (fun entries ↦
        (loaded.2.table 0).boundTo (definitionsOf library.nextIdentity entries)) = some ["k"] := by
  decide +kernel

end Library

end Phrasebook
