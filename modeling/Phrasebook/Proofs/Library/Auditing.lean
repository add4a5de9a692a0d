import Phrasebook.Proofs.Library.Normalizing

/-!
# Audits and loads

An audit and a load read the same document to its end, so they fail together. They count what is wrong
differently: the audit notes the keys of all entries and the table only those of the entries that have a
phrase. So an audit finds at least as much as a load leaves out, the two agree where every entry has a
phrase, and nothing is found exactly if nothing is left out. Then every way to load the document into an
empty table leads to the same phrases, one for each entry.
-/

namespace Phrasebook

open Phrasebook.Document (Entry Section Audit entriesOf)

/-! ## Findings -/

namespace Document.Audit

/-- What taking entries leads to: how much was found, and which keys are known. -/
structure Progress.Takes (allowReserved : Bool) (entries : List Entry) (before after : Progress) :
    Prop where
  found : after.audit.findings.length + after.seen.size =
    before.audit.findings.length + before.seen.size + entries.length +
      (entries.filterMap (textDefect? allowReserved)).length
  seen : ∀ key, key ∈ after.seen ↔ key ∈ before.seen ∨ key ∈ entries.map Entry.key

namespace Progress.Takes

variable {allowReserved : Bool} {entries others : List Entry} {before middle after : Progress}

theorem nothing {found : Audit} (same : found.findings = before.audit.findings) :
    Takes allowReserved [] before { before with audit := found } where
  found := by simp [same]
  seen key := by simp

theorem append (first : Takes allowReserved entries before middle)
    (second : Takes allowReserved others middle after) :
    Takes allowReserved (entries ++ others) before after where
  found := by
    rw [second.found, first.found, List.length_append, List.filterMap_append, List.length_append]
    omega
  seen key := by rw [second.seen, first.seen, List.map_append, List.mem_append, or_assoc]

end Progress.Takes

variable {allowReserved : Bool}

theorem takes_takeEntry (path : String) (progress : Progress) (entry : Entry) :
    progress.Takes allowReserved [entry] (progress.takeEntry allowReserved path entry) where
  found := by
    have counted : (progress.takeEntry allowReserved path entry).audit.findings.length =
        progress.audit.findings.length + (textDefect? allowReserved entry).toList.length +
          progress.seen[entry.key]?.toList.length := by
      simp [Progress.takeEntry, Nat.add_assoc]
    have text : ([entry].filterMap (textDefect? allowReserved)).length =
        (textDefect? allowReserved entry).toList.length := by
      cases defect : textDefect? allowReserved entry <;> simp [defect]
    have seen : (progress.takeEntry allowReserved path entry).seen =
        progress.seen.insert entry.key path := rfl
    rw [counted, text, seen, Std.TreeMap.size_insert]
    -- A key that is known is found once more, and any other key is known from now on.
    by_cases known : progress.seen.contains entry.key = true
    · obtain ⟨first, held⟩ := exists_getElem?_of_mem known
      rw [if_pos known, held, Option.toList_some, List.length_singleton, List.length_singleton]
      omega
    · rw [if_neg known, Std.TreeMap.getElem?_eq_none known, Option.toList_none,
        List.length_singleton, List.length_nil]
      omega
  seen key := by
    have seen : (progress.takeEntry allowReserved path entry).seen =
        progress.seen.insert entry.key path := rfl
    rw [seen, Std.TreeMap.mem_insert, Std.LawfulEqOrd.compare_eq_iff_eq]
    simp [or_comm, eq_comm]

theorem takes_takeEntries (path : String) (progress : Progress) (entries : List Entry) :
    progress.Takes allowReserved entries
      (entries.foldl (Progress.takeEntry allowReserved path) progress) := by
  induction entries generalizing progress with
  | nil => exact .nothing rfl
  | cons entry entries ih =>
    exact (takes_takeEntry path progress entry).append (ih (progress.takeEntry allowReserved path entry))

theorem takes_takeAll (progress : Progress) (contents : List Section) :
    progress.Takes allowReserved (contents.flatMap Section.entries)
      (contents.foldl (Progress.take allowReserved) progress) := by
  induction contents generalizing progress with
  | nil => exact .nothing rfl
  | cons content contents ih =>
    have begun : progress.Takes allowReserved []
        { progress with
          audit := { progress.audit with sections := progress.audit.sections + 1 } } :=
      .nothing rfl
    have first := begun.append (takes_takeEntries content.origin.path _ content.entries)
    exact first.append (ih (progress.take allowReserved content))

/-- The keys that entries have, and what an audit of the entries finds: a text that is wrong counts once,
and a key counts as often as it comes again. -/
structure Counts (allowReserved : Bool) (entries : List Entry) (audit : Audit)
    (keys : List String) : Prop where
  nodup : keys.Nodup
  mem : ∀ key, key ∈ keys ↔ key ∈ entries.map Entry.key
  found : audit.findings.length + keys.length =
    entries.length + (entries.filterMap (textDefect? allowReserved)).length

theorem counts_takeAll (contents : List Section) :
    ∃ keys, Counts allowReserved (contents.flatMap Section.entries)
      (contents.foldl (Progress.take allowReserved) {}).audit keys := by
  have taken := @takes_takeAll allowReserved {} contents
  refine ⟨(contents.foldl (Progress.take allowReserved) {}).seen.keys, Std.TreeMap.nodup_keys, ?_, ?_⟩
  · intro key
    rw [Std.TreeMap.mem_keys, taken.seen]
    simp
  · rw [Std.TreeMap.length_keys, taken.found]
    simp

theorem isClean_iff {audit : Audit} : audit.isClean ↔ audit.findings.length = 0 := by
  rw [isClean, List.isEmpty_iff_length_eq_zero]

/-- An audit succeeds exactly if the document can be read to its end. -/
theorem ofStream_of_entriesOf (content : Markup.Stream) (allowReserved : Bool) :
    match entriesOf content with
    | .error fault => ofStream content allowReserved = .error fault
    | .ok entries => ∃ audit keys, ofStream content allowReserved = .ok audit ∧
        Counts allowReserved entries audit keys := by
  cases opens : Document.ofStream content with
  | error fault =>
    rw [entriesOf, ofStream, opens]
    rfl
  | ok opened =>
    cases reads : opened.sections.all with
    | error fault =>
      rw [entriesOf, ofStream, opens]
      dsimp only [bind, Except.bind]
      rw [reads]
      rfl
    | ok contents =>
      obtain ⟨keys, counts⟩ := @counts_takeAll allowReserved contents
      rw [entriesOf_of_reads opens reads]
      exact ⟨_, keys, audit_of_reads opens reads allowReserved, counts⟩

/-- A text that has no phrase is a defect whatever is allowed. -/
theorem isSome_textDefect?_of_error {entry : Entry} {error : TemplateError}
    (read : entry.phrase = .error error) (allowReserved : Bool) :
    (textDefect? allowReserved entry).isSome := by
  rw [textDefect?, read]
  rfl

/-- Where reserved names are allowed, a text that has a phrase is no defect. -/
theorem textDefect?_of_phrase {entry : Entry} {phrase : Phrase} (read : entry.phrase = .ok phrase) :
    textDefect? true entry = none := by
  simp [textDefect?, read]

/-- An audit that allows reserved names finds no more wrong texts than one that does not. -/
theorem length_filterMap_textDefect? (entries : List Entry) (allowReserved : Bool) :
    (entries.filterMap (textDefect? true)).length ≤
      (entries.filterMap (textDefect? allowReserved)).length := by
  induction entries with
  | nil => exact Nat.le_refl _
  | cons entry entries ih =>
    cases read : entry.phrase with
    | error error =>
      obtain ⟨first, defect⟩ := Option.isSome_iff_exists.1 (isSome_textDefect?_of_error read true)
      obtain ⟨second, other⟩ :=
        Option.isSome_iff_exists.1 (isSome_textDefect?_of_error read allowReserved)
      rw [List.filterMap_cons_some defect, List.filterMap_cons_some other]
      exact Nat.succ_le_succ ih
    | ok phrase =>
      rw [List.filterMap_cons_none (textDefect?_of_phrase read)]
      calc
        _ ≤ (entries.filterMap (textDefect? allowReserved)).length := ih
        _ ≤ _ := ((List.sublist_cons_self entry entries).filterMap _).length_le

end Document.Audit

/-! ## Loads of clean documents -/

theorem LoadReport.isClean_iff {report : LoadReport} :
    report.isClean ↔ report.rejected.length = 0 := by
  rw [isClean, List.isEmpty_iff_length_eq_zero]

namespace Library

theorem names_phrasesOf (entries : List Entry) :
    ((phrasesOf entries).1.map Phrase.name).Sublist (entries.map Entry.key) := by
  induction entries with
  | nil => exact .slnil
  | cons entry entries ih =>
    rw [phrasesOf, List.map_cons]
    cases read : entry.phrase with
    | error error => exact ih.cons _
    | ok phrase =>
      rw [← entry.name_of_phrase_eq_ok read]
      exact ih.cons_cons _

/-- Where no name comes twice, the phrases of a name are the first one. -/
theorem filter_name_of_nodup {phrases : List Phrase} (distinct : (phrases.map Phrase.name).Nodup)
    (key : String) : phrases.filter (·.name = key) = (phrases.find? (·.name = key)).toList := by
  induction phrases with
  | nil => rfl
  | cons phrase phrases ih =>
    obtain ⟨new, distinct⟩ := List.nodup_cons.1 distinct
    by_cases same : phrase.name = key
    · have others : phrases.filter (·.name = key) = [] := by
        apply List.filter_eq_nil_iff.2
        intro other mem named
        apply new
        rw [same, ← of_decide_eq_true named]
        exact List.mem_map_of_mem mem
      simp [same, others]
    · simp [same, ih distinct]

theorem phrase?_of_blank {table : Table} (blank : table.entries.isEmpty) (key : String) :
    table.phrase? key = none := by
  rw [Table.phrase?, Std.TreeMap.getElem?_eq_none (Std.TreeMap.not_mem_of_isEmpty blank)]
  rfl

/-- A clean document makes a blank table hold its phrases, whatever may be overwritten. -/
theorem Filled.mirrors {id : TableId} {overwrite : Bool} {entries : List Entry}
    {before after : Library} {errors : List EntryError}
    (filled : Filled id overwrite (phrasesOf entries).1 before after errors)
    (blank : (before.table id).entries.isEmpty) (clean : Document.Clean entries) :
    (after.table id).Mirrors entries 0 := by
  have definitions (key : String) :
      (after.table id).entries[key]?.map Shared.phrase = Document.definition? key entries := by
    have settled := filled.settled key 0
    rw [filter_name_of_nodup (clean.distinct.sublist (names_phrasesOf entries)),
      phrase?_of_blank blank, find?_phrasesOf] at settled
    cases first : Document.definition? key entries with
    | none =>
      rw [first] at settled
      exact (Prod.mk.inj settled).1.symm
    | some phrase =>
      rw [first] at settled
      exact (Prod.mk.inj settled).1.symm
  constructor
  · exact definitions
  · rw [Nat.zero_add]
    exact clean.size_eq definitions

/-- A table without entries mirrors the entries that are put into it. -/
theorem Added.mirrors {id : TableId} {entries : List Entry} {before after : Library}
    {collisions : List EntryError} (added : Added id (phrasesOf entries).1 before after collisions)
    (blank : (before.table id).entries.isEmpty) :
    (after.table id).Mirrors entries ((phrasesOf entries).2 ++ collisions).length := by
  constructor
  · intro key
    rw [added.definitions,
      Std.TreeMap.getElem?_eq_none (Std.TreeMap.not_mem_of_isEmpty blank), find?_phrasesOf]
    rfl
  · have counted := added.complete
    have all := length_phrasesOf entries
    have nothing : (before.table id).entries.size = 0 := by
      rw [Std.TreeMap.isEmpty_eq_size_eq_zero] at blank
      simpa using blank
    rw [List.length_append]
    omega

section

variable {content : Markup.Stream} {entries : List Entry} (read : entriesOf content = .ok entries)
  {id : TableId} {library : Library} (known : id ∈ library.tables)

include read known

theorem populate_mirrors (blank : (library.table id).entries.isEmpty) :
    ∃ report after, (populate id content false).run library = (.ok report, after) ∧
      (after.table id).Mirrors entries report.rejected.length := by
  obtain ⟨staged, after, unread, logged, run⟩ := populate_run read id false library
  have added := added_insertAll id (phrasesOf entries).1 staged (((unread.sameBut id).known id).2 known)
  have mirrors := added.mirrors (by rwa [unread.table])
  refine ⟨_, after, run, ?_⟩
  rw [logged.table]
  exact mirrors

theorem populate_mirrors_of_clean (blank : (library.table id).entries.isEmpty)
    (clean : Document.Clean entries) (overwrite : Bool) :
    (((populate id content overwrite).run library).2.table id).Mirrors entries 0 := by
  obtain ⟨collisions, after, run, filled⟩ := populate_of_entries read overwrite known
  rw [run]
  exact filled.mirrors blank clean

theorem reload_mirrors_of_clean (clean : Document.Clean entries) (location : String) :
    (((reload id location content).run library).2.table id).Mirrors entries 0 := by
  obtain ⟨report, after, run, replaced⟩ := reload_of_entries read location known
  have nothing := replaced.mirrors.rejected_eq_zero clean
  rw [run, ← nothing]
  exact replaced.mirrors

end

/-! ## Agreement -/

/-- What an audit that allows reserved names and one that does not say about a load of the entries. -/
structure Judged (lenient strict : Audit) (entries : List Entry) (report : LoadReport) : Prop where
  clean : lenient.isClean ↔ report.isClean
  bound : report.rejected.length ≤ lenient.findings.length
  exact_of_phrases : (∀ entry ∈ entries, ∃ phrase, entry.phrase = .ok phrase) →
    report.rejected.length = lenient.findings.length
  strict : strict.isClean → report.isClean

section

variable {entries : List Entry} {audit : Audit} {keys : List String} {table : Table} {rejected : Nat}
  (counts : audit.Counts true entries keys) (mirrors : table.Mirrors entries rejected)

include counts mirrors

/-- A key of which the table has no phrase belongs to an entry that has none. -/
theorem rejected_le_findings : rejected ≤ audit.findings.length := by
  let wrong := entries.filter fun entry ↦ (Audit.textDefect? true entry).isSome
  have covered : keys ⊆ table.entries.keys ++ wrong.map Entry.key := by
    intro key mem
    obtain ⟨entry, held, rfl⟩ := List.mem_map.1 ((counts.mem key).1 mem)
    apply List.mem_append.2
    cases read : entry.phrase with
    | ok phrase =>
      left
      rw [Table.mem_keys_iff mirrors.definitions, Document.isSome_definition?_iff]
      exact ⟨entry, held, rfl, by rw [read]; rfl⟩
    | error error =>
      right
      apply List.mem_map_of_mem
      exact List.mem_filter.2 ⟨held, Audit.isSome_textDefect?_of_error read true⟩
  have short := (counts.nodup.subperm covered).length_le
  have defects : wrong.length = (entries.filterMap (Audit.textDefect? true)).length := by
    rw [List.length_filterMap_eq_countP, List.countP_eq_length_filter]
  have found := counts.found
  have complete := mirrors.complete
  rw [List.length_append, List.length_map, Std.TreeMap.length_keys] at short
  omega

/-- Where every entry has a phrase, the table has the keys that the audit knows. -/
theorem rejected_eq_findings (phrases : ∀ entry ∈ entries, ∃ phrase, entry.phrase = .ok phrase) :
    rejected = audit.findings.length := by
  have same (key : String) : key ∈ table.entries.keys ↔ key ∈ keys := by
    rw [Table.mem_keys_iff mirrors.definitions, Document.isSome_definition?_iff_mem phrases,
      counts.mem]
  have length := ((List.perm_ext_iff_of_nodup Std.TreeMap.nodup_keys counts.nodup).2 same).length_eq
  have none_wrong : entries.filterMap (Audit.textDefect? true) = [] := by
    apply List.filterMap_eq_nil_iff.2
    intro entry held
    obtain ⟨phrase, read⟩ := phrases entry held
    exact Audit.textDefect?_of_phrase read
  have found := counts.found
  have complete := mirrors.complete
  rw [Std.TreeMap.length_keys] at length
  rw [none_wrong, List.length_nil] at found
  omega

end

theorem length_findings_le {entries : List Entry} {lenient strict : Audit} {keys others : List String}
    (counts : lenient.Counts true entries keys) (counts_strict : strict.Counts false entries others) :
    lenient.findings.length ≤ strict.findings.length := by
  have same : ∀ key, key ∈ keys ↔ key ∈ others :=
    fun key ↦ (counts.mem key).trans (counts_strict.mem key).symm
  have length := ((List.perm_ext_iff_of_nodup counts.nodup counts_strict.nodup).2 same).length_eq
  have defects := Audit.length_filterMap_textDefect? entries false
  have found := counts.found
  have found_strict := counts_strict.found
  omega

/-- A lenient and a strict audit of the same entries against what a load left in the table. -/
theorem judged {entries : List Entry} {lenient strict : Audit} {keys others : List String}
    {table : Table} {report : LoadReport} (counts : lenient.Counts true entries keys)
    (counts_strict : strict.Counts false entries others)
    (mirrors : table.Mirrors entries report.rejected.length) :
    Judged lenient strict entries report := by
  have bound := rejected_le_findings counts mirrors
  have clean_of_lenient : lenient.isClean → report.isClean := by
    rw [Audit.isClean_iff, LoadReport.isClean_iff]
    omega
  constructor
  · refine ⟨clean_of_lenient, fun clean ↦ ?_⟩
    rw [LoadReport.isClean_iff] at clean
    rw [clean] at mirrors
    rw [Audit.isClean_iff, ← rejected_eq_findings counts mirrors mirrors.clean.phrases]
  · exact bound
  · exact rejected_eq_findings counts mirrors
  · intro clean
    apply clean_of_lenient
    have fewer := length_findings_le counts counts_strict
    rw [Audit.isClean_iff] at clean ⊢
    omega

/-- An audit fails exactly if a load fails, with the same fault. Otherwise the loads of a document into an
empty table, by populating it or by reloading it, are judged by the audits: with reserved names allowed, an
audit finds nothing exactly if a load leaves out nothing, it never finds less, and it finds as much where
every entry has a phrase; with reserved names refused, nothing found is nothing left out. A document in
which nothing is found leads to the same table by all ways of loading it, with a phrase for each entry. -/
theorem audit_and_loading_agree (content : Markup.Stream) {id : TableId} {library : Library}
    (known : id ∈ library.tables) (blank : (library.table id).entries.isEmpty) (location : String) :
    (∀ allowReserved fault,
      (Audit.ofStream content allowReserved = .error fault ↔
        ((populate id content false).run library).1 =
          .error (.document ((library.table id).status.location.getD (library.table id).name)
            fault)) ∧
      (Audit.ofStream content allowReserved = .error fault ↔
        ((reload id location content).run library).1 = .error (.document location fault))) ∧
    ∀ lenient, Audit.ofStream content true = .ok lenient →
      ∃ entries strict populated reloaded,
        entriesOf content = .ok entries ∧ Audit.ofStream content false = .ok strict ∧
        ((populate id content false).run library).1 = .ok populated ∧
        ((reload id location content).run library).1 = .ok reloaded ∧
        Judged lenient strict entries populated ∧ Judged lenient strict entries reloaded ∧
        (lenient.isClean →
          (∀ overwrite,
            (((populate id content overwrite).run library).2.table id).Mirrors entries 0) ∧
          (((reload id location content).run library).2.table id).Mirrors entries 0) := by
  have audits := Audit.ofStream_of_entriesOf content
  cases read : entriesOf content with
  | error fault =>
    rw [read] at audits
    obtain ⟨_, -, populates⟩ := populate_of_fault read id false library
    obtain ⟨_, -, reloads⟩ := reload_of_fault read id location library
    refine ⟨fun allowReserved other ↦ ?_, fun lenient audited ↦ ?_⟩
    · rw [audits allowReserved, populates, reloads]
      simp
    · rw [audits true] at audited
      cases audited
  | ok entries =>
    rw [read] at audits
    obtain ⟨populated, _, populates, mirrors⟩ := populate_mirrors read known blank
    obtain ⟨reloaded, _, reloads, replaced⟩ := reload_of_entries read location known
    refine ⟨fun allowReserved other ↦ ?_, fun lenient audited ↦ ?_⟩
    · obtain ⟨audit, _, succeeds, -⟩ := audits allowReserved
      rw [succeeds, populates, reloads]
      simp
    · obtain ⟨audit, keys, succeeds, counts⟩ := audits true
      obtain rfl : audit = lenient := Except.ok.inj (succeeds.symm.trans audited)
      obtain ⟨strict, others, succeeds_strict, counts_strict⟩ := audits false
      refine ⟨entries, strict, populated, reloaded, rfl, succeeds_strict, ?_, ?_,
        judged counts counts_strict mirrors, judged counts counts_strict replaced.mirrors,
        fun clean ↦ ?_⟩
      · rw [populates]
      · rw [reloads]
      · have nothing := (judged counts counts_strict mirrors).clean.1 clean
        rw [LoadReport.isClean_iff] at nothing
        rw [nothing] at mirrors
        exact ⟨populate_mirrors_of_clean read known blank mirrors.clean,
          reload_mirrors_of_clean read known mirrors.clean location⟩

/-- A key that comes again after an entry of it had no phrase: the audit finds both, and the table leaves
out the first only. -/
theorem audit_and_loading_agree_greetings :
    let content := Markup.Stream.ofBytes (["<StringTable><File SourcePath='hud.rs'>",
      "<String Name='hi'>\x7b</String><String Name='hi'>Hi {this}</String>",
      "</File></StringTable>"].flatMap Text.Utf8.encode)
    let library : Library := { tables := (∅ : Std.TreeMap TableId Table).insert 0 { name := "hud" } }
    0 ∈ library.tables ∧ (library.table 0).entries.isEmpty ∧
      ∃ lenient, Audit.ofStream content true = .ok lenient ∧ lenient.findings.length = 2 ∧
        ∃ entries strict populated, entriesOf content = .ok entries ∧
          Audit.ofStream content false = .ok strict ∧
          ((populate 0 content false).run library).1 = .ok populated ∧
          Judged lenient strict entries populated := by
  intro content library
  have known : 0 ∈ library.tables := by decide +kernel
  have blank : (library.table 0).entries.isEmpty := by decide +kernel
  obtain ⟨lenient, audited, found⟩ : ∃ lenient, Audit.ofStream content true = .ok lenient ∧
      lenient.findings.length = 2 := by
    have counted : (Audit.ofStream content true).toOption.map (·.findings.length) = some 2 := by
      decide +kernel
    obtain ⟨lenient, audited, found⟩ := Option.map_eq_some_iff.1 counted
    exact ⟨lenient, eq_ok_of_toOption audited, found⟩
  obtain ⟨entries, strict, populated, -, read, audited_strict, populates, -, judged, -⟩ :=
    (audit_and_loading_agree content known blank "s/hud_en.xml").2 lenient audited
  exact ⟨known, blank, lenient, audited, found, entries, strict, populated, read, audited_strict,
    populates, judged⟩

end Library

end Phrasebook
