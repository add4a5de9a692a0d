import Phrasebook.Document.Audit
import Phrasebook.Proofs.Document.Stability
import Phrasebook.Proofs.Library.Populating

/-!
# Canonical forms mean the same

The canonical form of a document says what the document says: it is read back with its locale, its
sections and their entries, no hash in it is stale, and loading it comes to the same as loading the
document. The order of the entries of a section does not matter to a table, because no key comes twice
there, and the order of the sections is kept.
-/

namespace Phrasebook

open Phrasebook.Calendar Phrasebook.Markup Phrasebook.Text
open Phrasebook.Document (Entry Section Opened PlainYears)

/-! ## Phrases of a normal form -/

def Document.Entry.error? (entry : Entry) : Option EntryError :=
  match entry.phrase with
  | .ok _ => none
  | .error error => some (.template error)

namespace Library

theorem errors_phrasesOf (entries : List Entry) :
    (phrasesOf entries).2 = entries.filterMap Document.Entry.error? := by
  induction entries with
  | nil => rfl
  | cons entry entries ih =>
    rw [phrasesOf, List.filterMap_cons, Document.Entry.error?, ← ih]
    cases entry.phrase with
    | error error => rfl
    | ok phrase => rfl

theorem filter_phrasesOf (key : String) (entries : List Entry) :
    (phrasesOf entries).1.filter (·.name = key) =
      (entries.filter (·.key = key)).filterMap (·.phrase.toOption) := by
  induction entries with
  | nil => rfl
  | cons entry entries ih =>
    rw [phrasesOf, List.filter_cons]
    cases read : entry.phrase with
    | error error => by_cases same : entry.key = key <;> simp [same, read, ih, Except.toOption]
    | ok phrase =>
      have name : phrase.name = entry.key := entry.name_of_phrase_eq_ok read
      by_cases same : entry.key = key <;> simp [same, name, read, ih, Except.toOption]

end Library

namespace Document

/-- A section has at most one entry of a key, and its normal form has the normal form of that entry. -/
theorem Section.Distinct.filter_normal {content : Section} (distinct : content.Distinct)
    (key : String) :
    content.normal.entries.filter (·.key = key) =
      (content.entries.filter (·.key = key)).map Entry.normal := by
  have perm : (content.normal.entries.filter (·.key = key)).Perm
      ((content.entries.map Entry.normal).filter (·.key = key)) :=
    (sortedByKey_perm _).filter _
  -- Sorting cannot matter to a list without two different members.
  have alone : ∀ first ∈ content.normal.entries.filter (·.key = key),
      ∀ second ∈ content.normal.entries.filter (·.key = key), first = second := by
    intro first h second h'
    obtain ⟨mem, same⟩ := List.mem_filter.1 h
    obtain ⟨mem', same'⟩ := List.mem_filter.1 h'
    have found := (find?_key_eq_some_iff distinct.normal).2 ⟨mem, of_decide_eq_true same⟩
    have found' := (find?_key_eq_some_iff distinct.normal).2 ⟨mem', of_decide_eq_true same'⟩
    exact Option.some.inj (found.symm.trans found')
  have equal := perm.eq_of_pairwise (fun first second h h' _ _ ↦ alone first h second (perm.mem_iff.2 h'))
    (List.pairwise_of_forall fun _ _ ↦ trivial) (List.pairwise_of_forall fun _ _ ↦ trivial)
  rw [equal, List.filter_map]
  rfl

theorem flatMap_normal_perm (contents : List Section) :
    ((contents.map Section.normal).flatMap Section.entries).Perm
      ((contents.flatMap Section.entries).map Entry.normal) := by
  induction contents with
  | nil => exact .refl _
  | cons content contents ih =>
    rw [List.map_cons, List.flatMap_cons, List.flatMap_cons, List.map_append]
    exact (sortedByKey_perm _).append ih

/-- The phrases of every key are the same in a document and in its canonical form. -/
theorem alike_normal {contents : List Section} (distinct : ∀ content ∈ contents, content.Distinct) :
    Library.Alike (contents.flatMap Section.entries)
      ((contents.map Section.normal).flatMap Section.entries) := by
  constructor
  · intro key
    rw [Library.filter_phrasesOf, Library.filter_phrasesOf]
    induction contents with
    | nil => rfl
    | cons content contents ih =>
      obtain ⟨first, distinct⟩ := List.forall_mem_cons.1 distinct
      rw [List.map_cons, List.flatMap_cons, List.flatMap_cons, List.filter_append,
        List.filter_append, List.filterMap_append, List.filterMap_append, ih distinct,
        first.filter_normal, List.filterMap_map]
      rfl
  · rw [Library.errors_phrasesOf, Library.errors_phrasesOf]
    have perm := (flatMap_normal_perm contents).filterMap Entry.error?
    rw [List.filterMap_map] at perm
    exact perm

/-! ## Audits of fresh hashes -/

namespace Audit

theorem stale_takeEntry {allowReserved : Bool} {path : String} {progress : Progress} {entry : Entry}
    (fresh : entry.hash = Digest.contentHash entry.text) :
    (progress.takeEntry allowReserved path entry).audit.stale = progress.audit.stale :=
  if_pos fresh

theorem stale_takeEntries {allowReserved : Bool} {path : String} {progress : Progress}
    {entries : List Entry} (fresh : ∀ entry ∈ entries, entry.hash = Digest.contentHash entry.text) :
    (entries.foldl (Progress.takeEntry allowReserved path) progress).audit.stale =
      progress.audit.stale := by
  induction entries generalizing progress with
  | nil => rfl
  | cons entry entries ih =>
    obtain ⟨first, fresh⟩ := List.forall_mem_cons.1 fresh
    rw [List.foldl_cons, ih fresh, stale_takeEntry first]

/-- Sections with fresh hashes leave the stale ones as they are. -/
theorem stale_takeAll {allowReserved : Bool} {progress : Progress} {contents : List Section}
    (fresh : ∀ content ∈ contents, ∀ entry ∈ content.entries,
      entry.hash = Digest.contentHash entry.text) :
    (contents.foldl (Progress.take allowReserved) progress).audit.stale = progress.audit.stale := by
  induction contents generalizing progress with
  | nil => rfl
  | cons content contents ih =>
    obtain ⟨first, fresh⟩ := List.forall_mem_cons.1 fresh
    rw [List.foldl_cons, ih fresh, Progress.take, stale_takeEntries first]

end Audit

theorem Section.fresh_normal (contents : List Section) :
    ∀ content ∈ contents.map Section.normal, ∀ entry ∈ content.entries,
      entry.hash = Digest.contentHash entry.text := by
  refine List.forall_mem_map.2 fun content _ entry h ↦ ?_
  obtain ⟨other, -, rfl⟩ := Section.mem_normal.1 h
  exact other.normal_hash

/-! ## Meaning -/

section

variable {stream : Stream} {opened : Opened} {contents : List Section}
  (reads : ofStream stream = .ok opened) (complete : opened.sections.all = .ok contents)

include reads complete

theorem entriesOf_of_reads : entriesOf stream = .ok (contents.flatMap Section.entries) := by
  rw [entriesOf, reads]
  dsimp only
  rw [complete]
  rfl

theorem audit_of_reads (allowReserved : Bool) :
    Audit.ofStream stream allowReserved =
      .ok (contents.foldl (Audit.Progress.take allowReserved) {}).audit := by
  rw [Audit.ofStream, bind_of_ok reads, bind_of_ok complete]
  rfl

end

/-- A document that has a canonical form means what its canonical form means. The form is read back with
the same locale, as the normal forms of the sections; it counts the sections and the entries, no audit
finds a stale hash in it, and a table takes from it what it takes from the document. -/
theorem normalizing_keeps_meaning {bytes : Bytes} {keepStamp : Bool} {now : Instant}
    {canonical : Canonical} (timely : now.Timely)
    (made : Canonical.ofStream (.ofBytes bytes) keepStamp now = .ok canonical) :
    ∃ opened contents, ofBytes bytes = .ok opened ∧ opened.sections.all = .ok contents ∧
      canonical.sections = contents.length ∧
      canonical.entries = (contents.flatMap Section.entries).length ∧
      (PlainYears (opened.header.stamp keepStamp now) contents →
        (∀ content ∈ contents, content.PlainNames) →
        ∃ again, ofBytes (Utf8.encode canonical.text) = .ok again ∧
          again.header =
            { generated := some (opened.header.stamp keepStamp now), locale := opened.header.locale } ∧
          again.sections.all = .ok (contents.map Section.normal) ∧
          (∀ allowReserved, ∃ audit,
            Audit.ofStream (.ofBytes (Utf8.encode canonical.text)) allowReserved = .ok audit ∧
              audit.stale = []) ∧
          ∀ (library : Library) (id : TableId), id ∈ library.tables →
            (∀ overwrite, Library.SameLoad id
              ((Library.populate id (.ofBytes bytes) overwrite).run library)
              ((Library.populate id (.ofBytes (Utf8.encode canonical.text)) overwrite).run library)) ∧
            ∀ location, Library.SameLoad id
              ((Library.reload id location (.ofBytes bytes)).run library)
              ((Library.reload id location (.ofBytes (Utf8.encode canonical.text))).run
                library)) := by
  obtain ⟨opened, contents, reads, complete, distinct, rfl⟩ := Canonical.ofStream_eq_ok_iff.1 made
  obtain ⟨stamped, tidy⟩ := tidy_of_ofStream reads
  refine ⟨opened, contents, reads, complete, rfl, rfl, fun years plain ↦ ?_⟩
  obtain ⟨again, reads_again, header, all⟩ := @Canonical.ofSections_reads_back _
    opened.header.locale contents (Header.timely_stamp timely stamped keepStamp)
    (tidy contents complete) plain years
  have entries := entriesOf_of_reads reads complete
  have entries_again := entriesOf_of_reads reads_again all
  have alike := alike_normal distinct
  refine ⟨again, reads_again, header, all, fun allowReserved ↦ ?_, fun library id known ↦ ⟨?_, ?_⟩⟩
  · exact ⟨_, audit_of_reads reads_again all allowReserved,
      Audit.stale_takeAll (Section.fresh_normal contents)⟩
  · exact alike.populate entries entries_again known
  · exact alike.reload entries entries_again known

/-- Two sections, in which a key comes once each, and an entry whose text is no template. -/
theorem normalizing_keeps_meaning_menu :
    let bytes := ["<StringTable Locale='en'><File SourcePath='menu.rs' ",
      "SourceModifiedUtc='2024-05-01T14:00:00+02:00'><!-- b--c -->",
      "<String Hash='0' Name='quit' Context='x'>Quit</String>",
      "<Literal Name='open' Hash='0'/></File>",
      "<File SourcePath='hud.rs'><String Name='quit' Hash='0'>Leave</String>",
      "<String Name='bad' Hash='0'>\x7b</String></File></StringTable>"].flatMap Utf8.encode
    let noon : Instant := ⟨19844, 43200, 0⟩
    let menu : Section :=
      ⟨{ path := "menu.rs", modified := some noon },
        [{ kind := .template, key := "quit", text := "Quit", hash := "0"
           attributes := [("Context", "x")], comment := some "b--c" },
          { kind := .literal, key := "open", text := "", hash := "0" }]⟩
    let hud : Section :=
      ⟨{ path := "hud.rs" },
        [{ kind := .template, key := "quit", text := "Leave", hash := "0" },
          { kind := .template, key := "bad", text := "\x7b", hash := "0" }]⟩
    let canonical := Canonical.ofSections noon "en" [menu, hud]
    let library : Library := { tables := (∅ : Std.TreeMap TableId Table).insert 0 { name := "menu" } }
    noon.Timely ∧ Canonical.ofStream (.ofBytes bytes) false noon = .ok canonical ∧
      PlainYears noon [menu, hud] ∧ (∀ content ∈ [menu, hud], content.PlainNames) ∧
      0 ∈ library.tables ∧
      ∃ again, ofBytes (Utf8.encode canonical.text) = .ok again ∧
        again.header = { generated := some noon, locale := "en" } ∧
        again.sections.all = .ok [menu.normal, hud.normal] ∧
        Library.SameLoad 0 ((Library.populate 0 (.ofBytes bytes) false).run library)
          ((Library.populate 0 (.ofBytes (Utf8.encode canonical.text)) false).run library) := by
  intro bytes noon menu hud canonical library
  let opened : Opened :=
    ⟨{ locale := "en" }, 25, .next menu true 203 (.next hud true 317 (.done 331))⟩
  have timely : noon.Timely := ⟨by decide, by decide⟩
  have reads : ofBytes bytes = .ok opened := eq_ok_of_toOption (by decide +kernel)
  have distinct : ∀ content ∈ [menu, hud], content.Distinct := by decide
  have made : Canonical.ofStream (.ofBytes bytes) false noon = .ok canonical :=
    Canonical.ofStream_eq_ok_iff.2 ⟨opened, [menu, hud], reads, rfl, distinct, rfl⟩
  have years : PlainYears noon [menu, hud] := ⟨by decide, by decide⟩
  have plain : ∀ content ∈ [menu, hud], content.PlainNames := by decide
  have known : 0 ∈ library.tables := by decide +kernel
  obtain ⟨found, contents, found_reads, complete, -, -, means⟩ :=
    normalizing_keeps_meaning timely made
  obtain rfl : opened = found := Except.ok.inj (reads.symm.trans found_reads)
  obtain rfl : [menu, hud] = contents := Except.ok.inj complete
  obtain ⟨again, reads_again, header, all, -, same⟩ := means years plain
  exact ⟨timely, made, years, plain, known, again, reads_again, header, all,
    (same library 0 known).1 false⟩

end Document

end Phrasebook
