import Phrasebook.Proofs.Document.Canonical

/-!
# Canonical forms that are read again

A canonical form is read back as the normal forms of its sections, and it is its own canonical form, as
long as every stamp in it has a plain year. A stamp of another year is written with a sign that nobody
reads, so a canonical form with such a stamp is refused.
-/

namespace Phrasebook.Document

open Phrasebook.Calendar Phrasebook.Markup Phrasebook.Text

/-! ## Sections that can be written -/

namespace Section

/-- The names of all further attributes are plain. -/
def PlainNames (content : Section) : Prop :=
  ∀ entry ∈ content.entries, ∀ pair ∈ entry.attributes, PlainName pair.1

instance (content : Section) : Decidable content.PlainNames :=
  have (entry : Entry) : Decidable (∀ pair ∈ entry.attributes, PlainName pair.1) :=
    List.decidableBAll _ _
  List.decidableBAll _ _

variable {content : Section}

theorem Tidy.spellable_entries (tidy : content.Tidy) (plain : content.PlainNames) :
    ∀ entry ∈ content.normal.entries, entry.Spellable := by
  intro entry h
  obtain ⟨other, mem, rfl⟩ := mem_normal.1 h
  exact (tidy.entries other mem).normal.spellable (plain other mem)

theorem Tidy.spellable (tidy : content.Tidy) (plain : content.PlainNames)
    (years : ∀ instant ∈ content.origin.modified, instant.HasPlainYear) :
    content.normal.Spellable where
  origin instant stamped := (tidy.origin.timely instant stamped).ordinary (years instant stamped)
  entries := tidy.spellable_entries plain

end Section

theorem Header.timely_stamp {header : Header} {now : Instant} (timely : now.Timely)
    (read : ∀ instant ∈ header.generated, instant.Timely) (keepStamp : Bool) :
    (header.stamp keepStamp now).Timely := by
  rw [stamp]
  split
  · cases given : header.generated with
    | none => exact timely
    | some instant => exact read instant given
  · exact timely

theorem PlainYears.normal {generated : Instant} {contents : List Section}
    (years : PlainYears generated (contents.map Section.normal)) : PlainYears generated contents :=
  ⟨years.generated, fun content mem ↦ years.modified content.normal (List.mem_map_of_mem mem)⟩

namespace Canonical

/-! ## Reading a canonical form -/

section

variable {generated : Instant} {locale : String} {contents : List Section}

/-- A canonical form is read back as the normal forms of the sections. -/
theorem ofSections_reads_back (timely : generated.Timely)
    (tidy : ∀ content ∈ contents, content.Tidy) (plain : ∀ content ∈ contents, content.PlainNames)
    (years : PlainYears generated contents) :
    ∃ opened,
      ofBytes (Utf8.encode (ofSections generated locale contents).text) = .ok opened ∧
      opened.header = { generated := some generated, locale := locale } ∧
      opened.sections.all = .ok (contents.map Section.normal) := by
  have spellable : ∀ content ∈ contents.map Section.normal, content.Spellable :=
    List.forall_mem_map.2 fun content mem ↦
      (tidy content mem).spellable (plain content mem) (years.modified content mem)
  have same : (contents.map Section.normal).map Section.readBack = contents.map Section.normal := by
    rw [List.map_map]
    exact List.map_congr_left fun content mem ↦ (tidy content mem).readBack_normal
  obtain ⟨opened, reads, header, all⟩ :=
    @layout_reads_back generated locale _ (timely.ordinary years.generated) spellable
  rw [same] at all
  exact ⟨opened, reads, header, all⟩

/-- A canonical form that can be read to its end has plain years only. -/
theorem plainYears_of_ofSections_reads (timely : generated.Timely)
    (tidy : ∀ content ∈ contents, content.Tidy) (plain : ∀ content ∈ contents, content.PlainNames)
    {opened : Opened} {sections : List Section}
    (reads : ofBytes (Utf8.encode (ofSections generated locale contents).text) = .ok opened)
    (complete : opened.sections.all = .ok sections) : PlainYears generated contents := by
  refine (plainYears_of_reads timely ?_ reads complete).normal
  refine List.forall_mem_map.2 fun content mem ↦ ⟨?_, ?_⟩
  · exact (tidy content mem).origin.timely
  · exact (tidy content mem).spellable_entries (plain content mem)

theorem length_flatMap_normal (contents : List Section) :
    ((contents.map Section.normal).flatMap Section.entries).length =
      (contents.flatMap Section.entries).length := by
  induction contents with
  | nil => rfl
  | cons content contents ih =>
    have here : content.normal.entries.length = content.entries.length := by
      rw [Section.normal, (sortedByKey_perm _).length_eq, List.length_map]
    rw [List.map_cons, List.flatMap_cons, List.flatMap_cons, List.length_append, List.length_append,
      ih, here]

/-- Normal forms are laid out as what they are normal forms of. -/
theorem ofSections_normal (generated : Instant) (locale : String) (contents : List Section) :
    ofSections generated locale (contents.map Section.normal) =
      ofSections generated locale contents := by
  have same : (contents.map Section.normal).map Section.normal = contents.map Section.normal := by
    rw [List.map_map]
    exact List.map_congr_left fun content _ ↦ content.normal_normal
  rw [ofSections, ofSections, same, length_flatMap_normal, List.length_map]

end

/-- The canonical form of a document that keeps its stamp can be read and is its own canonical form,
whenever that is made, if all stamps that were written have plain years. Otherwise it cannot be read,
and so it has no canonical form. -/
theorem stable_if_plainYears_else_refused {bytes : Bytes} {now : Instant}
    (timely : now.Timely) {canonical : Canonical}
    (made : ofStream (.ofBytes bytes) true now = .ok canonical) {opened : Opened}
    {contents : List Section} (reads : ofBytes bytes = .ok opened)
    (complete : opened.sections.all = .ok contents)
    (plain : ∀ content ∈ contents, content.PlainNames) :
    (PlainYears (opened.header.stamp true now) contents →
      (∃ again, ofBytes (Utf8.encode canonical.text) = .ok again ∧
        again.sections.all = .ok (contents.map Section.normal)) ∧
      ∀ later, ofStream (.ofBytes (Utf8.encode canonical.text)) true later = .ok canonical) ∧
    (¬ PlainYears (opened.header.stamp true now) contents →
      (∀ again sections, ofBytes (Utf8.encode canonical.text) = .ok again →
        again.sections.all ≠ .ok sections) ∧
      ∀ later, ∃ fault,
        ofStream (.ofBytes (Utf8.encode canonical.text)) true later = .error fault) := by
  obtain ⟨stamped, tidy⟩ := tidy_of_ofStream reads
  replace tidy := tidy contents complete
  replace timely := Header.timely_stamp timely stamped true
  obtain ⟨found, sections, found_reads, found_complete, distinct, rfl⟩ := ofStream_eq_ok_iff.1 made
  obtain rfl : opened = found := Except.ok.inj (reads.symm.trans found_reads)
  obtain rfl : contents = sections := Except.ok.inj (complete.symm.trans found_complete)
  constructor
  · intro years
    obtain ⟨again, reads_again, header, all⟩ :=
      @ofSections_reads_back _ opened.header.locale contents timely tidy plain years
    -- What is read back is normal already, and its own stamp is the one that was written.
    refine ⟨⟨again, reads_again, all⟩, fun later ↦
      ofStream_eq_ok_iff.2 ⟨again, _, reads_again, all, ?_, ?_⟩⟩
    · exact List.forall_mem_map.2 fun content mem ↦ (distinct content mem).normal
    · rw [ofSections_normal, header]
      rfl
  · intro signed
    have refused : ∀ again sections,
        ofBytes (Utf8.encode
          (ofSections (opened.header.stamp true now) opened.header.locale contents).text) =
            .ok again → again.sections.all ≠ .ok sections :=
      fun again sections reads_again all ↦
        signed (plainYears_of_ofSections_reads timely tidy plain reads_again all)
    refine ⟨refused, fun later ↦ ?_⟩
    cases again : ofStream (.ofBytes (Utf8.encode
        (ofSections (opened.header.stamp true now) opened.header.locale contents).text)) true later with
    | error fault => exact ⟨fault, rfl⟩
    | ok canonical =>
      obtain ⟨other, sections, reads_again, all, -⟩ := ofStream_eq_ok_iff.1 again
      exact absurd all (refused other sections reads_again)

/-- An entry with a comment and an attribute of its own, and one that comes before it. -/
theorem stable_if_plainYears_else_refused_menu :
    let bytes := ["<StringTable Locale='en' GeneratedUtc='2024-05-01T14:00:00+02:00'>",
      "<File SourcePath='menu.rs'><!-- b--c -->",
      "<String Hash='0' Name='quit' Context='x'>Quit</String>",
      "<Literal Name='open' Hash='0'/></File></StringTable>"].flatMap Utf8.encode
    let noon : Instant := ⟨19844, 43200, 0⟩
    let menu : Section :=
      ⟨{ path := "menu.rs" },
        [{ kind := .template, key := "quit", text := "Quit", hash := "0"
           attributes := [("Context", "x")], comment := some "b--c" },
          { kind := .literal, key := "open", text := "", hash := "0" }]⟩
    let opened : Opened :=
      ⟨{ generated := some noon, locale := "en" }, 66, .next menu true 198 (.done 212)⟩
    let canonical := ofSections noon "en" [menu]
    noon.Timely ∧ ofStream (.ofBytes bytes) true noon = .ok canonical ∧
      ofBytes bytes = .ok opened ∧ opened.sections.all = .ok [menu] ∧
      (∀ content ∈ [menu], content.PlainNames) ∧
      (∃ again, ofBytes (Utf8.encode canonical.text) = .ok again ∧
        again.sections.all = .ok [menu.normal]) ∧
      ∀ later, ofStream (.ofBytes (Utf8.encode canonical.text)) true later = .ok canonical := by
  intro bytes noon menu opened canonical
  have timely : noon.Timely := ⟨by decide, by decide⟩
  have reads : ofBytes bytes = .ok opened := eq_ok_of_toOption (by decide +kernel)
  have plain : ∀ content ∈ [menu], content.PlainNames := by decide
  have distinct : ∀ content ∈ [menu], content.Distinct := by decide
  have years : PlainYears noon [menu] := ⟨by decide, by decide⟩
  have made : ofStream (.ofBytes bytes) true noon = .ok canonical :=
    ofStream_eq_ok_iff.2 ⟨opened, [menu], reads, rfl, distinct, rfl⟩
  exact ⟨timely, made, reads, rfl, plain,
    (stable_if_plainYears_else_refused timely made reads rfl plain).1 years⟩

/-- The reader takes an offset that leads into the next year, and there is no reading of what is written
for it. -/
theorem canonical_form_of_signed_year_is_refused :
    let bytes := Utf8.encode "<StringTable GeneratedUtc=\"9999-12-31T23:59:59-01:00\"/>"
    let noon : Instant := ⟨19844, 43200, 0⟩
    let canonical : Canonical :=
      { text := "<?xml version=\"1.0\" encoding=\"utf-8\"?>\n" ++
          "<StringTable GeneratedUtc=\"+10000-01-01T00:59:59Z\" Locale=\"\">\n</StringTable>\n"
        sections := 0
        entries := 0 }
    ofStream (.ofBytes bytes) true noon = .ok canonical ∧
      ∀ later, ofStream (.ofBytes (Utf8.encode canonical.text)) true later ≠ .ok canonical := by
  intro bytes noon canonical
  have made : ofStream (.ofBytes bytes) true noon = .ok canonical :=
    eq_ok_of_toOption (by decide +kernel)
  have refused : (ofBytes (Utf8.encode canonical.text)).toOption = none := by decide +kernel
  refine ⟨made, fun later again ↦ ?_⟩
  obtain ⟨opened, _, reads, -⟩ := ofStream_eq_ok_iff.1 again
  rw [ofBytes, reads] at refused
  cases refused

end Canonical

end Phrasebook.Document
