import Mathlib.Tactic.ByContra
import Phrasebook.Proofs.Document.RoundTrip

/-!
# The layout of a document

A document is laid out section by section between its title and its end. What is laid out is read back,
if every stamp in it can be read; a stamp that cannot be read ends the reading, whether it stands in the
header or in a section.
-/

namespace Phrasebook.Document

open Phrasebook.Calendar Phrasebook.Markup Phrasebook.Text

/-- What is on a page stays there. -/
theorem Page.exists_encode_putAll {page : Page} (patient : page.sink.patience = none)
    (items : List Item) :
    ∃ more, Utf8.encode (page.putAll items).sink.text = Utf8.encode page.sink.text ++ more := by
  induction items generalizing page with
  | nil => exact ⟨[], (List.append_nil _).symm⟩
  | cons item items ih =>
    obtain ⟨more, text⟩ := ih (Page.patience_put patient item)
    refine ⟨page.leadBytes item ++ item.bytes ++ more, ?_⟩
    rw [Page.putAll_cons, text, Page.encode_put patient, List.append_assoc]

theorem Page.exists_encode_ended {page : Page} (patient : page.sink.patience = none)
    (items : List Item) :
    ∃ more, Utf8.encode (Page.ended (page.putAll items)).sink.text =
      Utf8.encode page.sink.text ++ more := by
  obtain ⟨more, text⟩ := Page.exists_encode_putAll patient (items ++ [.close rootElement])
  rw [Page.putAll_append] at text
  refine ⟨more ++ Utf8.encode "\n", ?_⟩
  rw [Page.encode_ended, ← List.append_assoc, ← text]
  rfl

/-! ## Sections -/

def Section.items (content : Section) : List Item :=
  commentItem ("Start of file " ++ fileName content.origin.path) ::
    .start fileElement content.origin.elementAttributes ::
      (content.entries.flatMap Entry.spelling ++
        [.close fileElement, commentItem ("End of file " ++ fileName content.origin.path)])

/-- All data of a section can be read back. -/
structure Section.Spellable (content : Section) : Prop where
  origin : content.origin.Ordinary
  entries : ∀ entry ∈ content.entries, entry.Spellable

section

variable {prologue : Bytes} {page : Page} {before : List Section}

theorem Told.section {content : Section} (told : Told prologue page before .root)
    (spellable : content.Spellable) :
    Told prologue (page.putAll content.items) (before ++ [content.readBack]) .root := by
  have opened := (told.comment_root ("Start of file " ++ fileName content.origin.path)).start
    spellable.origin
  have closed := (opened.spellings spellable.entries).close.comment_root
    ("End of file " ++ fileName content.origin.path)
  have complete : OpenSection.complete
      { origin := content.origin.readBack
        entries := (content.entries.map Entry.readBack).reverse ++ [] } = content.readBack := by
    rw [List.append_nil]
    exact congrArg (Section.mk _) (List.reverse_reverse _)
  rw [complete] at closed
  rw [Section.items, Page.putAll_cons, Page.putAll_cons, Page.putAll_append]
  exact closed

/-- Sections that are written are read back behind those before them. -/
theorem Told.sections {contents : List Section} (told : Told prologue page before .root)
    (spellable : ∀ content ∈ contents, content.Spellable) :
    Told prologue (page.putAll (contents.flatMap Section.items))
      (before ++ contents.map Section.readBack) .root := by
  induction contents generalizing page before with
  | nil =>
    rw [List.map_nil, List.append_nil]
    exact told
  | cons content contents ih =>
    have first := told.section (spellable content List.mem_cons_self)
    have others := ih first fun other h ↦ spellable other (List.mem_cons_of_mem _ h)
    rw [List.append_assoc] at others
    rw [List.flatMap_cons, Page.putAll_append]
    exact others

end

/-! ## Documents -/

def bodyPage (generated : Instant) (locale : String) (contents : List Section) : Page :=
  (titlePage {} generated locale).putAll (contents.flatMap Section.items)

def layout (generated : Instant) (locale : String) (contents : List Section) : String :=
  (Page.ended (bodyPage generated locale contents)).sink.text

section

variable {generated : Instant} {locale : String} {contents : List Section}

/-- What was laid out is read back. -/
theorem layout_reads_back (ordinary : generated.Ordinary)
    (spellable : ∀ content ∈ contents, content.Spellable) :
    ∃ opened, ofBytes (Utf8.encode (layout generated locale contents)) = .ok opened ∧
      opened.header = { generated := some generated, locale := locale } ∧
      opened.sections.all = .ok (contents.map Section.readBack) := by
  have told : Told (Utf8.encode (titlePage {} generated locale).sink.text)
      (bodyPage generated locale contents) (contents.map Section.readBack) .root :=
    (@Told.title {} rfl generated locale).sections spellable
  obtain ⟨body, text, read⟩ := told.ends
  obtain ⟨next, opened⟩ :=
    @opens_titlePage {} rfl rfl generated locale (body ++ Utf8.encode "\n")
  rw [header_writtenTag ordinary locale] at opened
  refine ⟨⟨_, next, .ofStream .root
    (.scan (.text []) Stage.root.names next (body ++ Utf8.encode "\n"))⟩, ?_, rfl, read next _⟩
  rw [layout, Page.encode_ended, text, List.append_assoc, opened]
  rfl

end

/-! ## Stamps that cannot be read -/

section

variable {generated : Instant} {locale : String} {origin : Origin}

theorem stamp_text_of_signed {instant : Instant} (signed : ¬ instant.HasPlainYear) (place : Place) :
    ∃ fault, stamp place instant.text = .error fault := by
  obtain ⟨reason, refused⟩ := Instant.parse_text_of_signed signed
  exact ⟨.badStamp place instant.text reason, by rw [stamp, Instant.trim_text, refused]⟩

/-- A header whose stamp has a signed year is not read back. -/
theorem header_writtenTag_of_signed (signed : ¬ generated.HasPlainYear) (place : Place) :
    ∃ fault, header place (writtenTag rootElement (rootAttributes generated locale)) =
      .error fault := by
  obtain ⟨fault, refused⟩ := stamp_text_of_signed signed place
  have first : Header.take place {} ("GeneratedUtc", generated.text) = .error fault := by
    rw [Header.take, if_pos rfl, refused]
    rfl
  refine ⟨fault, ?_⟩
  rw [header, attributes_writtenTag place (by decide) (plainNames_rootAttributes generated locale)]
  dsimp only [bind, Except.bind]
  rw [rootAttributes, List.foldlM_cons, first]
  rfl

/-- A stamp whose year has a sign is written, and not read back. -/
theorem origin_writtenTag_of_signed {instant : Instant} (modified : origin.modified = some instant)
    (signed : ¬ instant.HasPlainYear) (place : Place) :
    ∃ fault, Document.origin place (writtenTag fileElement origin.elementAttributes) =
      .error fault := by
  obtain ⟨fault, refused⟩ := stamp_text_of_signed signed place
  have path : Origin.take place (none, { path := "" }) ("SourcePath", origin.path) =
      .ok (some origin.path, { path := "" }) := by
    rw [Origin.take]
    exact if_pos rfl
  have second (found : Option String × Origin) :
      Origin.take place found ("SourceModifiedUtc", instant.text) = .error fault := by
    rw [Origin.take, if_neg (show "SourceModifiedUtc" ≠ "SourcePath" by decide), if_pos rfl, refused]
    rfl
  refine ⟨fault, ?_⟩
  rw [Document.origin, attributes_writtenTag place (by decide) origin.plainNames_elementAttributes]
  dsimp only [bind, Except.bind]
  rw [Origin.elementAttributes, modified, List.foldlM_cons, path]
  dsimp only [bind, Except.bind]
  rw [Option.toList_some, List.map_singleton, List.singleton_append, List.foldlM_cons, second]
  rfl

theorem Told.refuses {prologue : Bytes} {page : Page} {before : List Section}
    (told : Told prologue page before .root) {instant : Instant}
    (modified : origin.modified = some instant) (signed : ¬ instant.HasPlainYear) :
    ∃ body, Utf8.encode (page.put (.start fileElement origin.elementAttributes)).sink.text =
        prologue ++ body ∧
      ∀ position more, ∃ fault, (Sections.ofStream .root
        (.scan (.text []) Stage.root.names position (body ++ more))).all = .error fault := by
  have plain : ∀ pair ∈ origin.elementAttributes, PlainName pair.1 :=
    List.forall_mem_map.1 origin.plainNames_elementAttributes.1
  obtain ⟨body, text, reads⟩ := told.reads_item (takes_lead_root _)
    (Item.start_tells Stage.root.names elementName_fileElement plain)
  refine ⟨body, text, fun position more ↦ ?_⟩
  obtain ⟨next, read⟩ := reads position more
  obtain ⟨fault, refused⟩ :=
    origin_writtenTag_of_signed modified signed ⟨next, Stage.root.path?⟩
  refine ⟨fault, ?_⟩
  rw [read, Sections.ofStream, Stage.step, inRoot, if_pos (name_writtenTag elementName_fileElement.1), refused]
  rfl

end

/-- All stamps of a document have plain years. -/
structure PlainYears (generated : Instant) (contents : List Section) : Prop where
  generated : generated.HasPlainYear
  modified : ∀ content ∈ contents, ∀ instant ∈ content.origin.modified, instant.HasPlainYear

/-- The first section with a stamp whose year is not plain, if there is one. -/
theorem exists_first_signed {contents : List Section}
    (signed : ¬ ∀ content ∈ contents, ∀ instant ∈ content.origin.modified, instant.HasPlainYear) :
    ∃ before content after instant, contents = before ++ content :: after ∧
      (∀ other ∈ before, ∀ instant ∈ other.origin.modified, instant.HasPlainYear) ∧
      content.origin.modified = some instant ∧ ¬ instant.HasPlainYear := by
  induction contents with
  | nil => exact absurd (List.forall_mem_nil _) signed
  | cons content contents ih =>
    by_cases plain : ∀ instant ∈ content.origin.modified, instant.HasPlainYear
    · obtain ⟨before, bad, after, instant, rfl, plain_before, modified, signed⟩ :=
        ih fun others ↦ signed (List.forall_mem_cons.2 ⟨plain, others⟩)
      exact ⟨content :: before, bad, after, instant, rfl,
        List.forall_mem_cons.2 ⟨plain, plain_before⟩, modified, signed⟩
    · obtain ⟨instant, some_signed⟩ := Classical.not_forall.1 plain
      obtain ⟨modified, signed⟩ := Classical.not_imp.1 some_signed
      exact ⟨[], content, contents, instant, rfl, List.forall_mem_nil _, modified, signed⟩

section

variable {generated : Instant} {locale : String} {contents : List Section}

/-- A document whose own stamp cannot be read is refused. -/
theorem layout_refused_of_generated (signed : ¬ generated.HasPlainYear) :
    ∃ fault, ofBytes (Utf8.encode (layout generated locale contents)) = .error fault := by
  obtain ⟨more, text⟩ := Page.exists_encode_ended
    (@patience_titlePage {} rfl generated locale) (contents.flatMap Section.items)
  obtain ⟨next, opened⟩ := @opens_titlePage {} rfl rfl generated locale more
  obtain ⟨fault, refused⟩ := @header_writtenTag_of_signed generated locale signed ⟨next, none⟩
  refine ⟨fault, ?_⟩
  rw [layout, bodyPage, text, opened, refused]
  rfl

/-- A document with a section whose stamp cannot be read is refused before its end. -/
theorem layout_refused_of_modified (plain : generated.Ordinary)
    {before after : List Section} {content : Section} {instant : Instant}
    (spellable : ∀ other ∈ before, other.Spellable)
    (modified : content.origin.modified = some instant) (signed : ¬ instant.HasPlainYear) :
    ∃ opened fault,
      ofBytes (Utf8.encode (layout generated locale (before ++ content :: after))) = .ok opened ∧
        opened.sections.all = .error fault := by
  have told : Told (Utf8.encode (titlePage {} generated locale).sink.text)
      (bodyPage generated locale before) (before.map Section.readBack) .root :=
    (@Told.title {} rfl generated locale).sections spellable
  have commented := told.comment_root ("Start of file " ++ fileName content.origin.path)
  obtain ⟨body, start, reads⟩ := commented.refuses modified signed
  let items := content.entries.flatMap Entry.spelling ++
    [.close fileElement, commentItem ("End of file " ++ fileName content.origin.path)] ++
      after.flatMap Section.items
  obtain ⟨rest, text⟩ := Page.exists_encode_ended
    (Draft.patience_beginning told.patient content.origin) items
  have laid : bodyPage generated locale (before ++ content :: after) =
      (Draft.beginning (bodyPage generated locale before) content.origin).putAll items := by
    rw [bodyPage, List.flatMap_append, Page.putAll_append, List.flatMap_cons, Section.items]
    rfl
  obtain ⟨next, opened⟩ := @opens_titlePage {} rfl rfl generated locale (body ++ rest)
  obtain ⟨fault, refused⟩ := reads next rest
  rw [header_writtenTag plain locale] at opened
  refine ⟨⟨{ generated := some generated, locale := locale }, next,
    .ofStream .root (.scan (.text []) Stage.root.names next (body ++ rest))⟩, fault, ?_, refused⟩
  rw [layout, laid, text, Draft.beginning, start, List.append_assoc, opened]
  rfl

/-- A document is read to its end only if all of its stamps can be read. -/
theorem plainYears_of_reads (timely : generated.Timely)
    (spellable : ∀ content ∈ contents, (∀ instant ∈ content.origin.modified, instant.Timely) ∧
      ∀ entry ∈ content.entries, entry.Spellable)
    {opened : Opened} {sections : List Section}
    (reads : ofBytes (Utf8.encode (layout generated locale contents)) = .ok opened)
    (complete : opened.sections.all = .ok sections) : PlainYears generated contents := by
  have plain : generated.HasPlainYear := by
    by_contra signed
    obtain ⟨fault, refused⟩ := @layout_refused_of_generated generated locale contents signed
    rw [refused] at reads
    cases reads
  refine ⟨plain, ?_⟩
  -- All sections before the first signed stamp are read, so nothing else can end the reading earlier.
  by_contra signed
  obtain ⟨before, content, after, instant, rfl, plain_before, modified, signed⟩ :=
    exists_first_signed signed
  have spellable_before : ∀ other ∈ before, other.Spellable := fun other h ↦
    have spells := spellable other (List.mem_append_left _ h)
    ⟨fun instant stamped ↦ (spells.1 instant stamped).ordinary (plain_before other h instant stamped),
      spells.2⟩
  obtain ⟨found, fault, read, refused⟩ := @layout_refused_of_modified generated locale
    (timely.ordinary plain) before after content instant spellable_before modified signed
  rw [read] at reads
  rw [← Except.ok.inj reads, refused] at complete
  cases complete

end

end Phrasebook.Document
