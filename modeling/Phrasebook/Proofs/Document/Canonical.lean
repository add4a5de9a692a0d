import Phrasebook.Proofs.Document.Normal

/-!
# Canonical documents

A document has a canonical form exactly if it is read to its end and none of its sections has a key
twice. The canonical form is the layout of the normal forms of its sections.
-/

namespace Phrasebook.Document

open Phrasebook.Calendar Phrasebook.Markup Phrasebook.Text

namespace Canonical

/-! ## Sections -/

section

variable {page : Page} {origin : Origin} {table : Std.TreeMap String Entry} {before : List Entry}

/-- What becomes of an entry in a section that only put entries off. -/
theorem run_deferEntry (indexes : Indexes table id before) (entry : Entry) :
    (Draft.deferEntry entry).run { page := page, current := some origin, deferred := table } =
      match before.find? (·.key = entry.key) with
      | some existing =>
        (.error (.duplicateKey origin.path entry.key existing.text entry.text),
          { page := page, current := some origin, deferred := table })
      | none =>
        (.ok (), { page := page, current := some origin, deferred := table.insert entry.key entry }) := by
  have admits := @Draft.admission_eq
    { page := page, current := some origin, deferred := table }
    { current := some ⟨origin, []⟩, deferred := before } rfl (.empty _) indexes entry
  have admission : Outline.admission { current := some ⟨origin, []⟩, deferred := before } entry =
      match before.find? (·.key = entry.key) with
      | some existing => .error (.duplicateKey origin.path entry.key existing.text entry.text)
      | none => .ok () := rfl
  rw [admission] at admits
  cases found : before.find? (·.key = entry.key) with
  | some existing => simp [Draft.deferEntry, admits, found]
  | none => simp [Draft.deferEntry, admits, found]

theorem keys_rehash (before entries : List Entry) (entry : Entry) :
    before.map Entry.key ++ (entry :: entries).map Entry.key =
      (before ++ [entry.rehash]).map Entry.key ++ entries.map Entry.key := by
  simp [Entry.rehash]

/-- Entries with different keys are put off, one after the other. -/
theorem run_deferAll (indexes : Indexes table id before) {entries : List Entry}
    (distinct : (before.map Entry.key ++ entries.map Entry.key).Nodup) :
    ∃ filled, Indexes filled id (before ++ entries.map Entry.rehash) ∧
      (deferAll entries).run { page := page, current := some origin, deferred := table } =
        (.ok (), { page := page, current := some origin, deferred := filled }) := by
  -- The table grows with the entries, so both are generalized; it indexes what was put off so far.
  induction entries generalizing table before with
  | nil => exact ⟨table, by rwa [List.map_nil, List.append_nil], rfl⟩
  | cons entry entries ih =>
    have new : entry.rehash.key ∉ before.map Entry.key := fun mem ↦
      (List.nodup_append.1 distinct).2.2 _ mem _ List.mem_cons_self rfl
    rw [keys_rehash] at distinct
    obtain ⟨filled, holds, deferred⟩ := ih (indexes.insert new) distinct
    have first := @run_deferEntry page origin table before indexes entry.rehash
    rw [find?_key_eq_none new] at first
    refine ⟨filled, ?_, ?_⟩
    · rwa [List.append_assoc] at holds
    · simpa [deferAll, first] using deferred

/-- A key that comes twice is refused. -/
theorem run_deferAll_of_repeated (indexes : Indexes table id before)
    (distinct : (before.map Entry.key).Nodup) {entries : List Entry}
    (repeated : ¬ (before.map Entry.key ++ entries.map Entry.key).Nodup) :
    ∃ fault after,
      (deferAll entries).run { page := page, current := some origin, deferred := table } =
        (.error fault, after) := by
  induction entries generalizing table before with
  | nil =>
    rw [List.map_nil, List.append_nil] at repeated
    exact absurd distinct repeated
  | cons entry entries ih =>
    have first := @run_deferEntry page origin table before indexes entry.rehash
    -- Either this entry repeats a key of those before it, or the repetition is still to come.
    by_cases held : entry.rehash.key ∈ before.map Entry.key
    · obtain ⟨existing, found⟩ := exists_find?_key held
      rw [found] at first
      exact ⟨_, _, run_bind_of_error first _⟩
    · rw [keys_rehash] at repeated
      obtain ⟨fault, after, refused⟩ := ih (indexes.insert held)
        (distinct_of_perm distinct held (List.perm_append_singleton _ _)) repeated
      rw [find?_key_eq_none held] at first
      exact ⟨fault, after, by simpa [deferAll, first] using refused⟩

end

section

variable {page : Page} (patient : page.sink.patience = none)

include patient

theorem run_startFile (origin : Origin) :
    (Draft.startFile origin).run { page := page } =
      (.ok (), { page := Draft.beginning page origin, current := some origin }) :=
  @Draft.run_startFile { page := page } { page := page } origin (Option.some_ne_none origin).symm rfl
    patient

/-- A section without repeated keys is written as its normal form. -/
theorem run_writeSection {content : Section} (distinct : content.Distinct) :
    (writeSection content).run { page := page } =
      (.ok (), { page := page.putAll content.normal.items }) := by
  have distinct_rehashed : ((content.entries.map Entry.rehash).map Entry.key).Nodup := by
    rw [List.map_map]
    exact distinct
  obtain ⟨filled, holds, deferred⟩ := @run_deferAll (Draft.beginning page content.origin)
    content.origin ∅ [] (.empty id) content.entries distinct
  have values := holds.values distinct_rehashed
  rw [List.nil_append] at values
  have patient_begun := Draft.patience_beginning patient content.origin
  have flushed := @Draft.run_flush
    { page := Draft.beginning page content.origin, current := some content.origin, deferred := filled }
    patient_begun
  have ended := Draft.run_endFile flushed rfl (Page.patience_putAll patient_begun _)
  rw [writeSection, run_bind_of_ok (run_startFile patient content.origin), run_bind_of_ok deferred,
    ended, values, content.items_normal]
  simp [Section.items, Draft.beginning, Draft.ending]

theorem run_writeSection_of_repeated {content : Section} (repeated : ¬ content.Distinct) :
    ∃ fault after, (writeSection content).run { page := page } = (.error fault, after) := by
  obtain ⟨fault, after, refused⟩ := @run_deferAll_of_repeated (Draft.beginning page content.origin)
    content.origin ∅ [] (.empty id) List.nodup_nil content.entries repeated
  exact ⟨fault, after, by simp [writeSection, run_startFile patient, refused]⟩

/-- Sections that are read to their end and have no repeated keys are written as their normal forms. -/
theorem run_writeAll {sections : Sections} {contents : List Section}
    (all : sections.all = .ok contents) (distinct : ∀ content ∈ contents, content.Distinct) :
    (writeAll sections).run { page := page } =
      (.ok (contents.length, (contents.flatMap Section.entries).length),
        { page := page.putAll ((contents.map Section.normal).flatMap Section.items) }) := by
  induction sections generalizing page contents with
  | done position =>
    cases all
    rfl
  | failed fault position => cases all
  | next content spelled position rest ih =>
    obtain ⟨others, rest_all, rfl⟩ := exists_of_map_eq_ok all
    obtain ⟨first, distinct⟩ := List.forall_mem_cons.1 distinct
    have written := ih (Page.patience_putAll patient content.normal.items) rest_all distinct
    simp [writeAll, run_writeSection patient first, written, Nat.add_comm]

/-- Writing fails if reading does, or if a section has a key twice. -/
theorem run_writeAll_of_refused {sections : Sections}
    (refused : ¬ ∃ contents, sections.all = .ok contents ∧ ∀ content ∈ contents, content.Distinct) :
    ∃ fault after, (writeAll sections).run { page := page } = (.error fault, after) := by
  induction sections generalizing page with
  | done position => exact absurd ⟨[], rfl, List.forall_mem_nil _⟩ refused
  | failed fault position => exact ⟨fault, _, rfl⟩
  | next content spelled position rest ih =>
    by_cases first : content.Distinct
    · have rest_refused : ¬ ∃ contents, rest.all = .ok contents ∧
          ∀ content ∈ contents, content.Distinct := by
        rintro ⟨contents, all, distinct⟩
        refine refused ⟨content :: contents, ?_, List.forall_mem_cons.2 ⟨first, distinct⟩⟩
        rw [Sections.all, all]
        rfl
      obtain ⟨fault, after, stopped⟩ :=
        ih (Page.patience_putAll patient content.normal.items) rest_refused
      exact ⟨fault, after, by simp [writeAll, run_writeSection patient first, stopped]⟩
    · obtain ⟨fault, after, stopped⟩ := run_writeSection_of_repeated patient first
      exact ⟨fault, after, run_bind_of_error stopped _⟩

theorem run_finish : Draft.finish.run { page := page } = (.ok (), { page := Page.ended page }) := by
  rw [Draft.finish, run_bind_of_ok (Draft.endOpenFile_of_none _ rfl)]
  exact Draft.run_last patient

def writeBody (sections : Sections) : DraftM (Nat × Nat) := do
  let counts ← writeAll sections
  Draft.finish
  return counts

theorem run_writeBody {sections : Sections} {contents : List Section}
    (all : sections.all = .ok contents) (distinct : ∀ content ∈ contents, content.Distinct) :
    (writeBody sections).run { page := page } =
      (.ok (contents.length, (contents.flatMap Section.entries).length),
        { page := Page.ended
            (page.putAll ((contents.map Section.normal).flatMap Section.items)) }) := by
  simp [writeBody, run_writeAll patient all distinct, run_finish, patient]

theorem run_writeBody_of_refused {sections : Sections}
    (refused : ¬ ∃ contents, sections.all = .ok contents ∧ ∀ content ∈ contents, content.Distinct) :
    ∃ fault after, (writeBody sections).run { page := page } = (.error fault, after) := by
  obtain ⟨fault, after, stopped⟩ := run_writeAll_of_refused patient refused
  exact ⟨fault, after, run_bind_of_error stopped _⟩

end

end Canonical

/-! ## Documents -/

def Header.stamp (header : Header) (keepStamp : Bool) (now : Instant) : Instant :=
  if keepStamp then header.generated.getD now else now

namespace Canonical

def ofSections (generated : Instant) (locale : String) (contents : List Section) : Canonical where
  text := layout generated locale (contents.map Section.normal)
  sections := contents.length
  entries := (contents.flatMap Section.entries).length

theorem ofStream_eq {stream : Stream} {opened : Opened}
    (reads : Document.ofStream stream = .ok opened) (keepStamp : Bool) (now : Instant) :
    ofStream stream keepStamp now =
      let generated := opened.header.stamp keepStamp now
      let (written, draft) := (writeBody opened.sections).run
        { page := titlePage {} generated opened.header.locale }
      written.map fun counts ↦ ⟨draft.text, counts.1, counts.2⟩ := by
  have begun := @Draft.start_eq {} rfl opened.header.locale (opened.header.stamp keepStamp now)
  rw [Header.stamp] at begun
  rw [ofStream, bind_of_ok reads]
  dsimp only
  rw [begun, bind_of_ok rfl]
  rfl

/-- A document has a canonical form exactly if it is read to its end and no section has a key twice,
and the form is the layout of the normal forms of its sections. -/
theorem ofStream_eq_ok_iff {stream : Stream} {keepStamp : Bool} {now : Instant}
    {canonical : Canonical} :
    ofStream stream keepStamp now = .ok canonical ↔
      ∃ opened contents, Document.ofStream stream = .ok opened ∧
        opened.sections.all = .ok contents ∧ (∀ content ∈ contents, content.Distinct) ∧
        canonical =
          ofSections (opened.header.stamp keepStamp now) opened.header.locale contents := by
  have patient (opened : Opened) :
      (titlePage {} (opened.header.stamp keepStamp now) opened.header.locale).sink.patience = none :=
    patience_titlePage rfl _ _
  constructor
  · intro made
    obtain ⟨opened, reads⟩ : ∃ opened, Document.ofStream stream = .ok opened := by
      rw [ofStream] at made
      obtain ⟨opened, reads, -⟩ := exists_of_bind_eq_ok made
      exact ⟨opened, reads⟩
    rw [ofStream_eq reads] at made
    dsimp only at made
    by_cases readable : ∃ contents, opened.sections.all = .ok contents ∧
        ∀ content ∈ contents, content.Distinct
    · obtain ⟨contents, all, distinct⟩ := readable
      rw [run_writeBody (patient opened) all distinct] at made
      exact ⟨opened, contents, reads, all, distinct, (Except.ok.inj made).symm⟩
    · obtain ⟨fault, after, refused⟩ := run_writeBody_of_refused (patient opened) readable
      rw [refused] at made
      cases made
  · rintro ⟨opened, contents, reads, all, distinct, rfl⟩
    rw [ofStream_eq reads]
    dsimp only
    rw [run_writeBody (patient opened) all distinct]
    rfl

end Canonical

end Phrasebook.Document
