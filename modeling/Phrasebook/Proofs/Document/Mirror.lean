import Phrasebook.Proofs.Document.Outline
import Phrasebook.Proofs.Document.Steps
import Phrasebook.Proofs.Document.Writing

/-!
# Drafts and their outlines

A draft mirrors an outline: its page is told as the sections so far, and its tables hold the entries
that the open section accepted. Every call answers as the outline says and keeps the two together.
-/

namespace Phrasebook.Document

open Phrasebook.Calendar Phrasebook.Markup Phrasebook.Text

/-! ## Runs on a patient sink -/

namespace Draft

section

variable {draft : Draft} (patient : draft.page.sink.patience = none)

include patient

@[simp] theorem run_writeItem (item : Item) :
    (writeItem item).run draft = (.ok (), { draft with page := draft.page.put item }) := by
  simp [writeItem, Page.write_of_patient patient]

@[simp] theorem run_writeItems (items : List Item) :
    (writeItems items).run draft = (.ok (), { draft with page := draft.page.putAll items }) := by
  induction items generalizing draft with
  | nil => rfl
  | cons item items ih => simp [writeItems, patient, ih]

@[simp] theorem run_comment (text : String) :
    (comment text).run draft = (.ok (), { draft with page := draft.page.put (commentItem text) }) :=
  run_writeItem patient (commentItem text)

@[simp] theorem run_emit (entry : Entry) :
    (emit entry).run draft = (.ok (), { draft with page := draft.page.putAll entry.spelling }) := by
  rw [emit, Entry.spelling]
  cases entry.comment with
  | none => simp [patient]
  | some text => simp [patient]

@[simp] theorem run_emitAll (entries : List Entry) :
    (emitAll entries).run draft = (.ok (), { draft with
      page := draft.page.putAll (entries.flatMap Entry.spelling)
      written := entries.foldl (fun table entry ↦ table.insert entry.key entry.text)
        draft.written }) := by
  induction entries generalizing draft with
  | nil => rfl
  | cons entry entries ih => simp [emitAll, patient, ih, noted]

theorem run_flush : flush.run draft = (.ok (), { draft with
    page := draft.page.putAll (draft.deferred.values.flatMap Entry.spelling)
    written := draft.deferred.values.foldl (fun table entry ↦ table.insert entry.key entry.text)
      draft.written
    deferred := ∅ }) := by
  simp [flush_eq_emitAll, patient]

def beginning (page : Page) (origin : Origin) : Page :=
  (page.put (commentItem ("Start of file " ++ fileName origin.path))).put
    (.start fileElement origin.elementAttributes)

omit patient in
@[simp] theorem patience_beginning {page : Page} (patient : page.sink.patience = none)
    (origin : Origin) : (beginning page origin).sink.patience = none := by
  simp [beginning, patient]

def ending (page : Page) (origin : Origin) : Page :=
  (page.put (.close fileElement)).put (commentItem ("End of file " ++ fileName origin.path))

omit patient in
theorem run_startFile {ended : Draft} {origin : Origin} (other : draft.current ≠ some origin)
    (ends : endOpenFile.run draft = (.ok (), ended)) (patient : ended.page.sink.patience = none) :
    (startFile origin).run draft =
      (.ok (), { page := beginning ended.page origin, current := some origin }) := by
  simp [startFile, other, ends, patient, beginning]

omit patient in
theorem run_endFile {flushed : Draft} {origin : Origin} (flushes : flush.run draft = (.ok (), flushed))
    (opened : flushed.current = some origin) (patient : flushed.page.sink.patience = none) :
    endFile.run draft =
      (.ok (), { page := ending flushed.page origin, deferred := flushed.deferred }) := by
  simp [endFile, flushes, opened, patient, ending]

end

theorem accepted?_eq {draft : Draft} {entries waiting : List Entry}
    (written : Indexes draft.written Entry.text entries)
    (deferred : Indexes draft.deferred id waiting) (key : String) :
    draft.accepted? key = ((entries ++ waiting).find? (·.key = key)).map Entry.text := by
  rw [accepted?, written key, deferred key, List.find?_append, Option.map_id]
  cases entries.find? (·.key = key) with
  | none => rfl
  | some entry => rfl

section

variable {draft : Draft} {outline : Outline}
  (current : draft.current = outline.current.map Section.origin)
  (written : Indexes draft.written Entry.text outline.entries)
  (deferred : Indexes draft.deferred id outline.deferred)

include current written deferred in
/-- A draft whose tables hold what an outline says takes an entry if the outline does. -/
theorem admission_eq (entry : Entry) : draft.admission entry = outline.admission entry := by
  rw [admission, current, Outline.admission]
  cases outline.current with
  | none => rfl
  | some content =>
    dsimp only [Option.map_some]
    rw [accepted?_eq written deferred]
    cases (outline.entries ++ outline.deferred).find? (·.key = entry.key) with
    | none => rfl
    | some existing => rfl

end

end Draft

/-! ## Mirrors -/

def Section.readBack (content : Section) : Section :=
  ⟨content.origin.readBack, content.entries.map Entry.readBack⟩

def Outline.stage (outline : Outline) : Stage :=
  match outline.current with
  | none => .root
  | some content =>
    .file { origin := content.origin.readBack
            entries := (content.entries.map Entry.readBack).reverse }

/-- A draft holds what its outline says. -/
structure Mirrors (prologue : Bytes) (draft : Draft) (outline : Outline) : Prop where
  told : Told prologue draft.page (outline.closed.map Section.readBack) outline.stage
  current : draft.current = outline.current.map Section.origin
  written : Indexes draft.written Entry.text outline.entries
  deferred : Indexes draft.deferred id outline.deferred
  distinct : ((outline.entries ++ outline.deferred).map Entry.key).Nodup
  spellable : ∀ entry ∈ outline.deferred, entry.Spellable
  attached : outline.current = none → outline.deferred = []

namespace Mirrors

variable {prologue : Bytes} {draft : Draft} {outline : Outline}

/-- A draft takes an entry if the outline does. -/
theorem admission (mirrors : Mirrors prologue draft outline) (entry : Entry) :
    draft.admission entry = outline.admission entry :=
  Draft.admission_eq mirrors.current mirrors.written mirrors.deferred entry

/-- Entries that are written to the open section, and what is put off behind them. -/
theorem append (mirrors : Mirrors prologue draft outline) {content : Section}
    (opened : outline.current = some content) {added rest : List Entry}
    {table : Std.TreeMap String Entry} (indexes : Indexes table id rest)
    (spellable : ∀ entry ∈ added ++ rest, entry.Spellable)
    (distinct : ((outline.entries ++ (added ++ rest)).map Entry.key).Nodup) :
    Mirrors prologue
      { draft with
        page := draft.page.putAll (added.flatMap Entry.spelling)
        written := added.foldl (fun table entry ↦ table.insert entry.key entry.text) draft.written
        deferred := table }
      { outline.append added with deferred := rest } := by
  have entries : (outline.append added).entries = outline.entries ++ added := by
    rw [Outline.append, Outline.entries, Outline.entries, opened]
    rfl
  rw [← List.append_assoc] at distinct
  have told := mirrors.told
  rw [Outline.stage, opened] at told
  constructor
  · have spelled := told.spellings fun entry h ↦ spellable entry (List.mem_append_left _ h)
    rw [Outline.stage, Outline.append, opened]
    dsimp only [Option.map_some]
    rw [List.map_append, List.reverse_append]
    exact spelled
  · rw [Outline.append, opened, mirrors.current, opened]
    rfl
  · have written := mirrors.written.insertAll (List.Nodup.sublist ((List.sublist_append_left _ rest).map _) distinct)
    rw [← entries] at written
    exact written
  · exact indexes
  · rw [← entries] at distinct
    exact distinct
  · exact fun entry h ↦ spellable entry (List.mem_append_right _ h)
  · intro none_open
    rw [Outline.append, opened] at none_open
    cases none_open

theorem writeEntry (mirrors : Mirrors prologue draft outline) {entry : Entry}
    (spellable : entry.Spellable) :
    ∃ after, (Draft.writeEntry entry).run draft = (outline.answer (.writeEntry entry), after) ∧
      Mirrors prologue after (outline.record (.writeEntry entry)) := by
  have admits := mirrors.admission entry
  rw [Outline.answer, Outline.record]
  cases admitted : outline.admission entry with
  | error fault => exact ⟨draft, by simp [Draft.writeEntry, admits, admitted], mirrors⟩
  | ok accepted =>
    obtain ⟨⟨content, opened⟩, new⟩ := Outline.of_admission admitted
    have distinct : ((outline.entries ++ ([entry] ++ outline.deferred)).map Entry.key).Nodup :=
      distinct_of_perm mirrors.distinct new List.perm_middle
    have written := mirrors.append opened mirrors.deferred
      (List.forall_mem_cons.2 ⟨spellable, mirrors.spellable⟩) distinct
    rw [List.flatMap_singleton] at written
    refine ⟨_, ?_, written⟩
    simp [Draft.writeEntry, admits, admitted, mirrors.told.patient, Draft.noted]

theorem deferEntry (mirrors : Mirrors prologue draft outline) {entry : Entry}
    (spellable : entry.Spellable) :
    ∃ after, (Draft.deferEntry entry).run draft = (outline.answer (.deferEntry entry), after) ∧
      Mirrors prologue after (outline.record (.deferEntry entry)) := by
  have admits := mirrors.admission entry
  rw [Outline.answer, Outline.record]
  cases admitted : outline.admission entry with
  | error fault => exact ⟨draft, by simp [Draft.deferEntry, admits, admitted], mirrors⟩
  | ok accepted =>
    obtain ⟨⟨content, opened⟩, new⟩ := Outline.of_admission admitted
    refine ⟨{ draft with deferred := draft.deferred.insert entry.key entry },
      by simp [Draft.deferEntry, admits, admitted], mirrors.told, mirrors.current, mirrors.written,
      ?_, ?_, ?_, ?_⟩
    · refine mirrors.deferred.insert fun mem ↦ new ?_
      rw [List.map_append]
      exact List.mem_append_right _ mem
    · refine distinct_of_perm mirrors.distinct new ?_
      rw [← List.append_assoc]
      exact List.perm_append_singleton entry _
    · intro other h
      rcases List.mem_append.1 h with h | h
      · exact mirrors.spellable other h
      · rw [List.mem_singleton.1 h]
        exact spellable
    · intro none_open
      rw [opened] at none_open
      cases none_open

/-- A flush writes what is put off, in the draft as in the outline. -/
theorem flush (mirrors : Mirrors prologue draft outline) :
    ∃ after, Draft.flush.run draft = (.ok (), after) ∧ Mirrors prologue after outline.flush := by
  have distinct := mirrors.distinct
  rw [List.map_append] at distinct
  have values := mirrors.deferred.values (List.nodup_append.1 distinct).2.1
  refine ⟨_, Draft.run_flush mirrors.told.patient, ?_⟩
  rw [values]
  cases opened : outline.current with
  | none =>
    have nothing := mirrors.attached opened
    have sorted : sortedByKey outline.deferred = [] := by
      rw [nothing, sortedByKey, List.mergeSort_nil]
    rw [Outline.flush_of_none opened nothing, sorted]
    refine ⟨mirrors.told, mirrors.current, mirrors.written, ?_, mirrors.distinct,
      mirrors.spellable, mirrors.attached⟩
    rw [nothing]
    exact .empty id
  | some content =>
    have perm := sortedByKey_perm outline.deferred
    refine mirrors.append opened (.empty id) ?_ ?_
    · rw [List.append_nil]
      exact fun entry h ↦ mirrors.spellable entry (perm.mem_iff.1 h)
    · rw [List.append_nil]
      exact ((perm.append_left _).map Entry.key).nodup_iff.2 mirrors.distinct

theorem endFile (mirrors : Mirrors prologue draft outline) :
    ∃ after, Draft.endFile.run draft = (outline.answer .endFile, after) ∧
      Mirrors prologue after (outline.record .endFile) := by
  obtain ⟨flushed, flushes, mirrored⟩ := mirrors.flush
  rw [Outline.answer, Outline.record]
  cases opened : outline.current with
  | none =>
    have nothing := mirrors.attached opened
    rw [Outline.flush_of_none opened nothing] at mirrored
    refine ⟨flushed, ?_, by rwa [Outline.close_of_none opened nothing]⟩
    simp [Draft.endFile, flushes, mirrored.current, opened]
  | some content =>
    have still : outline.flush.current =
        some { content with entries := content.entries ++ sortedByKey outline.deferred } := by
      rw [Outline.flush, Outline.append, opened]
      rfl
    have told := mirrored.told
    rw [Outline.stage, still] at told
    have closed := told.close.comment_root ("End of file " ++ fileName content.origin.path)
    have complete : OpenSection.complete
        { origin := content.origin.readBack
          entries := ((content.entries ++ sortedByKey outline.deferred).map Entry.readBack).reverse } =
        Section.readBack
          { content with entries := content.entries ++ sortedByKey outline.deferred } :=
      congrArg (Section.mk _) (List.reverse_reverse _)
    have current : flushed.current = some content.origin := by
      rw [mirrored.current, still]
      rfl
    rw [Outline.close, still]
    refine ⟨_, Draft.run_endFile flushes current told.patient, ?_, rfl, .empty _, mirrored.deferred,
      List.nodup_nil, List.forall_mem_nil _, fun _ ↦ rfl⟩
    rw [Option.toList_some, List.map_append]
    rw [complete] at closed
    exact closed

theorem endOpenFile (mirrors : Mirrors prologue draft outline) :
    ∃ after, Draft.endOpenFile.run draft = (.ok (), after) ∧ Mirrors prologue after outline.close := by
  have current := mirrors.current
  cases opened : outline.current with
  | none =>
    rw [opened] at current
    rw [Outline.close_of_none opened (mirrors.attached opened)]
    exact ⟨draft, draft.endOpenFile_of_none current, mirrors⟩
  | some content =>
    obtain ⟨after, ends, mirrored⟩ := mirrors.endFile
    rw [opened] at current
    rw [Outline.answer, opened] at ends
    exact ⟨after, (draft.endOpenFile_of_ne_none (by simp [current])).trans ends, mirrored⟩

/-- A section begins in the draft as in the outline. -/
theorem startFile (mirrors : Mirrors prologue draft outline) {origin : Origin}
    (ordinary : origin.Ordinary) :
    ∃ after, (Draft.startFile origin).run draft = (.ok (), after) ∧
      Mirrors prologue after (outline.record (.startFile origin)) := by
  rw [Outline.record, ← mirrors.current]
  by_cases same : draft.current = some origin
  · rw [if_pos same]
    exact ⟨draft, draft.startFile_of_open same, mirrors⟩
  · obtain ⟨ended, ends, mirrored⟩ := mirrors.endOpenFile
    have told := (mirrored.told.comment_root ("Start of file " ++ fileName origin.path)).start ordinary
    rw [if_neg same]
    exact ⟨_, Draft.run_startFile same ends mirrored.told.patient, told, rfl, .empty _, .empty _,
      List.nodup_nil, List.forall_mem_nil _, fun _ ↦ rfl⟩

theorem comment (mirrors : Mirrors prologue draft outline) (closed : outline.current = none)
    (text : String) :
    ∃ after, (Draft.comment text).run draft = (.ok (), after) ∧ Mirrors prologue after outline := by
  have told := mirrors.told
  rw [Outline.stage, closed] at told
  refine ⟨_, Draft.run_comment told.patient text, ?_, mirrors.current, mirrors.written,
    mirrors.deferred, mirrors.distinct, mirrors.spellable, mirrors.attached⟩
  rw [Outline.stage, closed]
  exact told.comment_root text

end Mirrors

end Phrasebook.Document
