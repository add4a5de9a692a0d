import Phrasebook.Proofs.Document.Delivery
import Phrasebook.Proofs.Document.Register

/-!
# Unique keys

A draft on a sink that refuses nothing answers and writes as its register says, whatever is called: its
two tables hold what stands in the output since the start of the section and what is put off. So no key
comes twice in a section, and a call that is refused leaves no trace.
-/

namespace Phrasebook.Document

open Phrasebook.Calendar Phrasebook.Markup

theorem find?_key_eq_of_perm {entries others : List Entry}
    (distinct : (entries.map Entry.key).Nodup) (perm : entries.Perm others) (key : String) :
    entries.find? (·.key = key) = others.find? (·.key = key) := by
  refine Option.ext fun entry ↦ ?_
  rw [find?_key_eq_some_iff distinct,
    find?_key_eq_some_iff ((perm.map Entry.key).nodup_iff.1 distinct), perm.mem_iff]

/-- A draft on a sink that refuses nothing holds what its register says, behind a page that was
begun. -/
structure Registers (begun : Page) (draft : Draft) (register : Register) : Prop where
  patient : draft.page.sink.patience = none
  page : draft.page = begun.putAll (register.portions.flatMap Portion.items)
  current : draft.current = register.current
  written : Indexes draft.written Entry.text (Portion.latest register.portions)
  deferred : Indexes draft.deferred id register.waiting
  attached : draft.current = none → draft.deferred = ∅
  sound : register.Sound

namespace Registers

variable {begun : Page} {draft : Draft} {register : Register}

theorem admission (registers : Registers begun draft register) (entry : Entry) :
    draft.admission entry = register.admission entry := by
  rw [Draft.admission, registers.current, Register.admission]
  cases register.current with
  | none => rfl
  | some origin =>
    dsimp only
    rw [Draft.accepted?_eq registers.written registers.deferred,
      find?_key_eq_of_perm registers.sound.held_distinct registers.sound.accounted]
    cases register.accepted.find? (·.key = entry.key) with
    | none => rfl
    | some first => rfl

/-- Entries that are written to the open section. -/
theorem append (registers : Registers begun draft register) (added : List Entry)
    {table : Std.TreeMap String Entry} {after : Register} (sound : after.Sound)
    (current : after.current = register.current)
    (portions : after.portions = register.portions ++ added.map .content)
    (deferred : Indexes table id after.waiting) (attached : draft.current = none → table = ∅) :
    Registers begun
      { draft with
        page := draft.page.putAll (added.flatMap Entry.spelling)
        written := added.foldl (fun table entry ↦ table.insert entry.key entry.text) draft.written
        deferred := table }
      after := by
  have latest : Portion.latest after.portions = Portion.latest register.portions ++ added := by
    rw [portions, Portion.latest_entries]
  have items : (added.map Portion.content).flatMap Portion.items =
      added.flatMap Entry.spelling := List.flatMap_map _ _ _
  constructor
  · exact Page.patience_putAll registers.patient _
  · rw [portions, List.flatMap_append, items, Page.putAll_append]
    exact congrArg (Page.putAll · _) registers.page
  · rw [current]
    exact registers.current
  · have distinct := sound.held_distinct.sublist ((List.sublist_append_left _ _).map Entry.key)
    rw [latest] at distinct ⊢
    exact registers.written.insertAll distinct
  · exact deferred
  · exact attached
  · exact sound

theorem writeEntry (registers : Registers begun draft register) (entry : Entry) :
    ∃ after, (Draft.writeEntry entry).run draft = (register.answer (.writeEntry entry), after) ∧
      Registers begun after (register.record (.writeEntry entry)) := by
  have admits := registers.admission entry
  rw [Register.answer, Register.record]
  cases admitted : register.admission entry with
  | error fault => exact ⟨draft, by simp [Draft.writeEntry, admits, admitted], registers⟩
  | ok done =>
    have written := registers.append [entry] (registers.sound.write admitted) rfl rfl
      registers.deferred registers.attached
    rw [List.flatMap_singleton] at written
    refine ⟨_, ?_, written⟩
    simp [Draft.writeEntry, admits, admitted, registers.patient, Draft.noted]

theorem deferEntry (registers : Registers begun draft register) (entry : Entry) :
    ∃ after, (Draft.deferEntry entry).run draft = (register.answer (.deferEntry entry), after) ∧
      Registers begun after (register.record (.deferEntry entry)) := by
  have admits := registers.admission entry
  rw [Register.answer, Register.record]
  cases admitted : register.admission entry with
  | error fault => exact ⟨draft, by simp [Draft.deferEntry, admits, admitted], registers⟩
  | ok done =>
    have sound := registers.sound.putOff admitted
    obtain ⟨⟨origin, opened⟩, -⟩ := Register.of_admission admitted
    refine ⟨{ draft with deferred := draft.deferred.insert entry.key entry },
      by simp [Draft.deferEntry, admits, admitted], registers.patient, registers.page,
      registers.current, registers.written, registers.deferred.insert fun mem ↦ ?_, fun closed ↦ ?_, sound⟩
    · have distinct := sound.waiting_distinct
      rw [List.map_append] at distinct
      exact (List.nodup_append.1 distinct).2.2 _ mem _ List.mem_cons_self rfl
    · cases (registers.current.trans opened).symm.trans closed

theorem flush (registers : Registers begun draft register) :
    ∃ after, Draft.flush.run draft = (.ok (), after) ∧ after.deferred = ∅ ∧
      Registers begun after register.flush := by
  refine ⟨_, Draft.run_flush registers.patient, rfl, ?_⟩
  rw [registers.deferred.values registers.sound.waiting_distinct]
  exact registers.append _ registers.sound.flush rfl rfl (.empty id) fun _ ↦ rfl

/-- Where no section is open, none can end, and nothing happens. -/
theorem endFile_of_none (registers : Registers begun draft register) (closed : draft.current = none) :
    Draft.endFile.run draft = (.error .noOpenSection, draft) := by
  have flushes := (Draft.flush_of_nothing (registers.attached closed)).2
  simp [Draft.endFile, flushes, closed]

theorem endFile (registers : Registers begun draft register) :
    ∃ after, Draft.endFile.run draft = (register.answer .endFile, after) ∧
      Registers begun after register.close := by
  have sound := registers.sound.close
  rw [Register.answer]
  rw [Register.close] at sound ⊢
  cases opened : register.current with
  | none => exact ⟨draft, registers.endFile_of_none (registers.current.trans opened), registers⟩
  | some origin =>
    obtain ⟨flushed, flushes, nothing, held⟩ := registers.flush
    have current : flushed.current = some origin := held.current.trans opened
    rw [opened] at sound
    refine ⟨_, Draft.run_endFile flushes current held.patient, by simp [Draft.ending, held.patient],
      ?_, rfl, ?_, held.deferred, fun _ ↦ nothing, sound⟩
    · simp [Draft.ending, Portion.items, held.page]
    · rw [Portion.latest_concat]
      exact .empty _

theorem endOpenFile (registers : Registers begun draft register) :
    ∃ after, Draft.endOpenFile.run draft = (.ok (), after) ∧
      Registers begun after register.close := by
  cases opened : register.current with
  | none =>
    rw [Register.close, opened]
    exact ⟨draft, draft.endOpenFile_of_none (registers.current.trans opened), registers⟩
  | some origin =>
    have current := registers.current.trans opened
    obtain ⟨after, ends, closed⟩ := registers.endFile
    rw [Register.answer, opened] at ends
    refine ⟨after, ?_, closed⟩
    rw [draft.endOpenFile_of_ne_none (by rw [current]; exact Option.some_ne_none origin)]
    exact ends

theorem startFile (registers : Registers begun draft register) (origin : Origin) :
    ∃ after, (Draft.startFile origin).run draft = (.ok (), after) ∧
      Registers begun after (register.record (.startFile origin)) := by
  have sound := registers.sound.record (.startFile origin)
  rw [Register.record] at sound ⊢
  by_cases same : draft.current = some origin
  · rw [if_pos (registers.current.symm.trans same)]
    exact ⟨draft, draft.startFile_of_open same, registers⟩
  · obtain ⟨ended, ends, closed⟩ := registers.endOpenFile
    rw [if_neg (registers.current ▸ same)] at sound ⊢
    refine ⟨_, Draft.run_startFile same ends closed.patient,
      Draft.patience_beginning closed.patient origin, ?_, rfl, ?_, .empty _, fun _ ↦ rfl, sound⟩
    · simp [Draft.beginning, Portion.items, closed.page]
    · rw [Portion.latest_concat]
      exact .empty _

theorem comment (registers : Registers begun draft register) (text : String) :
    ∃ after, (Draft.comment text).run draft = (.ok (), after) ∧
      Registers begun after (register.record (.comment text)) := by
  refine ⟨_, Draft.run_comment registers.patient text, Page.patience_put registers.patient _, ?_,
    registers.current, ?_, registers.deferred, registers.attached,
    registers.sound.record (.comment text)⟩
  · simp [Register.record, Portion.items, registers.page]
  · rw [Register.record, Portion.latest_concat]
    exact registers.written

/-- A draft and its register stay together, whatever is called. -/
theorem call (registers : Registers begun draft register) (call : Call) :
    ∃ after, call.step.run draft = (register.answer call, after) ∧
      Registers begun after (register.record call) := by
  cases call with
  | startFile origin => exact registers.startFile origin
  | writeEntry entry => exact registers.writeEntry entry
  | deferEntry entry => exact registers.deferEntry entry
  | flush =>
    obtain ⟨after, flushes, -, held⟩ := registers.flush
    exact ⟨after, flushes, held⟩
  | endFile => exact registers.endFile
  | comment text => exact registers.comment text

/-- On a sink that takes everything, calls are answered as the register says. -/
theorem performAll (registers : Registers begun draft register) (calls : List Call) :
    ∃ after, draft.performAll calls = (register.answers calls, after) ∧
      Registers begun after (register.recordAll calls) := by
  induction calls generalizing draft register with
  | nil => exact ⟨draft, rfl, registers⟩
  | cons call calls ih =>
    obtain ⟨next, answer, held⟩ := registers.call call
    obtain ⟨after, answers, held⟩ := ih held
    refine ⟨after, ?_, held⟩
    rw [Draft.performAll, answer]
    dsimp only
    rw [answers]
    rfl

/-- A refused call leaves the draft as it is. -/
theorem unchanged (registers : Registers begun draft register) {call : Call} {fault : Fault}
    (refused : register.answer call = .error fault) :
    call.step.run draft = (.error fault, draft) := by
  cases call with
  | startFile origin | flush | comment text => cases refused
  | writeEntry entry | deferEntry entry =>
    have refuses : draft.admission entry = .error fault := (registers.admission entry).trans refused
    simp [Call.step, Draft.writeEntry, Draft.deferEntry, refuses]
  | endFile =>
    rw [Register.answer] at refused
    cases opened : register.current with
    | none =>
      rw [opened] at refused
      cases refused
      exact registers.endFile_of_none (registers.current.trans opened)
    | some origin =>
      rw [opened] at refused
      cases refused

theorem finish (registers : Registers begun draft register) :
    ∃ finished, Draft.finish.run draft = (.ok (), finished) ∧
      finished.page = Page.ended (begun.putAll (register.close.portions.flatMap Portion.items)) := by
  obtain ⟨ended, ends, closed⟩ := registers.endOpenFile
  refine ⟨{ ended with page := Page.ended ended.page }, ?_, congrArg Page.ended closed.page⟩
  rw [Draft.finish, run_bind_of_ok ends, Draft.run_last closed.patient]

/-- How entries fare that are written or put off next. -/
theorem judges (registers : Registers begun draft register) (entry : Entry) :
    register.Judges entry ((Draft.writeEntry entry).run draft).1 ∧
      register.Judges entry ((Draft.deferEntry entry).run draft).1 := by
  obtain ⟨written, writes, -⟩ := registers.writeEntry entry
  obtain ⟨deferred, defers, -⟩ := registers.deferEntry entry
  rw [writes, defers]
  exact ⟨register.judges_admission entry, register.judges_admission entry⟩

/-- The calls behind a refused one go on as if it had not been made. -/
theorem performAll_refused (registers : Registers begun draft register) {call : Call} {fault : Fault}
    (refused : (call.step.run draft).1 = .error fault) (more : List Call) :
    draft.performAll (call :: more) =
      (.error fault :: (draft.performAll more).1, (draft.performAll more).2) := by
  obtain ⟨after, answered, -⟩ := registers.call call
  rw [answered] at refused
  rw [Draft.performAll, registers.unchanged refused]

/-- A section that is not open yet accepts every entry first. -/
theorem startFile_accepts (registers : Registers begun draft register) {origin : Origin}
    (other : draft.current ≠ some origin) (entry : Entry) :
    ((Draft.writeEntry entry).run ((Draft.startFile origin).run draft).2).1 = .ok () := by
  obtain ⟨after, starts, held⟩ := registers.startFile origin
  have fresh : register.record (.startFile origin) =
      { current := some origin, portions := register.close.portions ++ [.opening origin] } :=
    if_neg (registers.current ▸ other)
  rw [fresh] at held
  rw [starts]
  exact (held.judges entry).1.accepted.2 ⟨⟨origin, rfl⟩, List.not_mem_nil⟩

end Registers

/-- Keys are unique in a section. On a sink that refuses nothing the calls on a draft answer, and what
they write is, as their register says: no key comes twice between the start of a section and its end,
whether or not the document is finished behind the calls. An entry is refused if no section is open, or
if the open one accepted its key before, and never else. A refused call is as if it had not been made.
Beginning the open section again changes nothing, and any other section begins with no keys. -/
theorem keys_unique_per_section {sink : Sink} (patient : sink.patience = none) (locale : String)
    (generated : Instant) (calls : List Call) :
    let begun := (Draft.start sink locale generated).2
    let draft := (begun.performAll calls).2
    let register := ({} : Register).recordAll calls
    (begun.performAll calls).1 = ({} : Register).answers calls ∧
      draft.current = register.current ∧
      draft.page = begun.page.putAll (register.portions.flatMap Portion.items) ∧
      Portion.KeysApart register.portions ∧
      (∃ finished, Draft.finish.run draft = (.ok (), finished) ∧
        finished.page = Page.ended
          (begun.page.putAll (register.close.portions.flatMap Portion.items)) ∧
        Portion.KeysApart register.close.portions) ∧
      (∀ entry, register.Judges entry ((Draft.writeEntry entry).run draft).1 ∧
        register.Judges entry ((Draft.deferEntry entry).run draft).1) ∧
      (∀ call fault, (call.step.run draft).1 = .error fault → ∀ more,
        draft.performAll (call :: more) =
          (.error fault :: (draft.performAll more).1, (draft.performAll more).2)) ∧
      (∀ origin, draft.current = some origin →
        (Draft.startFile origin).run draft = (.ok (), draft)) ∧
      ∀ origin, draft.current ≠ some origin → ∀ entry,
        ((Draft.writeEntry entry).run ((Draft.startFile origin).run draft).2).1 = .ok () := by
  intro begun draft register
  have first : Registers begun.page begun {} := by
    have started : begun = { page := titlePage sink generated locale } :=
      congrArg Prod.snd (Draft.start_eq patient locale generated)
    rw [started]
    exact ⟨patience_titlePage patient generated locale, rfl, rfl, .empty _, .empty _, fun _ ↦ rfl,
      .nothing⟩
  obtain ⟨called, performed, registers⟩ := first.performAll calls
  have behind : draft = called := congrArg Prod.snd performed
  rw [← behind] at registers
  obtain ⟨finished, finishes, page⟩ := registers.finish
  exact ⟨congrArg Prod.fst performed, registers.current, registers.page,
    registers.sound.apart.keysApart,
    ⟨finished, finishes, page, registers.sound.close.apart.keysApart⟩,
    registers.judges, fun call fault refused more ↦ registers.performAll_refused refused more,
    fun origin same ↦ draft.startFile_of_open same,
    fun origin other entry ↦ registers.startFile_accepts other entry⟩

/-- An entry that was put off and flushed keeps its key, and a second one is refused for the section. -/
theorem keys_unique_per_section_menu :
    let menu : Origin := ⟨"src/menu.rs", none, none⟩
    let entry : Entry := { kind := .template, key := "open", text := "Open", hash := "0" }
    let calls : List Call :=
      [.startFile menu, .deferEntry entry, .comment "x", .flush, .startFile menu]
    let draft := ((Draft.start {} "en" ⟨19844, 43200, 0⟩).2.performAll calls).2
    ({} : Sink).patience = none ∧
      ((Draft.writeEntry { entry with text := "Close" }).run draft).1 =
        .error (.duplicateKey "src/menu.rs" "open" "Open" "Close") ∧
      ∃ finished, Draft.finish.run draft = (.ok (), finished) := by
  intro menu entry calls draft
  obtain ⟨-, -, -, -, ⟨finished, finishes, -⟩, judges, -⟩ :=
    @keys_unique_per_section {} rfl "en" ⟨19844, 43200, 0⟩ calls
  refine ⟨rfl, ((judges _).1.repeated _ _ _ _).2 ⟨menu, entry, ?_, ?_, rfl, rfl, rfl, rfl⟩,
    finished, finishes⟩
  · decide +kernel
  · decide +kernel

end Phrasebook.Document
