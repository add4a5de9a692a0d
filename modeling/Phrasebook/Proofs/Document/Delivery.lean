import Phrasebook.Proofs.Document.RoundTrip
import Phrasebook.Proofs.Document.Refusal

/-!
# The delivery of deferred entries

Which of the entries that a section put off come to the sink, whatever is called and whenever the sink
begins to refuse. A flush writes the entries in the order of their keys, up to the first that is refused;
that one and those behind it are neither written nor put off any longer. So the next flush has nothing
left to do and reports success.
-/

namespace Phrasebook.Document

open Phrasebook.Markup

/-- A text holds entries, each in full and behind the one before, with any other text between them. -/
inductive Holds : String → List Entry → Prop
  | nothing : Holds "" []
  | other {text : String} {entries : List Entry} (h : Holds text entries) (more : String) :
    Holds (text ++ more) entries
  | entry {text : String} {entries : List Entry} (h : Holds text entries) (page : Page)
    (entry : Entry) : Holds (text ++ page.lines entry.spelling) (entries ++ [entry])

theorem Holds.append {text more : String} {entries others : List Entry} (first : Holds text entries)
    (rest : Holds more others) : Holds (text ++ more) (entries ++ others) := by
  induction rest with
  | nothing =>
    rw [String.append_empty, List.append_nil]
    exact first
  | other _ more ih =>
    rw [← String.append_assoc]
    exact ih.other more
  | entry _ page entry ih =>
    rw [← String.append_assoc, ← List.append_assoc]
    exact ih.entry page entry

namespace Draft

/-! ## One delivery -/

/-- The entries that come to the sink as a whole when entries are written one after the other. -/
def delivery (draft : Draft) : List Entry → List Entry
  | [] => []
  | entry :: rest =>
    match (emit entry).run draft with
    | (.ok _, next) => entry :: (next.noted entry).delivery rest
    | (.error _, _) => []

/-- What writing entries one after the other leads to, if certain entries come to the sink. -/
structure Delivers (draft : Draft) (entries delivered : List Entry)
    (outcome : Except Fault Unit × Draft) : Prop where
  begins : delivered <+: entries
  state : outcome.2 = { delivered.foldl noted draft with page := outcome.2.page }
  text : ∃ body, outcome.2.text = draft.text ++ body ∧ Holds body delivered
  complete : outcome.1 = .ok () → delivered = entries
  lossy : outcome.1 ≠ .ok () → delivered ≠ entries ∧ outcome.2.page.sink.Exhausted
  spent : draft.page.sink.Exhausted → delivered = [] ∧ outcome.2.page.sink.Exhausted

theorem foldl_noted_page (entries : List Entry) (draft : Draft) (page : Page) :
    entries.foldl noted { draft with page := page } =
      { entries.foldl noted draft with page := page } := by
  induction entries generalizing draft with
  | nil => rfl
  | cons entry entries ih => exact ih (draft.noted entry)

namespace Delivers

variable {draft : Draft} {entry : Entry} {entries delivered : List Entry} {page : Page}

theorem nil (draft : Draft) : draft.Delivers [] [] (.ok (), draft) where
  begins := List.prefix_rfl
  state := rfl
  text := ⟨"", String.append_empty.symm, .nothing⟩
  complete _ := rfl
  lossy failed := absurd rfl failed
  spent exhausted := ⟨rfl, exhausted⟩

theorem cut {text : String} (outcome : draft.page.sink.Outcome text false page.sink) (fault : Fault) :
    draft.Delivers (entry :: entries) [] (.error fault, { draft with page := page }) where
  begins := List.nil_prefix
  state := rfl
  text := by
    obtain ⟨part, grown⟩ := outcome.grows
    refine ⟨part, grown, ?_⟩
    simpa using Holds.nothing.other part
  complete := nofun
  lossy _ := ⟨nofun, outcome.spent⟩
  spent exhausted := ⟨rfl, outcome.stays exhausted⟩

theorem cons {outcome : Except Fault Unit × Draft}
    (first : draft.page.sink.Outcome (draft.page.lines entry.spelling) true page.sink)
    (rest : (noted { draft with page := page } entry).Delivers entries delivered outcome) :
    draft.Delivers (entry :: entries) (entry :: delivered) outcome where
  begins := List.cons_prefix_cons.2 ⟨rfl, rest.begins⟩
  state := by
    have state := rest.state
    rw [← List.foldl_cons, foldl_noted_page] at state
    exact state
  text := by
    obtain ⟨body, grown, holds⟩ := rest.text
    refine ⟨draft.page.lines entry.spelling ++ body, ?_, ?_⟩
    · rw [← String.append_assoc, grown]
      exact congrArg (· ++ body) first.text_eq
    · have whole := (Holds.nothing.entry draft.page entry).append holds
      rwa [String.empty_append] at whole
  complete succeeds := congrArg (entry :: ·) (rest.complete succeeds)
  lossy failed := by
    obtain ⟨fewer, exhausted⟩ := rest.lossy failed
    exact ⟨fun same ↦ fewer (List.cons.inj same).2, exhausted⟩
  spent exhausted := by
    have refused := first.eq_false exhausted (lines_spelling_ne_empty draft.page entry)
    cases refused

end Delivers

theorem foldl_noted (draft : Draft) (entries : List Entry) :
    ∃ written, entries.foldl noted draft = { draft with written := written } ∧
      ∀ key : String, key ∈ written ↔ key ∈ draft.written ∨ key ∈ entries.map Entry.key := by
  induction entries generalizing draft with
  | nil => exact ⟨draft.written, rfl, fun key ↦ by simp⟩
  | cons entry entries ih =>
    obtain ⟨written, noted, holds⟩ := ih (draft.noted entry)
    refine ⟨written, noted, fun key ↦ ?_⟩
    rw [holds, Draft.noted, Std.TreeMap.mem_insert, Std.LawfulEqOrd.compare_eq_iff_eq, List.map_cons,
      List.mem_cons, eq_comm]
    exact or_assoc.trans or_left_comm

/-- Entries come to the sink as a whole, up to the first that is refused. -/
theorem delivers_emitAll (draft : Draft) (entries : List Entry) :
    draft.Delivers entries (draft.delivery entries) ((emitAll entries).run draft) := by
  induction entries generalizing draft with
  | nil => exact .nil draft
  | cons entry entries ih =>
    have first := draft.writes_emit entry
    rw [emitAll, delivery]
    generalize emitted : (emit entry).run draft = outcome at first ⊢
    cases first with
    | cut fault refused => simpa [emitted] using Delivers.cut refused fault
    | @full page taken =>
      simpa [emitted] using Delivers.cons taken (ih _)

/-- The entries that a flush brings to the sink. -/
def flushed (draft : Draft) : List Entry :=
  { draft with deferred := ∅ }.delivery draft.deferred.values

theorem delivers_flush (draft : Draft) :
    { draft with deferred := ∅ }.Delivers draft.deferred.values draft.flushed (flush.run draft) := by
  rw [flush_eq_emitAll]
  exact delivers_emitAll { draft with deferred := ∅ } draft.deferred.values

/-- What a flush leaves behind: nothing is put off, and the entries that came to the sink are noted. -/
theorem run_flush_eq (draft : Draft) :
    ∃ written, (flush.run draft).2 =
        { page := (flush.run draft).2.page, current := draft.current, written := written } ∧
      ∀ key : String, key ∈ written ↔ key ∈ draft.written ∨ key ∈ draft.flushed.map Entry.key := by
  obtain ⟨written, noted, holds⟩ := foldl_noted { draft with deferred := ∅ } draft.flushed
  refine ⟨written, ?_, holds⟩
  rw [draft.delivers_flush.state, noted]

theorem deferred_flush (draft : Draft) : (flush.run draft).2.deferred = ∅ := by
  obtain ⟨written, state, -⟩ := draft.run_flush_eq
  rw [state]

theorem current_flush (draft : Draft) : (flush.run draft).2.current = draft.current := by
  obtain ⟨written, state, -⟩ := draft.run_flush_eq
  rw [state]

/-- A flush that has nothing to do. -/
theorem flush_of_nothing {draft : Draft} (nothing : draft.deferred = ∅) :
    draft.flushed = [] ∧ flush.run draft = (.ok (), draft) := by
  obtain ⟨page, current, written, deferred⟩ := draft
  cases nothing
  exact ⟨rfl, rfl⟩

/-! ## Calls -/

variable (draft : Draft)

theorem accepted?_eq_none_iff {key : String} :
    draft.accepted? key = none ↔ key ∉ draft.written ∧ key ∉ draft.deferred := by
  rw [accepted?, ← Std.TreeMap.isSome_getElem?_iff_mem, ← Std.TreeMap.isSome_getElem?_iff_mem]
  cases draft.written[key]? with
  | some text => simp
  | none => simp

/-- An entry is taken only into an open section, and only if its key looks new there. -/
theorem of_admission {entry : Entry} (admitted : draft.admission entry = .ok ()) :
    draft.current ≠ none ∧ entry.key ∉ draft.written ∧ entry.key ∉ draft.deferred := by
  rw [admission] at admitted
  cases opened : draft.current with
  | none => simp [opened] at admitted
  | some origin =>
    cases accepted : draft.accepted? entry.key with
    | some existing => simp [opened, accepted] at admitted
    | none => exact ⟨Option.some_ne_none origin, draft.accepted?_eq_none_iff.1 accepted⟩

/-- How a section ends: not at all if its flush fails or none is open; else it is flushed and over,
and if it ended without a fault, its sink took something. -/
theorem endFile_run :
    ((endFile.run draft).1 ≠ .ok () ∧ (endFile.run draft).2 = (flush.run draft).2) ∨
      ((flush.run draft).1 = .ok () ∧ (endFile.run draft).2.current = none ∧
        (endFile.run draft).2.deferred = ∅ ∧ (flush.run draft).2.Extends (endFile.run draft).2 ∧
        ((endFile.run draft).1 = .ok () → ¬ (flush.run draft).2.page.sink.Exhausted)) := by
  have nothing := draft.deferred_flush
  rw [endFile]
  generalize flushes : flush.run draft = outcome at nothing ⊢
  obtain ⟨result, flushed⟩ := outcome
  dsimp only at nothing
  cases result with
  | error fault => exact .inl (by simp [flushes])
  | ok done =>
    cases opened : flushed.current with
    | none => exact .inl (by simp [flushes, opened])
    | some origin =>
      have closes := writes_item { flushed with current := none } (.close fileElement)
      refine .inr ⟨rfl, ?_⟩
      rw [run_bind_of_ok flushes, run_get_bind, opened]
      dsimp only
      rw [run_set_bind]
      rcases closes.bind _ with ⟨fault, page, refused, ran⟩ | ⟨page, taken, ran⟩
      · rw [ran]
        exact ⟨rfl, nothing, ⟨refused.grows, refused.stays⟩, by simp⟩
      · have extends_ : flushed.Extends { flushed with page := page } := ⟨taken.grows, taken.stays⟩
        have fresh : ¬ flushed.page.sink.Exhausted := by
          intro exhausted
          cases taken.eq_false exhausted (Page.line_ne_empty _ rfl)
        have remarks := writes_comment { flushed with current := none, page := page }
          ("End of file " ++ fileName origin.path)
        rcases remarks.bind _ with ⟨fault, page, refused, ended⟩ | ⟨page, further, ended⟩
        · rw [ran, ended]
          exact ⟨rfl, nothing, extends_.trans ⟨refused.grows, refused.stays⟩, by simp⟩
        · rw [ran, ended]
          exact ⟨rfl, nothing, extends_.trans ⟨further.grows, further.stays⟩, fun _ ↦ fresh⟩

/-- How a section begins: not at all if the one before cannot end; else behind its end. -/
theorem startFile_run {origin : Origin} (other : draft.current ≠ some origin) :
    (∃ fault, (endOpenFile.run draft).1 = .error fault ∧
        (startFile origin).run draft = endOpenFile.run draft) ∨
      ((endOpenFile.run draft).1 = .ok () ∧ ((startFile origin).run draft).2.deferred = ∅ ∧
        (endOpenFile.run draft).2.Extends ((startFile origin).run draft).2) := by
  rw [startFile, run_get_bind, if_pos other]
  generalize ends : endOpenFile.run draft = outcome
  obtain ⟨result, ended⟩ := outcome
  cases result with
  | error fault =>
    rw [run_bind_of_error ends]
    exact .inl ⟨fault, rfl, rfl⟩
  | ok done =>
    rw [run_bind_of_ok ends, run_modify_bind]
    refine .inr ⟨rfl, ?_⟩
    have remarks := writes_comment { ended with written := ∅, deferred := ∅ }
      ("Start of file " ++ fileName origin.path)
    rcases remarks.bind _ with ⟨fault, page, refused, ran⟩ | ⟨page, taken, ran⟩
    · rw [ran]
      exact ⟨rfl, refused.grows, refused.stays⟩
    · have extends_ : ended.Extends { ended with page := page } := ⟨taken.grows, taken.stays⟩
      have starts := writes_item { ended with page := page, written := ∅, deferred := ∅ }
        (.start fileElement origin.elementAttributes)
      rcases starts.bind _ with ⟨fault, page, refused, begun⟩ | ⟨page, further, begun⟩
      · rw [ran, begun]
        exact ⟨rfl, extends_.trans ⟨refused.grows, refused.stays⟩⟩
      · rw [ran, begun]
        exact ⟨rfl, extends_.trans ⟨further.grows, further.stays⟩⟩

theorem current_endOpenFile (ends : (endOpenFile.run draft).1 = .ok ()) :
    (endOpenFile.run draft).2.current = none := by
  by_cases closed : draft.current = none
  · rw [draft.endOpenFile_of_none closed]
    exact closed
  · rw [draft.endOpenFile_of_ne_none closed] at ends ⊢
    rcases draft.endFile_run with ⟨fails, -⟩ | ⟨-, closed, -⟩
    · exact absurd ends fails
    · exact closed

/-- A document that ends without a fault ended its section before, and its sink took something more. -/
theorem finish_run (finishes : (finish.run draft).1 = .ok ()) :
    (endOpenFile.run draft).1 = .ok () ∧ ¬ (endOpenFile.run draft).2.page.sink.Exhausted ∧
      (endOpenFile.run draft).2.Extends (finish.run draft).2 := by
  rw [finish] at finishes ⊢
  generalize ends : endOpenFile.run draft = outcome
  obtain ⟨result, ended⟩ := outcome
  cases result with
  | error fault =>
    rw [run_bind_of_error ends] at finishes
    cases finishes
  | ok done =>
    rw [run_bind_of_ok ends] at finishes ⊢
    have closes := ended.writes_item (.close rootElement)
    rcases closes.bind _ with ⟨fault, page, refused, ran⟩ | ⟨page, taken, ran⟩
    · rw [ran] at finishes
      cases finishes
    · rw [ran]
      have extends_ : ended.Extends { ended with page := page } := ⟨taken.grows, taken.stays⟩
      refine ⟨rfl, fun exhausted ↦ ?_, ?_⟩
      · cases taken.eq_false exhausted (Page.line_ne_empty _ rfl)
      · exact extends_.trans (writes_plain { ended with page := page } "\n").extension

end Draft

end Phrasebook.Document
