import Phrasebook.Proofs.Document.Mirror

/-!
# Writing on a sink that may refuse

A sink takes a text as a whole or refuses a part of it, and then it refuses for good. So a step that
writes comes to its end with its whole text on the sink, or it fails and leaves a sink that takes nothing
more.
-/

namespace Phrasebook.Markup

namespace Sink

def Exhausted (sink : Sink) : Prop := sink.patience = some 0

/-- What becomes of a text on a sink: it was taken as a whole, or a part of it was refused. -/
inductive Outcome (sink : Sink) (text : String) : Bool → Sink → Prop
  | taken {after : Sink} (grown : after.text = sink.text ++ text)
    (spent : sink.Exhausted → text = "" ∧ after.Exhausted) : Outcome sink text true after
  | refused {after : Sink} (part : String) (grown : after.text = sink.text ++ part)
    (spent : after.Exhausted) : Outcome sink text false after

namespace Outcome

variable {sink middle after : Sink} {text more : String} {accepted : Bool}

theorem append (first : sink.Outcome text true middle) (rest : middle.Outcome more accepted after) :
    sink.Outcome (text ++ more) accepted after := by
  obtain ⟨grown, spent⟩ := first
  cases rest with
  | taken further spent_rest =>
    refine .taken ?_ fun exhausted ↦ ?_
    · rw [further, grown, String.append_assoc]
    · obtain ⟨nothing, exhausted⟩ := spent exhausted
      obtain ⟨nothing_more, exhausted⟩ := spent_rest exhausted
      exact ⟨by rw [nothing, nothing_more, String.append_empty], exhausted⟩
  | refused part further spent_rest =>
    refine .refused (text ++ part) ?_ spent_rest
    rw [further, grown, String.append_assoc]

theorem cut (first : sink.Outcome text false after) (more : String) :
    sink.Outcome (text ++ more) false after := by
  cases first with
  | refused part grown spent => exact .refused part grown spent

/-- An exhausted sink stays exhausted. -/
theorem stays (outcome : sink.Outcome text accepted after) (exhausted : sink.Exhausted) :
    after.Exhausted := by
  cases outcome with
  | taken _ spent => exact (spent exhausted).2
  | refused _ _ spent => exact spent

/-- Nothing is taken back. -/
theorem grows (outcome : sink.Outcome text accepted after) :
    ∃ part, after.text = sink.text ++ part := by
  cases outcome with
  | taken grown _ => exact ⟨text, grown⟩
  | refused part grown _ => exact ⟨part, grown⟩

theorem text_eq (outcome : sink.Outcome text true after) : after.text = sink.text ++ text := by
  cases outcome with
  | taken grown _ => exact grown

theorem spent (outcome : sink.Outcome text false after) : after.Exhausted := by
  cases outcome with
  | refused _ _ spent => exact spent

/-- A text that holds anything is refused by an exhausted sink. -/
theorem eq_false (outcome : sink.Outcome text accepted after) (exhausted : sink.Exhausted)
    (something : text ≠ "") : accepted = false := by
  cases outcome with
  | taken _ spent => exact absurd (spent exhausted).1 something
  | refused _ _ _ => rfl

end Outcome

theorem write_outcome (sink : Sink) (s : String) :
    sink.Outcome s (sink.write s).1 (sink.write s).2 := by
  rw [write]
  split
  · next empty =>
    have nothing : s = "" := String.isEmpty_iff.1 empty
    exact .taken (by rw [nothing, String.append_empty]) fun exhausted ↦ ⟨nothing, exhausted⟩
  · cases patience : sink.patience with
    | none => exact .taken rfl fun exhausted ↦ by cases patience.symm.trans exhausted
    | some left =>
      cases left with
      | zero => exact .refused "" String.append_empty.symm patience
      | succ left => exact .taken rfl fun exhausted ↦ by cases patience.symm.trans exhausted

theorem writeAll_outcome (sink : Sink) (pieces : List String) :
    sink.Outcome (String.join pieces) (sink.writeAll pieces).1 (sink.writeAll pieces).2 := by
  induction pieces generalizing sink with
  | nil => exact .taken String.append_empty.symm fun exhausted ↦ ⟨rfl, exhausted⟩
  | cons s pieces ih =>
    have first := sink.write_outcome s
    rw [String.join_cons, writeAll]
    split
    · next middle taken =>
      rw [taken] at first
      exact first.append (ih middle)
    · next after refused =>
      rw [refused] at first
      exact first.cut _

end Sink

namespace Page

/-- The text of an item on a page, with the white space in front of it. -/
def line (page : Page) (item : Item) : String := String.join (page.lead item ++ item.pieces)

def lines (page : Page) : List Item → String
  | [] => ""
  | item :: rest => page.line item ++ (page.put item).lines rest

theorem write_outcome (page : Page) (item : Item) :
    page.sink.Outcome (page.line item) (page.write item).1 (page.put item).sink :=
  page.sink.writeAll_outcome _

/-- An item other than a text is not nothing. -/
theorem line_ne_empty (page : Page) {item : Item} (marked : item.ownLine = true) :
    page.line item ≠ "" := by
  intro nothing
  have chars := congrArg String.toList nothing
  cases item with
  | text s | cdata s => cases marked
  | declaration | start name attributes | empty name attributes | close name | comment s =>
    simp [line, Item.pieces, String.join_append, String.join_cons] at chars

end Page

end Phrasebook.Markup

namespace Phrasebook.Document

open Phrasebook.Markup

namespace Draft

/-- What a step leads to that only writes a text: the draft with the page behind the text, or a fault
and the page as far as it came. -/
inductive Writes (draft : Draft) (text : String) : Except Fault Unit × Draft → Prop
  | full {page : Page} (outcome : draft.page.sink.Outcome text true page.sink) :
    Writes draft text (.ok (), { draft with page := page })
  | cut (fault : Fault) {page : Page} (outcome : draft.page.sink.Outcome text false page.sink) :
    Writes draft text (.error fault, { draft with page := page })

/-- Text is only added, and a sink that takes nothing stays so. -/
structure Extends (before after : Draft) : Prop where
  grown : ∃ part, after.text = before.text ++ part
  stays : before.page.sink.Exhausted → after.page.sink.Exhausted

theorem Extends.trans {before middle after : Draft} (first : before.Extends middle)
    (rest : middle.Extends after) : before.Extends after := by
  obtain ⟨part, grown⟩ := first.grown
  obtain ⟨more, further⟩ := rest.grown
  refine ⟨⟨part ++ more, ?_⟩, fun exhausted ↦ rest.stays (first.stays exhausted)⟩
  rw [further, grown, String.append_assoc]

namespace Writes

variable {draft : Draft} {text : String} {outcome : Except Fault Unit × Draft}

theorem extension (writes : draft.Writes text outcome) : draft.Extends outcome.2 := by
  cases writes with
  | full outcome => exact ⟨outcome.grows, outcome.stays⟩
  | cut fault outcome => exact ⟨outcome.grows, outcome.stays⟩

theorem state (writes : draft.Writes text outcome) :
    outcome.2 = { draft with page := outcome.2.page } := by
  cases writes with
  | full outcome => rfl
  | cut fault outcome => rfl

/-- What follows a text is done behind it, or not at all if a part of the text is refused. -/
theorem bind {step : DraftM Unit} (writes : draft.Writes text (step.run draft))
    (next : Unit → DraftM Unit) :
    (∃ fault page, draft.page.sink.Outcome text false page.sink ∧
        (step >>= next).run draft = (.error fault, { draft with page := page })) ∨
      ∃ page, draft.page.sink.Outcome text true page.sink ∧
        (step >>= next).run draft = (next ()).run { draft with page := page } := by
  generalize ran : step.run draft = outcome at writes
  cases writes with
  | cut fault refused => exact .inl ⟨fault, _, refused, run_bind_of_error ran _⟩
  | full taken => exact .inr ⟨_, taken, run_bind_of_ok ran _⟩

end Writes

section

variable (draft : Draft)

theorem run_writeItem_eq (item : Item) :
    (writeItem item).run draft =
      (if (draft.page.write item).1 then .ok () else .error (.refused (draft.page.put item).sink.refusal),
        { draft with page := draft.page.put item }) := by
  cases accepted : (draft.page.write item).1 with
  | true => simp [writeItem, Page.put, accepted]
  | false => simp [writeItem, Page.put, accepted]

theorem writes_item (item : Item) :
    Writes draft (draft.page.line item) ((writeItem item).run draft) := by
  have outcome := draft.page.write_outcome item
  rw [run_writeItem_eq]
  cases accepted : (draft.page.write item).1 with
  | true =>
    rw [accepted] at outcome
    exact .full outcome
  | false =>
    rw [accepted] at outcome
    exact .cut _ outcome

/-- Items are written in full, or up to where the sink refuses. -/
theorem writes_items (items : List Item) :
    Writes draft (draft.page.lines items) ((writeItems items).run draft) := by
  induction items generalizing draft with
  | nil => exact .full (.taken String.append_empty.symm fun exhausted ↦ ⟨rfl, exhausted⟩)
  | cons item items ih =>
    have outcome := draft.page.write_outcome item
    have first := run_writeItem_eq draft item
    rw [writeItems, Page.lines]
    cases accepted : (draft.page.write item).1 with
    | true =>
      rw [accepted] at first outcome
      rw [run_bind_of_ok first]
      have rest := ih { draft with page := draft.page.put item }
      generalize (writeItems items).run { draft with page := draft.page.put item } = last at rest
      cases rest with
      | full further => exact .full (outcome.append further)
      | cut fault further => exact .cut fault (outcome.append further)
    | false =>
      rw [accepted] at first outcome
      rw [run_bind_of_error first]
      exact .cut _ (outcome.cut _)

theorem writes_comment (text : String) :
    Writes draft (draft.page.line (commentItem text)) ((comment text).run draft) :=
  draft.writes_item (commentItem text)

theorem writes_plain (text : String) : Writes draft text ((writePlain text).run draft) := by
  have outcome := draft.page.sink.write_outcome text
  generalize written : draft.page.sink.write text = answered at outcome
  obtain ⟨accepted, sink⟩ := answered
  cases accepted with
  | true =>
    have ran := @Writes.full draft text { draft.page with sink := sink } outcome
    simpa [writePlain, written] using ran
  | false =>
    have ran := @Writes.cut draft text (.refused sink.refusal) { draft.page with sink := sink } outcome
    simpa [writePlain, written] using ran

theorem emit_eq (entry : Entry) : emit entry = writeItems entry.spelling := by
  rw [emit, Entry.spelling]
  cases entry.comment with
  | none => rfl
  | some text => rfl

theorem writes_emit (entry : Entry) :
    Writes draft (draft.page.lines entry.spelling) ((emit entry).run draft) := by
  rw [emit_eq]
  exact draft.writes_items entry.spelling

end

theorem exists_spelling_eq_cons (entry : Entry) :
    ∃ item rest, entry.spelling = item :: rest ∧ item.ownLine = true := by
  rw [Entry.spelling]
  cases entry.comment with
  | some text => exact ⟨_, _, rfl, rfl⟩
  | none =>
    rw [Entry.items]
    split
    · exact ⟨_, _, rfl, rfl⟩
    · exact ⟨_, _, rfl, rfl⟩

theorem lines_spelling_ne_empty (page : Page) (entry : Entry) : page.lines entry.spelling ≠ "" := by
  obtain ⟨item, rest, spelled, marked⟩ := exists_spelling_eq_cons entry
  rw [spelled, Page.lines]
  intro nothing
  exact page.line_ne_empty marked (String.append_eq_empty_iff.1 nothing).1

end Draft

end Phrasebook.Document
