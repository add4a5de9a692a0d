import Phrasebook.Proofs.Document.Reading
import Phrasebook.Proofs.Library.Populating
import Phrasebook.Proofs.Markup.Stream

/-!
# Documents that are cut off

A document that was read to its end was read up to the close tag of its root element. A beginning of it
that ends before that tag has the same events up to the cut, and each stage of the reading insists on
more of them: so the reading of a cut-off document ends in a fault, wherever the cut may fall, and
tables refuse the document as a whole.
-/

namespace Phrasebook.Document

open Phrasebook.Markup Phrasebook.Text

variable {short whole : Stream} {opened : Opened} {sections : List Section}

/-! ## The reading of a stream that is cut off -/

/-- A text leaves the reading inside the elements that are open, or ends it with a fault. -/
theorem Stage.step_text (stage : Stage) (position : Nat) (text : Bytes) :
    (∃ next, stage.step position (.text text) = .stay next) ∨
      ∃ fault, stage.step position (.text text) = .fail fault := by
  cases stage with
  | root =>
    rw [Stage.step, inRoot, betweenElements]
    split
    · exact .inl ⟨_, rfl⟩
    · exact .inr ⟨_, rfl⟩
  | file s =>
    rw [Stage.step, inFile, betweenElements]
    split
    · exact .inl ⟨_, rfl⟩
    · exact .inr ⟨_, rfl⟩
  | entry s e =>
    rw [Stage.step, inEntry]
    cases resolveBytes text with
    | ok text => exact .inl ⟨_, rfl⟩
    | error problem => exact .inr ⟨_, rfl⟩

/-- If the reading of a stream that is cut off comes to its end without a fault, what was cut off is of
no account. -/
theorem Sections.ofStream_of_cut (cut : Stream.Cut short whole) (stage : Stage)
    (complete : (ofStream stage short).all = .ok sections) :
    ofStream stage whole = ofStream stage short := by
  induction cut generalizing stage sections with
  | event event position rest ih =>
    rw [ofStream] at complete ⊢
    rw [ofStream]
    cases advance : stage.step position event with
    | stay next =>
      rw [advance] at complete
      exact ih next complete
    | complete content spelled =>
      rw [advance] at complete
      obtain ⟨others, complete, -⟩ := exists_of_map_eq_ok complete
      dsimp only
      rw [ih .root complete]
    | finish => rfl
    | fail fault => rfl
  | ended position whole => cases complete
  | failed problem position whole => cases complete
  | text text position whole =>
    rw [ofStream] at complete
    rcases stage.step_text position text with ⟨next, advance⟩ | ⟨fault, advance⟩
    · rw [advance] at complete
      cases complete
    · rw [advance] at complete
      cases complete

/-- If a cut document is complete, what was cut off did not matter. -/
theorem ofStream_of_cut (cut : Stream.Cut short whole) (opens : ofStream short = .ok opened)
    (complete : opened.sections.all = .ok sections) : ofStream whole = .ok opened := by
  induction cut with
  | event event position rest ih =>
    apply ofStream_event_eq_ok_iff.2
    cases ofStream_event_eq_ok_iff.1 opens with
    | ignore ignorable later => exact .ignore ignorable (ih later)
    | root name read =>
      rw [← Sections.ofStream_of_cut rest .root complete]
      exact .root name read
    | emptyRoot name read => exact .emptyRoot name read
  | ended position whole => cases opens
  | failed problem position whole => cases opens
  | text text position whole =>
    -- A text in front of the root element is skipped, and then nothing is left.
    cases ofStream_event_eq_ok_iff.1 opens with
    | ignore ignorable later => cases later

/-! ## The end of the reading -/

/-- The position behind the last event that was read. -/
def Sections.finalPosition : Sections → Nat
  | next _ _ _ rest => rest.finalPosition
  | done position => position
  | failed _ position => position

theorem Sections.finalPosition_le {floor limit : Nat} {stream : Stream}
    (rises : stream.Rises floor limit) (stage : Stage)
    (complete : (ofStream stage stream).all = .ok sections) :
    (ofStream stage stream).finalPosition ≤ limit := by
  induction stream generalizing floor stage sections with
  | event event position rest ih =>
    rw [ofStream] at complete ⊢
    cases advance : stage.step position event with
    | stay next =>
      rw [advance] at complete
      exact ih rises.2.2 next complete
    | complete content spelled =>
      rw [advance] at complete
      obtain ⟨others, complete, -⟩ := exists_of_map_eq_ok complete
      exact ih rises.2.2 .root complete
    | finish => exact rises.2.1
    | fail fault =>
      rw [advance] at complete
      cases complete
  | ended position => cases complete
  | failed problem position => cases complete

theorem finalPosition_le {floor limit : Nat} {stream : Stream} (rises : stream.Rises floor limit)
    (opens : ofStream stream = .ok opened) (complete : opened.sections.all = .ok sections) :
    opened.sections.finalPosition ≤ limit := by
  induction stream generalizing floor with
  | ended position | failed problem position => cases opens
  | event event position rest ih =>
    cases ofStream_event_eq_ok_iff.1 opens with
    | ignore ignorable later => exact ih rises.2.2 later
    | root name read => exact Sections.finalPosition_le rises.2.2 .root complete
    | emptyRoot name read => exact rises.2.1

/-! ## Cut-off documents -/

/-- The entries of a document cannot be had exactly if it cannot be opened, or its sections end in a
fault. -/
theorem entriesOf_eq_error_iff {content : Stream} {fault : Fault} :
    entriesOf content = .error fault ↔
      ofStream content = .error fault ∨
        ∃ begun, ofStream content = .ok begun ∧ begun.sections.all = .error fault := by
  unfold entriesOf
  cases ofStream content with
  | error other => simp
  | ok begun =>
    cases all : begun.sections.all with
    | error other => simp [Except.map, all]
    | ok sections => simp [Except.map, all]

/-- A document that is cut off before the end of its last event cannot be read to its end. -/
theorem exists_fault_of_cut_off {bytes part : Bytes} (reads : ofBytes bytes = .ok opened)
    (begins : part <+: bytes) (short : part.length < opened.sections.finalPosition) :
    ∃ fault, entriesOf (.ofBytes part) = .error fault := by
  cases entries : entriesOf (.ofBytes part) with
  | error fault => exact ⟨fault, rfl⟩
  | ok entries =>
    exfalso
    unfold entriesOf at entries
    cases opens : ofStream (.ofBytes part) with
    | error fault =>
      rw [opens] at entries
      cases entries
    | ok begun =>
      rw [opens] at entries
      obtain ⟨sections, complete, -⟩ := exists_of_map_eq_ok entries
      have same : begun = opened := by
        have whole := ofStream_of_cut (Stream.cut_ofBytes begins) opens complete
        exact Except.ok.inj (whole.symm.trans reads)
      have read := finalPosition_le (Stream.rises_ofBytes part) opens complete
      rw [same] at read
      omega

end Phrasebook.Document

namespace Phrasebook.Library

open Phrasebook.Document Phrasebook.Text

/-- Of a document that can be opened, no beginning is read to an end that stops short of where the
reading of the whole came to: opening it or taking its sections ends in a fault. Populating a table from
it and reloading a table from it fail with that fault, and nothing changes but the journal. -/
theorem cut_off_document_refused {bytes part : Bytes} {opened : Opened}
    (reads : Document.ofBytes bytes = .ok opened) (begins : part <+: bytes)
    (short : part.length < opened.sections.finalPosition) :
    ∃ fault,
      (Document.ofBytes part = .error fault ∨
        ∃ begun, Document.ofBytes part = .ok begun ∧ begun.sections.all = .error fault) ∧
      ∀ (library : Library) (id : TableId),
        (∀ overwrite, ∃ after, Recorded library after ∧
          (populate id (.ofBytes part) overwrite).run library =
            (.error (.document
              ((library.table id).status.location.getD (library.table id).name) fault), after)) ∧
        ∀ location, ∃ after, Recorded library after ∧
          (reload id location (.ofBytes part)).run library =
            (.error (.document location fault), after) := by
  obtain ⟨fault, refused⟩ := exists_fault_of_cut_off reads begins short
  refine ⟨fault, entriesOf_eq_error_iff.1 refused, fun library id ↦ ⟨?_, ?_⟩⟩
  · intro overwrite
    exact populate_of_fault refused id overwrite library
  · intro location
    exact reload_of_fault refused id location library

/-- A document of two sections that ends behind the first one. -/
theorem cut_off_document_refused_menu :
    let first := ["<StringTable><File SourcePath='menu.rs'>", "<String Name='open'>Open</String>",
      "</File>"].flatMap Utf8.encode
    let bytes := first ++ Utf8.encode "<File SourcePath='hud.rs'/></StringTable>"
    ∃ opened, Document.ofBytes bytes = .ok opened ∧ opened.sections.toList.length = 2 ∧
      first <+: bytes ∧ first.length < opened.sections.finalPosition ∧
      ∃ fault,
        (Document.ofBytes first = .error fault ∨
          ∃ begun, Document.ofBytes first = .ok begun ∧ begun.sections.all = .error fault) ∧
        ∀ (library : Library) (id : TableId) (location : String), ∃ after, Recorded library after ∧
          (reload id location (.ofBytes first)).run library =
            (.error (.document location fault), after) := by
  intro first bytes
  have measured : (Document.ofBytes bytes).toOption.map
      (fun opened ↦ (opened.sections.toList.length, opened.sections.finalPosition)) =
        some (2, 121) := by
    decide +kernel
  obtain ⟨opened, opens, measures⟩ := Option.map_eq_some_iff.1 measured
  obtain ⟨two, position⟩ := Prod.mk.inj measures
  have reads := eq_ok_of_toOption opens
  have begins : first <+: bytes := List.prefix_append _ _
  have short : first.length < opened.sections.finalPosition := by
    rw [position]
    decide +kernel
  obtain ⟨fault, ends, refuses⟩ := cut_off_document_refused reads begins short
  exact ⟨opened, reads, two, begins, short, fault, ends, fun library id ↦ (refuses library id).2⟩

end Phrasebook.Library
