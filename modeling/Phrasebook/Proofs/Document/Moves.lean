import Phrasebook.Proofs.Document.Tags
import Phrasebook.Proofs.Markup.Stream

/-!
# The moves of the reading

What one event does to the reading of a document, as a relation that does not mention positions, and the
readings that come to the end of the root element as sequences of such moves. All further facts about
readings without faults are proved about the moves.
-/

namespace Phrasebook.Document

open Phrasebook.Markup Phrasebook.Text

/-! ## Events without elements -/

/-- The remark that an event between two entries makes: comments are remarks, and directives and white
space say nothing. -/
inductive Remarks : Event → Option String → Prop
  | comment {bytes : Bytes} {text : String} (h : Utf8.decode bytes = .ok text) :
    Remarks (.comment bytes) (some (trim text))
  | directive : Remarks .directive none
  | blank {bytes : Bytes} (h : bytes.all isBlankByte = true) : Remarks (.text bytes) none

/-- What an event inside of an entry adds to its text. -/
inductive Adds : Event → String → Prop
  | text {bytes : Bytes} {text : String} (h : resolveBytes bytes = .ok text) :
    Adds (.text bytes) text
  | cdata {bytes : Bytes} {text : String} (h : Utf8.decode bytes = .ok text) :
    Adds (.cdata bytes) text
  | comment (bytes : Bytes) : Adds (.comment bytes) ""
  | directive : Adds .directive ""

/-! ## One move -/

/-- An event takes the reading from one stage to another and completes sections on the way. -/
inductive Moves : Stage → Event → List Section → Stage → Prop
  | ignore {event : Event} (h : Ignorable event) : Moves .root event [] .root
  | beginFile {tag : Tag} {origin : Origin} (name : tag.name = Utf8.encode fileElement)
    (h : HasOrigin tag origin) : Moves .root (.start tag) [] (.file { origin := origin })
  | emptyFile {tag : Tag} {origin : Origin} (name : tag.name = Utf8.encode fileElement)
    (h : HasOrigin tag origin) : Moves .root (.empty tag) [⟨origin, []⟩] .root
  | remark {s : OpenSection} {event : Event} {remark : Option String} (h : Remarks event remark) :
    Moves (.file s) event [] (.file { s with comment := remark.or s.comment })
  | beginEntry {s : OpenSection} {tag : Tag} {begun : OpenEntry} (h : Begins tag begun) :
    Moves (.file s) (.start tag) [] (.entry s begun)
  | emptyEntry {s : OpenSection} {tag : Tag} {begun : OpenEntry} (h : Begins tag begun) :
    Moves (.file s) (.empty tag) [] (.file (s.add begun))
  | closeFile (s : OpenSection) (name : Bytes) : Moves (.file s) (.close name) [s.complete] .root
  | add {s : OpenSection} {begun : OpenEntry} {event : Event} {part : String} (h : Adds event part) :
    Moves (.entry s begun) event [] (.entry s { begun with text := begun.text ++ part })
  | closeEntry (s : OpenSection) (begun : OpenEntry) (name : Bytes) :
    Moves (.entry s begun) (.close name) [] (.file (s.add begun))

section

variable {place : Place} {s : OpenSection} {begun : OpenEntry} {event : Event}
  {sections : List Section} {after : Stage}

theorem reaches_betweenElements {stage : Stage} {text : Bytes}
    (h : (betweenElements place stage text).reaches = some (sections, after)) :
    text.all isBlankByte = true ∧ sections = [] ∧ after = stage := by
  unfold betweenElements at h
  split at h
  · next blank =>
    cases h
    exact ⟨blank, rfl, rfl⟩
  · cases h

theorem reaches_ofExcept {α : Type} {result : Except Fault α} {next : α → Advance}
    (h : (Advance.ofExcept (result.map next)).reaches = some (sections, after)) :
    ∃ a, result = .ok a ∧ (next a).reaches = some (sections, after) := by
  cases result with
  | error fault => cases h
  | ok a => exact ⟨a, rfl, h⟩

theorem moves_of_inRoot (h : (inRoot place event).reaches = some (sections, after)) :
    Moves .root event sections after := by
  cases event with
  | start tag =>
    rw [inRoot] at h
    split at h
    · next name =>
      obtain ⟨origin, read, h⟩ := reaches_ofExcept h
      cases h
      exact .beginFile name (origin_eq_ok_iff.1 read)
    · cases h
  | empty tag =>
    rw [inRoot] at h
    split at h
    · next name =>
      obtain ⟨origin, read, h⟩ := reaches_ofExcept h
      cases h
      exact .emptyFile name (origin_eq_ok_iff.1 read)
    · cases h
  | close name | cdata text => cases h
  | text text =>
    obtain ⟨blank, rfl, rfl⟩ := reaches_betweenElements h
    exact .ignore (.blank blank)
  | comment text =>
    cases h
    exact .ignore (.comment text)
  | directive =>
    cases h
    exact .ignore .directive

theorem moves_of_inFile (h : (inFile place s event).reaches = some (sections, after)) :
    Moves (.file s) event sections after := by
  cases event with
  | start tag =>
    obtain ⟨begun, read, h⟩ := reaches_ofExcept h
    cases h
    exact .beginEntry (entryStart_eq_ok_iff.1 read)
  | empty tag =>
    obtain ⟨begun, read, h⟩ := reaches_ofExcept h
    cases h
    exact .emptyEntry (entryStart_eq_ok_iff.1 read)
  | close name =>
    cases h
    exact .closeFile s name
  | text text =>
    obtain ⟨blank, rfl, rfl⟩ := reaches_betweenElements h
    exact .remark (.blank blank)
  | cdata text => cases h
  | comment bytes =>
    rw [inFile] at h
    split at h
    · next text decoded =>
      cases h
      exact .remark (.comment decoded)
    · cases h
  | directive =>
    cases h
    exact .remark .directive

theorem moves_of_inEntry (h : (inEntry place s begun event).reaches = some (sections, after)) :
    Moves (.entry s begun) event sections after := by
  have unchanged : { begun with text := begun.text ++ "" } = begun := by rw [String.append_empty]
  cases event with
  | start tag | empty tag => cases h
  | close name =>
    cases h
    exact .closeEntry s begun name
  | text bytes =>
    rw [inEntry] at h
    split at h
    · next text resolved =>
      cases h
      exact .add (.text resolved)
    · cases h
  | cdata bytes =>
    rw [inEntry] at h
    split at h
    · next text decoded =>
      cases h
      exact .add (.cdata decoded)
    · cases h
  | comment bytes =>
    have added : Moves (.entry s begun) (.comment bytes) [] (.entry s _) := .add (.comment bytes)
    rw [unchanged] at added
    cases h
    exact added
  | directive =>
    have added : Moves (.entry s begun) .directive [] (.entry s _) := .add .directive
    rw [unchanged] at added
    cases h
    exact added

end

/-- The reader makes every move. -/
theorem Moves.reaches {stage after : Stage} {event : Event} {sections : List Section}
    (moves : Moves stage event sections after) (position : Nat) :
    (stage.step position event).reaches = some (sections, after) := by
  cases moves with
  | ignore h =>
    cases h with
    | comment bytes => rfl
    | directive => rfl
    | blank blank => rw [Stage.step, inRoot, betweenElements, if_pos blank, Advance.reaches]
  | beginFile name h =>
    rw [Stage.step, inRoot, if_pos name, origin_eq_ok_iff.2 h]
    rfl
  | emptyFile name h =>
    rw [Stage.step, inRoot, if_pos name, origin_eq_ok_iff.2 h]
    rfl
  | remark h =>
    cases h with
    | comment decoded =>
      rw [Stage.step, inFile, decoded]
      rfl
    | directive => rfl
    | blank blank =>
      rw [Stage.step, inFile, betweenElements, if_pos blank]
      rfl
  | beginEntry h =>
    rw [Stage.step, inFile, entryStart_eq_ok_iff.2 h]
    rfl
  | emptyEntry h =>
    rw [Stage.step, inFile, entryStart_eq_ok_iff.2 h]
    rfl
  | closeFile s name => rfl
  | add h =>
    cases h with
    | text resolved =>
      rw [Stage.step, inEntry, resolved]
      rfl
    | cdata decoded =>
      rw [Stage.step, inEntry, decoded]
      rfl
    | comment bytes =>
      rw [String.append_empty]
      rfl
    | directive =>
      rw [String.append_empty]
      rfl
  | closeEntry s begun name => rfl

theorem moves_iff {stage after : Stage} {event : Event} {sections : List Section} (position : Nat) :
    (stage.step position event).reaches = some (sections, after) ↔
      Moves stage event sections after := by
  refine ⟨fun h ↦ ?_, fun moves ↦ moves.reaches position⟩
  cases stage with
  | root => exact moves_of_inRoot h
  | file s => exact moves_of_inFile h
  | entry s begun => exact moves_of_inEntry h

/-! ## Moving to the end -/

/-- The events take the reading to the end of the root element and complete the sections. What follows
the end is not read. -/
inductive Completes : Stage → List Event → List Section → Prop
  | finish (name : Bytes) (rest : List Event) : Completes .root (.close name :: rest) []
  | move {stage after : Stage} {event : Event} {events : List Event}
    {completed sections : List Section} (moves : Moves stage event completed after)
    (rest : Completes after events sections) :
    Completes stage (event :: events) (completed ++ sections)

theorem betweenElements_ne_finish (place : Place) (stage : Stage) (text : Bytes) :
    betweenElements place stage text ≠ .finish := by
  unfold betweenElements
  split
  all_goals exact nofun

theorem ofExcept_ne_finish {α : Type} (result : Except Fault α) {next : α → Advance}
    (h : ∀ a, next a ≠ .finish) : Advance.ofExcept (result.map next) ≠ .finish := by
  cases result with
  | error fault => exact nofun
  | ok a => exact h a

/-- Only the close tag of the root element ends the reading. -/
theorem Stage.step_eq_finish_iff {stage : Stage} {position : Nat} {event : Event} :
    stage.step position event = .finish ↔ stage = .root ∧ ∃ name, event = .close name := by
  constructor
  · intro h
    cases stage with
    | root =>
      cases event with
      | start tag | empty tag =>
        rw [Stage.step, inRoot] at h
        split at h
        · exact absurd h (ofExcept_ne_finish _ fun _ ends ↦ by cases ends)
        · cases h
      | close name => exact ⟨rfl, name, rfl⟩
      | text text => exact absurd h (betweenElements_ne_finish _ _ text)
      | cdata text | comment text | directive => cases h
    | file s =>
      cases event with
      | start tag | empty tag => exact absurd h (ofExcept_ne_finish _ fun _ ends ↦ by cases ends)
      | text text => exact absurd h (betweenElements_ne_finish _ _ text)
      | comment text =>
        rw [Stage.step, inFile] at h
        split at h
        all_goals cases h
      | close name | cdata text | directive => cases h
    | entry s begun =>
      cases event with
      | text text | cdata text =>
        rw [Stage.step, inEntry] at h
        split at h
        all_goals cases h
      | start tag | empty tag | close name | comment text | directive => cases h
  · rintro ⟨rfl, name, rfl⟩
    rfl

/-- One event in front of events that complete sections. -/
theorem Completes.of_reaches {stage after : Stage} {event : Event} {events : List Event}
    {completed sections : List Section} {position : Nat}
    (reaches : (stage.step position event).reaches = some (completed, after))
    (rest : Completes after events sections) :
    Completes stage (event :: events) (completed ++ sections) :=
  .move ((moves_iff position).1 reaches) rest

/-- A reading comes to its end without a fault exactly if the events take it there, move by move. -/
theorem all_eq_ok_iff {stage : Stage} {stream : Stream} {sections : List Section} :
    (Sections.ofStream stage stream).all = .ok sections ↔
      Completes stage stream.events sections := by
  constructor
  · intro h
    induction stream generalizing stage sections with
    | ended position | failed problem position => cases h
    | event event position rest ih =>
      cases advance : stage.step position event with
      | stay next =>
        have reaches : (stage.step position event).reaches = some ([], next) := by rw [advance]; rfl
        rw [Sections.ofStream, advance] at h
        exact .of_reaches reaches (ih h)
      | complete content spelled =>
        have reaches : (stage.step position event).reaches = some ([content], .root) := by
          rw [advance]
          rfl
        rw [Sections.ofStream, advance] at h
        obtain ⟨others, later, rfl⟩ := exists_of_map_eq_ok h
        exact .of_reaches reaches (ih later)
      | finish =>
        rw [Sections.ofStream, advance] at h
        obtain ⟨rfl, name, rfl⟩ := Stage.step_eq_finish_iff.1 advance
        cases h
        exact .finish name rest.events
      | fail fault =>
        rw [Sections.ofStream, advance] at h
        cases h
  · intro h
    induction stream generalizing stage sections with
    | ended position | failed problem position => cases h
    | event event position rest ih =>
      cases h with
      | finish name => rfl
      | move moves later =>
        rw [Sections.all_event (moves.reaches position), ih later]
        rfl

/-! ## Opening -/

/-- The events lead to the root element and from there to its end. -/
inductive Opens : List Event → Header → List Section → Prop
  | ignore {event : Event} {events : List Event} {header : Header} {sections : List Section}
    (h : Ignorable event) (rest : Opens events header sections) :
    Opens (event :: events) header sections
  | root {tag : Tag} {events : List Event} {header : Header} {sections : List Section}
    (name : tag.name = Utf8.encode rootElement) (h : HasHeader tag header)
    (rest : Completes .root events sections) : Opens (.start tag :: events) header sections
  | emptyRoot {tag : Tag} {events : List Event} {header : Header}
    (name : tag.name = Utf8.encode rootElement) (h : HasHeader tag header) :
    Opens (.empty tag :: events) header []

/-- A document is opened and read to its end exactly if its events do so. -/
theorem reads_iff_opens {stream : Stream} {header : Header} {sections : List Section} :
    (∃ opened, ofStream stream = .ok opened ∧ opened.header = header ∧
        opened.sections.all = .ok sections) ↔
      Opens stream.events header sections := by
  constructor
  · rintro ⟨opened, opens, rfl, all⟩
    induction stream with
    | ended position | failed problem position => cases opens
    | event event position rest ih =>
      cases ofStream_event_eq_ok_iff.1 opens with
      | ignore ignorable later => exact .ignore ignorable (ih later)
      | root name read => exact .root name (header_eq_ok_iff.1 read) (all_eq_ok_iff.1 all)
      | emptyRoot name read =>
        cases all
        exact .emptyRoot name (header_eq_ok_iff.1 read)
  · intro opens
    induction stream with
    | ended position | failed problem position => cases opens
    | event event position rest ih =>
      cases opens with
      | ignore ignorable later =>
        obtain ⟨opened, later, same, all⟩ := ih later
        exact ⟨opened, ofStream_event_eq_ok_iff.2 (.ignore ignorable later), same, all⟩
      | root name has later =>
        refine ⟨⟨header, position, .ofStream .root rest⟩, ?_, rfl, all_eq_ok_iff.2 later⟩
        exact ofStream_event_eq_ok_iff.2 (.root name (header_eq_ok_iff.2 has))
      | emptyRoot name has =>
        refine ⟨⟨header, position, .done position⟩, ?_, rfl, rfl⟩
        exact ofStream_event_eq_ok_iff.2 (.emptyRoot name (header_eq_ok_iff.2 has))

end Phrasebook.Document
