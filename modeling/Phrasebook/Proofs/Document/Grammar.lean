import Phrasebook.Proofs.Document.Moves

/-!
# The grammar of documents

A document as a grammar over the events of its markup has it, with the data that it holds: the root
element with the elements of the sections in it, each with the elements of its entries, and between all
of them events that say nothing. The grammar knows nothing of the reading; the reading accepts the
documents of the grammar and no others, and finds what the grammar says.
-/

namespace Phrasebook.Document

open Phrasebook.Markup Phrasebook.Text

/-! ## The grammar -/

/-- The element of an entry: its text is that of its texts and character sections, one after the
other. -/
inductive EntryElement : List Event → Entry → Prop
  | empty {tag : Tag} {entry : Entry} (h : HasEntry tag "" entry) : EntryElement [.empty tag] entry
  | full {tag : Tag} {entry : Entry} {content : List Event} {parts : List String}
    (h : HasEntry tag (String.join parts) entry) (adds : List.Forall₂ Adds content parts) :
    EntryElement (.start tag :: (content ++ [.close tag.name])) entry

def lastRemark (remarks : List (Option String)) : Option String := (remarks.filterMap id).getLast?

/-- The content of a section's element: entries with remarks between them. The comment of an entry is the
last remark since the entry before, or the one in wait if there is no remark in front of the first. -/
inductive EntryRow : Option String → List Event → List Entry → Prop
  | last {wait : Option String} {gap : List Event} {remarks : List (Option String)}
    (h : List.Forall₂ Remarks gap remarks) : EntryRow wait gap []
  | entry {wait : Option String} {gap element events : List Event} {remarks : List (Option String)}
    {entry : Entry} {entries : List Entry} (h : List.Forall₂ Remarks gap remarks)
    (isEntry : EntryElement element entry) (comment : entry.comment = (lastRemark remarks).or wait)
    (rest : EntryRow none events entries) :
    EntryRow wait (gap ++ (element ++ events)) (entry :: entries)

inductive SectionElement : List Event → Section → Prop
  | empty {tag : Tag} {origin : Origin} (name : tag.name = Utf8.encode fileElement)
    (h : HasOrigin tag origin) : SectionElement [.empty tag] ⟨origin, []⟩
  | full {tag : Tag} {origin : Origin} {content : List Event} {entries : List Entry}
    (name : tag.name = Utf8.encode fileElement) (h : HasOrigin tag origin)
    (row : EntryRow none content entries) :
    SectionElement (.start tag :: (content ++ [.close tag.name])) ⟨origin, entries⟩

/-- The content of the root element: sections with events between them that say nothing. -/
inductive SectionRow : List Event → List Section → Prop
  | last {gap : List Event} (h : ∀ event ∈ gap, Ignorable event) : SectionRow gap []
  | element {gap element events : List Event} {content : Section} {sections : List Section}
    (h : ∀ event ∈ gap, Ignorable event) (isSection : SectionElement element content)
    (rest : SectionRow events sections) :
    SectionRow (gap ++ (element ++ events)) (content :: sections)

inductive RootElement : List Event → Header → List Section → Prop
  | empty {tag : Tag} {header : Header} (name : tag.name = Utf8.encode rootElement)
    (h : HasHeader tag header) : RootElement [.empty tag] header []
  | full {tag : Tag} {header : Header} {content : List Event} {sections : List Section}
    (name : tag.name = Utf8.encode rootElement) (h : HasHeader tag header)
    (row : SectionRow content sections) :
    RootElement (.start tag :: (content ++ [.close tag.name])) header sections

/-- A document: the root element, with nothing that says anything in front of it. What follows the root
element is no part of the document. -/
def IsDocument (events : List Event) (header : Header) (sections : List Section) : Prop :=
  ∃ gap root rest, events = gap ++ (root ++ rest) ∧ (∀ event ∈ gap, Ignorable event) ∧
    RootElement root header sections

/-! ## Documents are read -/

section

variable {s : OpenSection} {begun : OpenEntry} {events : List Event} {sections : List Section}

theorem Completes.gap {gap : List Event} (h : ∀ event ∈ gap, Ignorable event)
    (rest : Completes .root events sections) : Completes .root (gap ++ events) sections := by
  induction gap with
  | nil => exact rest
  | cons event gap ih =>
    obtain ⟨first, h⟩ := List.forall_mem_cons.1 h
    exact .move (.ignore first) (ih h)

theorem lastRemark_cons (remark : Option String) (remarks : List (Option String)) :
    lastRemark (remark :: remarks) = (lastRemark remarks).or remark := by
  unfold lastRemark
  cases remark with
  | none => exact Option.or_none.symm
  | some text =>
    have said : (some text :: remarks).filterMap id = text :: remarks.filterMap id := rfl
    rw [said, List.getLast?_cons]
    cases (remarks.filterMap id).getLast? with
    | none => rfl
    | some last => rfl

theorem Completes.remarks {gap : List Event} {remarks : List (Option String)}
    (h : List.Forall₂ Remarks gap remarks)
    (rest : Completes (.file { s with comment := (lastRemark remarks).or s.comment }) events sections) :
    Completes (.file s) (gap ++ events) sections := by
  induction h generalizing s with
  | nil => exact rest
  | cons remark _ ih =>
    refine .move (.remark remark) (ih ?_)
    rw [lastRemark_cons, Option.or_assoc] at rest
    exact rest

theorem Completes.content {content : List Event} {parts : List String}
    (h : List.Forall₂ Adds content parts)
    (rest : Completes (.entry s { begun with text := begun.text ++ String.join parts }) events
      sections) : Completes (.entry s begun) (content ++ events) sections := by
  induction h generalizing begun with
  | nil =>
    rw [show String.join [] = "" from rfl, String.append_empty] at rest
    exact rest
  | cons add _ ih =>
    refine .move (.add add) (ih ?_)
    rw [String.join_cons, ← String.append_assoc] at rest
    exact rest

theorem OpenSection.add_completed (s : OpenSection) (begun : OpenEntry) (text : String) :
    s.add { begun with text := text } =
      { s with entries := begun.completed text s.comment :: s.entries, comment := none } := rfl

theorem Completes.entry {element : List Event} {entry : Entry} (h : EntryElement element entry)
    (comment : entry.comment = s.comment)
    (rest : Completes (.file { s with entries := entry :: s.entries, comment := none }) events
      sections) : Completes (.file s) (element ++ events) sections := by
  cases h with
  | empty h =>
    obtain ⟨begun, begins, same⟩ := hasEntry_iff.1 h
    refine .move (.emptyEntry begins) ?_
    rw [OpenSection.add_eq, begins.text_eq, ← comment, same]
    exact rest
  | full h adds =>
    obtain ⟨begun, begins, same⟩ := hasEntry_iff.1 h
    rw [List.cons_append, List.append_assoc]
    refine .move (.beginEntry begins) (.content adds (.move (.closeEntry s _ _) ?_))
    rw [OpenSection.add_completed, begins.text_eq, String.empty_append, ← comment, same]
    exact rest

theorem Completes.entryRow {wait : Option String} {content : List Event} {entries : List Entry}
    (h : EntryRow wait content entries) (waits : s.comment = wait) (name : Bytes)
    (rest : Completes .root events sections) :
    Completes (.file s) (content ++ .close name :: events)
      (⟨s.origin, s.entries.reverse ++ entries⟩ :: sections) := by
  induction h generalizing s with
  | last gap =>
    rw [List.append_nil]
    exact .remarks gap (.move (.closeFile _ name) rest)
  | @entry _ _ _ _ _ entry _ gap isEntry comment _ ih =>
    rw [List.append_assoc, List.append_assoc]
    refine .remarks gap (.entry isEntry ?_ ?_)
    · rw [comment, waits]
    · have later := @ih { s with entries := entry :: s.entries, comment := none } rfl
      rw [List.reverse_cons, List.append_assoc] at later
      exact later

theorem Completes.sectionElement {element : List Event} {content : Section}
    (h : SectionElement element content) (rest : Completes .root events sections) :
    Completes .root (element ++ events) (content :: sections) := by
  cases h with
  | empty name h => exact .move (.emptyFile name h) rest
  | full name h row =>
    rw [List.cons_append, List.append_assoc]
    exact .move (.beginFile name h) (.entryRow row rfl _ rest)

theorem Completes.sectionRow {content : List Event} (h : SectionRow content sections) (name : Bytes)
    (events : List Event) : Completes .root (content ++ .close name :: events) sections := by
  induction h with
  | last gap => exact .gap gap (.finish name events)
  | element gap isSection _ ih =>
    rw [List.append_assoc, List.append_assoc]
    exact .gap gap (.sectionElement isSection ih)

theorem Opens.rootElement {root : List Event} {header : Header}
    (h : RootElement root header sections) (events : List Event) :
    Opens (root ++ events) header sections := by
  cases h with
  | empty name h => exact .emptyRoot name h
  | full name h row =>
    rw [List.cons_append, List.append_assoc]
    exact .root name h (.sectionRow row _ events)

theorem opens_of_isDocument {header : Header} (h : IsDocument events header sections) :
    Opens events header sections := by
  obtain ⟨gap, root, rest, rfl, ignorable, isRoot⟩ := h
  induction gap with
  | nil => exact .rootElement isRoot rest
  | cons event gap ih =>
    obtain ⟨first, ignorable⟩ := List.forall_mem_cons.1 ignorable
    exact .ignore first (ih ignorable)

end

/-! ## What is read is a document -/

/-- The events inside of the root element: the rest of its content, its close tag, and whatever
follows. -/
inductive InRoot : List Event → List Section → Prop
  | intro {content : List Event} {sections : List Section} (row : SectionRow content sections)
    (rest : List Event) : InRoot (content ++ .close (Utf8.encode rootElement) :: rest) sections

/-- The events inside of a section's element, behind some of its entries. -/
inductive InFile (s : OpenSection) : List Event → List Section → Prop
  | intro {content rest : List Event} {entries : List Entry} {sections : List Section}
    (row : EntryRow s.comment content entries) (later : InRoot rest sections) :
    InFile s (content ++ .close (Utf8.encode fileElement) :: rest)
      (⟨s.origin, s.entries.reverse ++ entries⟩ :: sections)

/-- The events inside of an entry's element, behind a part of its content. -/
inductive InEntry (s : OpenSection) (begun : OpenEntry) : List Event → List Section → Prop
  | intro {content rest : List Event} {parts : List String} {sections : List Section}
    (adds : List.Forall₂ Adds content parts)
    (later : InFile (s.add { begun with text := begun.text ++ String.join parts }) rest sections) :
    InEntry s begun (content ++ .close (Utf8.encode begun.kind.elementName) :: rest) sections

/-- The events inside of the element that a stage is in. -/
def Stage.Inside : Stage → List Event → List Section → Prop
  | root => InRoot
  | file s => InFile s
  | entry s begun => InEntry s begun

section

variable {s : OpenSection} {begun : OpenEntry} {event : Event} {events : List Event}
  {sections : List Section}

theorem InRoot.ignore (first : Ignorable event) (h : InRoot events sections) :
    InRoot (event :: events) sections := by
  obtain ⟨row, rest⟩ := h
  cases row with
  | last gap => exact .intro (.last (List.forall_mem_cons.2 ⟨first, gap⟩)) rest
  | element gap isSection later =>
    have longer := SectionRow.element (List.forall_mem_cons.2 ⟨first, gap⟩) isSection later
    exact .intro longer rest

theorem InRoot.element {element : List Event} {content : Section}
    (first : SectionElement element content) (h : InRoot events sections) :
    InRoot (element ++ events) (content :: sections) := by
  obtain ⟨row, rest⟩ := h
  rw [← List.append_assoc]
  exact .intro (.element (List.forall_mem_nil _) first row) rest

theorem EntryRow.remark {wait remark : Option String} {entries : List Entry}
    (first : Remarks event remark) (h : EntryRow (remark.or wait) events entries) :
    EntryRow wait (event :: events) entries := by
  generalize waits : remark.or wait = later at h
  cases h with
  | last gap => exact .last (.cons first gap)
  | entry gap isEntry comment rest =>
    refine .entry (.cons first gap) isEntry ?_ rest
    rw [lastRemark_cons, Option.or_assoc, waits, comment]

theorem InFile.remark {remark : Option String} (first : Remarks event remark)
    (h : InFile { s with comment := remark.or s.comment } events sections) :
    InFile s (event :: events) sections := by
  obtain ⟨row, later⟩ := h
  exact .intro (row.remark first) later

theorem InFile.entry {element : List Event} {entry : Entry} (first : EntryElement element entry)
    (comment : entry.comment = s.comment)
    (h : InFile { s with entries := entry :: s.entries, comment := none } events sections) :
    InFile s (element ++ events) sections := by
  cases h with
  | @intro content rest entries others row later =>
    have longer : EntryRow s.comment ([] ++ (element ++ content)) (entry :: entries) :=
      .entry .nil first comment row
    have read := InFile.intro longer later
    rw [List.nil_append, List.append_assoc] at read
    rw [List.reverse_cons, List.append_assoc]
    exact read

theorem InFile.emptyEntry {tag : Tag} (begins : Begins tag begun)
    (h : InFile (s.add begun) events sections) : InFile s (.empty tag :: events) sections := by
  have entry : HasEntry tag "" (begun.completed "" s.comment) := hasEntry_iff.2 ⟨begun, begins, rfl⟩
  rw [OpenSection.add_eq, begins.text_eq] at h
  exact .entry (.empty entry) rfl h

theorem InFile.beginEntry {tag : Tag} (begins : Begins tag begun)
    (h : InEntry s begun events sections) : InFile s (.start tag :: events) sections := by
  cases h with
  | @intro content rest parts _ adds later =>
    have entry : HasEntry tag (String.join parts) (begun.completed (String.join parts) s.comment) :=
      hasEntry_iff.2 ⟨begun, begins, rfl⟩
    rw [OpenSection.add_completed, begins.text_eq, String.empty_append] at later
    have read := InFile.entry (.full entry adds) rfl later
    rw [List.cons_append, List.append_assoc, begins.name_eq] at read
    exact read

theorem InFile.close (later : InRoot events sections) :
    InFile s (.close (Utf8.encode fileElement) :: events) (s.complete :: sections) := by
  have read := InFile.intro (@EntryRow.last s.comment _ _ .nil) later
  rw [List.append_nil] at read
  exact read

theorem InRoot.beginFile {tag : Tag} {origin : Origin} (name : tag.name = Utf8.encode fileElement)
    (has : HasOrigin tag origin) (h : InFile { origin := origin } events sections) :
    InRoot (.start tag :: events) sections := by
  cases h with
  | @intro content rest entries others row later =>
    have read := InRoot.element (.full name has row) later
    rw [List.cons_append, List.append_assoc, name] at read
    exact read

theorem InEntry.add {part : String} (first : Adds event part)
    (h : InEntry s { begun with text := begun.text ++ part } events sections) :
    InEntry s begun (event :: events) sections := by
  cases h with
  | @intro content rest parts _ adds later =>
    refine .intro (.cons first adds) ?_
    rw [String.join_cons, ← String.append_assoc]
    exact later

theorem InEntry.close (later : InFile (s.add begun) events sections) :
    InEntry s begun (.close (Utf8.encode begun.kind.elementName) :: events) sections := by
  refine .intro .nil ?_
  rw [show String.join [] = "" from rfl, String.append_empty]
  exact later

/-- A move takes the names of the open elements along. -/
theorem Moves.nested {stage after : Stage} {completed : List Section}
    (moves : Moves stage event completed after)
    (nested : Stream.Nested stage.names (event :: events)) : Stream.Nested after.names events := by
  cases nested with
  | cons leads rest =>
    cases moves with
    | ignore h | remark h | add h =>
      cases h
      all_goals
        cases leads
        exact rest
    | beginFile name h =>
      cases leads
      rw [name] at rest
      exact rest
    | beginEntry begins =>
      cases leads
      rw [begins.name_eq] at rest
      exact rest
    | emptyFile name h | emptyEntry begins | closeFile name | closeEntry begun name =>
      cases leads
      exact rest

/-- Where the close tags are those of the open elements, moving to the end reads the elements that are
open as the grammar has them. -/
theorem Completes.inside {stage : Stage} (h : Completes stage events sections)
    (nested : Stream.Nested stage.names events) : stage.Inside events sections := by
  induction h with
  | finish name rest =>
    obtain rfl : name = Utf8.encode rootElement := nested.close_eq
    exact .intro (.last (List.forall_mem_nil _)) rest
  | move moves rest ih =>
    have inside := ih (moves.nested nested)
    cases moves with
    | ignore first => exact InRoot.ignore first inside
    | beginFile name has => exact InRoot.beginFile name has inside
    | emptyFile name has => exact InRoot.element (.empty name has) inside
    | remark first => exact InFile.remark first inside
    | beginEntry begins => exact InFile.beginEntry begins inside
    | emptyEntry begins => exact InFile.emptyEntry begins inside
    | closeFile s name =>
      obtain rfl : name = Utf8.encode fileElement := nested.close_eq
      exact InFile.close inside
    | add first => exact InEntry.add first inside
    | closeEntry s begun name =>
      obtain rfl : name = Utf8.encode begun.kind.elementName := nested.close_eq
      exact InEntry.close inside

theorem Ignorable.nested {names : List Bytes} (first : Ignorable event)
    (nested : Stream.Nested names (event :: events)) : Stream.Nested names events := by
  cases nested with
  | cons leads rest =>
    cases first
    all_goals
      cases leads
      exact rest

/-- Events that are read as a document are one by the grammar. -/
theorem isDocument_of_opens {header : Header} (h : Opens events header sections)
    (nested : Stream.Nested [] events) : IsDocument events header sections := by
  induction h with
  | ignore first _ ih =>
    obtain ⟨gap, root, rest, rfl, ignorable, isRoot⟩ := ih (first.nested nested)
    exact ⟨_ :: gap, root, rest, rfl, List.forall_mem_cons.2 ⟨first, ignorable⟩, isRoot⟩
  | root name has later =>
    have inside : Stream.Nested Stage.root.names _ := name ▸ nested.start
    cases later.inside inside with
    | intro row rest =>
      refine ⟨[], _, rest, ?_, List.forall_mem_nil _, .full name has row⟩
      rw [List.nil_append, List.cons_append, List.append_assoc, name]
      rfl
  | emptyRoot name has => exact ⟨[], _, _, rfl, List.forall_mem_nil _, .empty name has⟩

end

/-- Bytes are a document, read to its end without a fault, exactly if the events of their markup follow
the grammar; header and sections are then as the grammar says. -/
theorem read_iff_isDocument (bytes : Bytes) (header : Header) (sections : List Section) :
    (∃ opened, ofBytes bytes = .ok opened ∧ opened.header = header ∧
        opened.sections.all = .ok sections) ↔
      IsDocument (Stream.ofBytes bytes).events header sections := by
  rw [ofBytes, reads_iff_opens]
  constructor
  · intro opens
    exact isDocument_of_opens opens (Stream.nested_ofBytes bytes)
  · exact opens_of_isDocument

end Phrasebook.Document
