import Phrasebook.Proofs.Document.Grammar

/-!
# Where a reading is

Sections are taken call by call. Positions never fall and rise with every section, and a fault or the end
is the last that the calls have to tell. A fault says how far the reading came, and which section was open
there: the one whose start tag was accepted and whose close tag was not read.
-/

namespace Phrasebook.Document

open Phrasebook.Calendar Phrasebook.Markup Phrasebook.Text

/-! ## The places of faults -/

/-- A result that is no fault, or one at the given place. -/
def FailsAt {α : Type} (place : Place) (result : Except Fault α) : Prop :=
  ∀ fault, result = .error fault → fault.place? = some place

namespace FailsAt

variable {α β : Type} {place : Place}

theorem ok (a : α) : FailsAt place (.ok a) := nofun

theorem error {fault : Fault} (h : fault.place? = some place) :
    FailsAt place (.error fault : Except Fault α) := by
  intro other same
  rwa [← Except.error.inj same]

theorem bind {result : Except Fault α} {next : α → Except Fault β} (first : FailsAt place result)
    (later : ∀ a, FailsAt place (next a)) : FailsAt place (result >>= next) := by
  cases result with
  | error fault => exact error (first fault rfl)
  | ok a => exact later a

theorem map {result : Except Fault α} (h : FailsAt place result) (f : α → β) :
    FailsAt place (result.map f) := by
  cases result with
  | error fault => exact error (h fault rfl)
  | ok a => exact ok (f a)

theorem mapM {f : α → Except Fault β} (each : ∀ a, FailsAt place (f a)) (as : List α) :
    FailsAt place (as.mapM f) := by
  induction as with
  | nil => exact ok []
  | cons a as ih =>
    rw [List.mapM_cons]
    exact (each a).bind fun b ↦ ih.bind fun bs ↦ ok (b :: bs)

theorem foldlM {σ : Type} {step : σ → α → Except Fault σ} (each : ∀ s a, FailsAt place (step s a))
    (as : List α) (start : σ) : FailsAt place (as.foldlM step start) := by
  induction as generalizing start with
  | nil => exact ok start
  | cons a as ih =>
    rw [List.foldlM_cons]
    exact (each start a).bind ih

end FailsAt

section

variable (place : Place)

theorem failsAt_attributes (tag : Tag) : FailsAt place (attributes place tag) := by
  unfold attributes
  refine .bind (.mapM (fun raw ↦ ?_) _) fun pairs ↦ ?_
  · cases Utf8.decode raw.key with
    | error problem => exact .error rfl
    | ok name =>
      cases resolveBytes raw.value with
      | error problem => exact .error rfl
      | ok value => exact .ok (name, value)
  · split
    · exact .error rfl
    · exact .ok pairs

theorem failsAt_stamp (value : String) : FailsAt place (stamp place value) := by
  unfold stamp
  split
  · exact .ok _
  · exact .error rfl

theorem failsAt_header (tag : Tag) : FailsAt place (header place tag) := by
  refine (failsAt_attributes place tag).bind fun pairs ↦ .foldlM (fun found pair ↦ ?_) pairs _
  unfold Header.take
  split
  · exact (failsAt_stamp place pair.2).map _
  split
  all_goals exact .ok _

theorem failsAt_origin (tag : Tag) : FailsAt place (origin place tag) := by
  refine (failsAt_attributes place tag).bind fun pairs ↦ .bind (.foldlM ?_ pairs _) ?_
  · rintro ⟨path, found⟩ pair
    unfold Origin.take
    dsimp only
    split
    · exact .ok _
    split
    · exact (failsAt_stamp place pair.2).map _
    split
    all_goals exact .ok _
  · rintro ⟨path, found⟩
    cases path with
    | some path => exact .ok _
    | none => exact .error rfl

theorem failsAt_entryStart (tag : Tag) : FailsAt place (entryStart place tag) := by
  unfold entryStart
  split
  · exact .error rfl
  · refine (failsAt_attributes place tag).bind fun pairs ↦ ?_
    split
    · exact .error rfl
    · exact .ok _

end

/-- A step that does not fail, or fails at the given place. -/
def Advance.FailsAt (place : Place) : Advance → Prop
  | stay _ => True
  | complete _ _ => True
  | finish => True
  | fail fault => fault.place? = some place

theorem Advance.failsAt_ofExcept {α : Type} {place : Place} {result : Except Fault α}
    (h : Document.FailsAt place result) {next : α → Advance} (later : ∀ a, (next a).FailsAt place) :
    (Advance.ofExcept (result.map next)).FailsAt place := by
  cases result with
  | error fault => exact h fault rfl
  | ok a => exact later a

theorem failsAt_betweenElements (place : Place) (stage : Stage) (text : Bytes) :
    (betweenElements place stage text).FailsAt place := by
  unfold betweenElements
  split
  · trivial
  · rfl

/-- An event that ends the reading with a fault is told with its position and the open section. -/
theorem Stage.step_failsAt (stage : Stage) (position : Nat) (event : Event) :
    (stage.step position event).FailsAt ⟨position, stage.path?⟩ := by
  cases stage with
  | root =>
    cases event with
    | start tag | empty tag =>
      rw [step, inRoot]
      split
      · exact Advance.failsAt_ofExcept (failsAt_origin _ tag) fun _ ↦ trivial
      · rfl
    | text text => exact failsAt_betweenElements _ _ text
    | close name | comment text | directive => trivial
    | cdata text => rfl
  | file s =>
    cases event with
    | start tag | empty tag =>
      exact Advance.failsAt_ofExcept (failsAt_entryStart _ tag) fun _ ↦ trivial
    | text text => exact failsAt_betweenElements _ _ text
    | comment text =>
      rw [step, inFile]
      split
      · trivial
      · rfl
    | close name | directive => trivial
    | cdata text => rfl
  | entry s begun =>
    cases event with
    | text text | cdata text =>
      rw [step, inEntry]
      split
      · trivial
      · rfl
    | start tag | empty tag => rfl
    | close name | comment text | directive => trivial

/-! ## The open section -/

/-- What an event makes of the tag of the section's element that is open. -/
def openFileAfter (open? : Option Tag) : Event → Option Tag
  | .start tag => if tag.name = Utf8.encode fileElement then some tag else open?
  | .close name => if name = Utf8.encode fileElement then none else open?
  | _ => open?

/-- The last tag that opened the element of a section, unless a close tag of one follows. -/
def openFile (events : List Event) : Option Tag := events.foldl openFileAfter none

/-- A path is that of the section whose tag is given, or there is neither. -/
def IsPathOf : Option Tag → Option String → Prop :=
  Option.Rel fun tag path ↦ ∃ origin, HasOrigin tag origin ∧ origin.path = path

theorem EntryKind.encode_elementName_ne (kind : EntryKind) :
    Utf8.encode kind.elementName ≠ Utf8.encode fileElement := by
  cases kind
  all_goals decide

section

variable {stage after : Stage} {event : Event} {events : List Event} {completed : List Section}
  {open? : Option Tag}

theorem Ignorable.openFileAfter_eq (h : Ignorable event) (open? : Option Tag) :
    openFileAfter open? event = open? := by
  cases h
  all_goals rfl

/-- A move leads from the path of the open section to that of the one that is open then. -/
theorem Moves.isPathOf (moves : Moves stage event completed after)
    (nested : Stream.Nested stage.names (event :: events)) (h : IsPathOf open? stage.path?) :
    IsPathOf (openFileAfter open? event) after.path? := by
  cases moves with
  | ignore ignorable =>
    rw [ignorable.openFileAfter_eq]
    exact h
  | beginFile name has =>
    rw [openFileAfter, if_pos name]
    exact .some ⟨_, has, rfl⟩
  | emptyFile name has => exact h
  | remark first =>
    cases first
    all_goals exact h
  | beginEntry begins =>
    rw [openFileAfter, begins.name_eq, if_neg (EntryKind.encode_elementName_ne _)]
    exact h
  | emptyEntry begins => exact h
  | closeFile s name =>
    obtain rfl : name = Utf8.encode fileElement := nested.close_eq
    rw [openFileAfter, if_pos rfl]
    exact .none
  | add first =>
    cases first
    all_goals exact h
  | closeEntry s begun name =>
    obtain rfl : name = Utf8.encode begun.kind.elementName := nested.close_eq
    rw [openFileAfter, if_neg (EntryKind.encode_elementName_ne _)]
    exact h

/-! ## Accepted events -/

/-- The events take the reading from one stage to another. -/
inductive Travels : Stage → List Event → Stage → Prop
  | stay (stage : Stage) : Travels stage [] stage
  | move {stage middle after : Stage} {event : Event} {events : List Event} {completed : List Section}
    (moves : Moves stage event completed middle) (rest : Travels middle events after) :
    Travels stage (event :: events) after

theorem Moves.unique {other : Stage} {others : List Section}
    (moves : Moves stage event completed after) (again : Moves stage event others other) :
    after = other := by
  have same := (moves.reaches 0).symm.trans (again.reaches 0)
  exact (Prod.mk.inj (Option.some.inj same)).2

theorem Travels.isPathOf {rest : List Event} (travels : Travels stage events after)
    (nested : Stream.Nested stage.names (events ++ rest)) (h : IsPathOf open? stage.path?) :
    IsPathOf (events.foldl openFileAfter open?) after.path? := by
  induction travels generalizing open? with
  | stay stage => exact h
  | move moves rest ih =>
    exact ih (moves.nested nested) (moves.isPathOf nested h)

/-- Where events lead that are followed by one more, that one leads on. -/
theorem Travels.moves_of_concat {last : Stage} (travels : Travels stage events after)
    (further : Travels stage (events ++ [event]) last) : ∃ completed, Moves after event completed last := by
  induction travels with
  | stay stage =>
    cases further with
    | move moves rest =>
      cases rest
      exact ⟨_, moves⟩
  | move moves rest ih =>
    cases further with
    | move again later =>
      rw [← moves.unique again] at later
      exact ih later

/-- Events that a document can begin with, up to somewhere inside of its root element. -/
inductive Accepted : List Event → Prop
  | ignore {event : Event} {events : List Event} (h : Ignorable event) (rest : Accepted events) :
    Accepted (event :: events)
  | root {tag : Tag} {header : Header} {events : List Event} {stage : Stage}
    (name : tag.name = Utf8.encode rootElement) (h : HasHeader tag header)
    (inside : Travels .root events stage) : Accepted (.start tag :: events)

end

/-! ## Where faults are raised -/

/-- The stream has the events in front; `further` is what stands behind them. -/
inductive Splits : Stream → List Event → Stream → Prop
  | here (further : Stream) : Splits further [] further
  | event (event : Event) (position : Nat) {rest further : Stream} {events : List Event}
    (later : Splits rest events further) :
    Splits (.event event position rest) (event :: events) further

theorem Splits.events_eq {stream further : Stream} {events : List Event}
    (splits : Splits stream events further) : stream.events = events ++ further.events := by
  induction splits with
  | here further => rfl
  | event event position later ih => exact congrArg (event :: ·) ih

/-- The reading of the stream stops with the fault behind events that it takes from the stage on: there
is an event that leads no further, or none. -/
inductive Stops (stage : Stage) (stream : Stream) (fault : Fault) : Prop
  | intro (events : List Event) (further : Stream) (after : Stage)
    (splits : Splits stream events further) (travels : Travels stage events after)
    (stuck : ∀ event position rest, further = .event event position rest →
      ∀ completed next, ¬ Moves after event completed next)
    (place : fault.place? = some ⟨further.position, after.path?⟩)

section

variable {stage next : Stage} {stream rest : Stream} {event : Event} {position : Nat} {fault : Fault}
  {completed : List Section}

theorem Stops.of_reaches (reaches : (stage.step position event).reaches = some (completed, next))
    (stops : Stops next rest fault) : Stops stage (.event event position rest) fault := by
  obtain ⟨events, further, after, splits, travels, stuck, place⟩ := stops
  exact ⟨event :: events, further, after, .event event position splits,
    .move ((moves_iff position).1 reaches) travels, stuck, place⟩

theorem Stops.of_fail (fails : stage.step position event = .fail fault) :
    Stops stage (.event event position rest) fault := by
  have place := stage.step_failsAt position event
  rw [fails] at place
  refine ⟨[], _, stage, .here _, .stay stage, ?_, place⟩
  intro _ _ _ same completed next moves
  cases same
  have reaches := moves.reaches position
  rw [fails] at reaches
  cases reaches

/-- Reading that fails stopped at an event that leads no further, or at the end of the stream. -/
theorem Sections.stops (fails : (ofStream stage stream).fault? = some fault) :
    Stops stage stream fault := by
  induction stream generalizing stage with
  | ended position | failed problem position =>
    obtain rfl := Option.some.inj fails
    exact ⟨[], _, stage, .here _, .stay stage, nofun, rfl⟩
  | event event position rest ih =>
    rw [ofStream] at fails
    cases advance : stage.step position event with
    | stay next =>
      rw [advance] at fails
      exact .of_reaches (by rw [advance]; rfl) (ih fails)
    | complete content spelled =>
      rw [advance] at fails
      exact .of_reaches (by rw [advance]; rfl) (ih fails)
    | finish =>
      rw [advance] at fails
      cases fails
    | fail other =>
      rw [advance] at fails
      obtain rfl := Option.some.inj fails
      exact .of_fail advance

end

/-- The fault tells where the reading of the stream ends: behind the most events that a document can
begin with, and inside of the section, if any, that is open behind them. -/
inductive Raised (stream : Stream) (fault : Fault) : Prop
  | intro (events : List Event) (further : Stream) (path : Option String)
    (splits : Splits stream events further) (accepted : Accepted events)
    (refused : ∀ event position rest, further = .event event position rest →
      ¬ Accepted (events ++ [event]))
    (place : fault.place? = some ⟨further.position, path⟩)
    (isPath : IsPathOf (openFile events) path)

theorem not_ignorable_start (tag : Tag) : ¬ Ignorable (.start tag) := nofun

theorem Raised.ignore {event : Event} {position : Nat} {rest : Stream} {fault : Fault}
    (ignorable : Ignorable event) (raised : Raised rest fault) :
    Raised (.event event position rest) fault := by
  obtain ⟨events, further, path, splits, accepted, refused, place, isPath⟩ := raised
  refine ⟨event :: events, further, path, .event event position splits, .ignore ignorable accepted,
    fun next at_ others same longer ↦ ?_, place, ?_⟩
  · cases longer with
    | ignore _ longer => exact refused next at_ others same longer
    | root name has inside => exact not_ignorable_start _ ignorable
  · rw [openFile, List.foldl_cons, ignorable.openFileAfter_eq]
    exact isPath

theorem Raised.root {tag : Tag} {header : Header} {position : Nat} {rest : Stream} {fault : Fault}
    (name : tag.name = Utf8.encode rootElement) (has : HasHeader tag header)
    (nested : Stream.Nested Stage.root.names rest.events)
    (fails : (Sections.ofStream .root rest).fault? = some fault) :
    Raised (.event (.start tag) position rest) fault := by
  obtain ⟨events, further, after, splits, travels, stuck, place⟩ := Sections.stops fails
  refine ⟨.start tag :: events, further, after.path?, .event _ position splits,
    .root name has travels, fun event at_ others same longer ↦ ?_, place, ?_⟩
  · cases longer with
    | ignore ignorable _ => exact not_ignorable_start tag ignorable
    | root _ _ inside =>
      obtain ⟨completed, moves⟩ := travels.moves_of_concat inside
      exact stuck event at_ others same completed _ moves
  · have other : tag.name ≠ Utf8.encode fileElement := by
      rw [name]
      decide
    rw [openFile, List.foldl_cons, openFileAfter, if_neg other]
    rw [splits.events_eq] at nested
    exact travels.isPathOf nested .none

/-- A fault in the sections tells where the reading of the stream ends. -/
theorem raised_of_fault {stream : Stream} {opened : Opened} {fault : Fault}
    (opens : ofStream stream = .ok opened) (nested : Stream.Nested [] stream.events)
    (fails : opened.sections.fault? = some fault) : Raised stream fault := by
  induction stream with
  | ended position | failed problem position => cases opens
  | event event position rest ih =>
    cases ofStream_event_eq_ok_iff.1 opens with
    | ignore ignorable later => exact .ignore ignorable (ih later (ignorable.nested nested))
    | root name read =>
      have inside := Stream.Nested.start nested
      rw [name] at inside
      exact .root name (header_eq_ok_iff.1 read) inside fails
    | emptyRoot name read => cases fails

/-- What is wrong with an event in front of the sections is told with its position and no section. -/
theorem failsAt_ofStream {event : Event} {position : Nat} {rest : Stream} {fault : Fault}
    (fails : ofStream (.event event position rest) = .error fault) :
    fault.place? = some ⟨position, none⟩ ∨ fault.place? = none ∨ ofStream rest = .error fault := by
  cases event with
  | start tag =>
    rw [ofStream] at fails
    split at fails
    · exact .inl ((failsAt_header ⟨position, none⟩ tag).map _ fault fails)
    · cases fails
      exact .inl rfl
  | empty tag =>
    rw [ofStream] at fails
    split at fails
    · exact .inl ((failsAt_header ⟨position, none⟩ tag).map _ fault fails)
    · cases fails
      exact .inl rfl
  | close name =>
    cases fails
    exact .inr (.inl rfl)
  | text text =>
    rw [ofStream] at fails
    split at fails
    · exact .inr (.inr fails)
    · cases fails
      exact .inl rfl
  | cdata text =>
    cases fails
    exact .inl rfl
  | comment text | directive => exact .inr (.inr fails)

/-- A document that does not open has no section yet, and its fault lies within the stream. -/
theorem place_of_not_opened {stream : Stream} {floor limit : Nat} {fault : Fault} {place : Place}
    (rises : stream.Rises floor limit) (fails : ofStream stream = .error fault)
    (h : fault.place? = some place) : place.file = none ∧ place.position ≤ limit := by
  induction stream generalizing floor with
  | ended position =>
    cases fails
    cases h
  | failed problem position =>
    cases fails
    cases h
    exact ⟨rfl, rises.2⟩
  | event event position rest ih =>
    rcases failsAt_ofStream fails with here | nowhere | later
    · obtain rfl := Option.some.inj (here.symm.trans h)
      exact ⟨rfl, rises.2.1⟩
    · cases nowhere.symm.trans h
    · exact ih rises.2.2 later

/-! ## Calls for the next section -/

namespace Sections

def left (sections : Sections) : Nat → Sections
  | 0 => sections
  | n + 1 => (sections.left n).take.2

def answer (sections : Sections) (n : Nat) : Except Fault (Option Section) :=
  (sections.left n).take.1

/-- The position behind the next call. -/
def ahead : Sections → Nat
  | next _ _ position _ => position
  | done position => position
  | failed _ position => position

/-- Positions rise: a section ends behind the floor, nothing lies in front of it or behind the limit, and
a fault tells the position where it is. -/
def Rises (floor limit : Nat) : Sections → Prop
  | next _ _ position rest => floor < position ∧ position ≤ limit ∧ Rises position limit rest
  | done position => floor ≤ position ∧ position ≤ limit
  | failed fault position =>
    floor ≤ position ∧ position ≤ limit ∧ fault.place?.map Place.position = some position

variable {sections : Sections} {floor bottom limit : Nat}

theorem Rises.lower (below : bottom ≤ floor) (rises : sections.Rises floor limit) :
    sections.Rises bottom limit := by
  cases sections with
  | next content spelled position rest => exact ⟨Nat.lt_of_le_of_lt below rises.1, rises.2⟩
  | done position | failed fault position => exact ⟨Nat.le_trans below rises.1, rises.2⟩

theorem rises_ofStream {stream : Stream} (stage : Stage) (rises : stream.Rises floor limit) :
    (ofStream stage stream).Rises floor limit := by
  induction stream generalizing floor stage with
  | ended position | failed problem position => exact ⟨rises.1, rises.2, rfl⟩
  | event event position rest ih =>
    obtain ⟨behind, within, later⟩ := rises
    have placed := stage.step_failsAt position event
    rw [ofStream]
    cases advance : stage.step position event with
    | stay next => exact (ih next later).lower (Nat.le_of_lt behind)
    | complete content spelled => exact ⟨behind, within, ih .root later⟩
    | finish => exact ⟨Nat.le_of_lt behind, within⟩
    | fail fault =>
      rw [advance] at placed
      exact ⟨Nat.le_of_lt behind, within, congrArg (Option.map Place.position) placed⟩

theorem Rises.ahead (rises : sections.Rises floor limit) :
    floor ≤ sections.ahead ∧ sections.ahead ≤ limit := by
  cases sections with
  | next content spelled position rest => exact ⟨Nat.le_of_lt rises.1, rises.2.1⟩
  | done position => exact rises
  | failed fault position => exact ⟨rises.1, rises.2.1⟩

theorem Rises.take (rises : sections.Rises floor limit) :
    sections.take.2.Rises sections.ahead limit := by
  cases sections with
  | next content spelled position rest => exact rises.2.2
  | done position => exact ⟨Nat.le_refl position, rises.2⟩
  | failed fault position => exact ⟨Nat.le_refl position, rises.2.1⟩

theorem Rises.length_toList (rises : sections.Rises floor limit) :
    floor + sections.toList.length ≤ limit := by
  induction sections generalizing floor with
  | next content spelled position rest ih =>
    have others := ih rises.2.2
    have behind := rises.1
    rw [toList, List.length_cons]
    omega
  | done position => exact Nat.le_trans rises.1 rises.2
  | failed fault position => exact Nat.le_trans rises.1 rises.2.1

/-! ### What is left after some calls -/

/-- The position after some calls, if reading began at the floor. -/
def reached (sections : Sections) (floor : Nat) : Nat → Nat
  | 0 => floor
  | n + 1 => (sections.left n).ahead

theorem Rises.left (rises : sections.Rises floor limit) (n : Nat) :
    (sections.left n).Rises (sections.reached floor n) limit := by
  induction n with
  | zero => exact rises
  | succ n ih => exact ih.take

theorem toList_left (sections : Sections) (n : Nat) :
    (sections.left n).toList = sections.toList.drop n := by
  induction n with
  | zero => rfl
  | succ n ih =>
    rw [← List.tail_drop, ← ih, left]
    cases sections.left n with
    | next content spelled position rest => rfl
    | done position => rfl
    | failed fault position => rfl

/-- The calls answer with the sections one after the other. -/
theorem answer_eq_section_iff (sections : Sections) (n : Nat) (content : Section) :
    sections.answer n = .ok (some content) ↔ sections.toList[n]? = some content := by
  rw [← List.head?_drop, ← toList_left, answer]
  cases sections.left n with
  | next other spelled position rest =>
    rw [take, toList, List.head?_cons, Except.ok.injEq]
  | done position => exact ⟨nofun, nofun⟩
  | failed fault position => exact ⟨nofun, nofun⟩

theorem fault?_of_left {fault : Fault} {n : Nat} (fails : (sections.left n).fault? = some fault) :
    sections.fault? = some fault := by
  induction n with
  | zero => exact fails
  | succ n ih =>
    rw [left] at fails
    apply ih
    cases reached : sections.left n with
    | next content spelled position rest =>
      rw [reached] at fails
      exact fails
    | done position | failed other position =>
      rw [reached] at fails
      cases fails

theorem left_of_answer_eq_error {fault : Fault} {n : Nat} (h : sections.answer n = .error fault) :
    ∃ position, sections.left n = .failed fault position := by
  rw [answer] at h
  cases reached : sections.left n with
  | next content spelled position rest =>
    rw [reached] at h
    cases h
  | done position =>
    rw [reached] at h
    cases h
  | failed other position =>
    rw [reached] at h
    cases h
    exact ⟨position, rfl⟩

/-- Behind an answer that is no section, nothing is left. -/
theorem left_of_no_section {n : Nat} (h : ∀ content, sections.answer n ≠ .ok (some content)) (k : Nat) :
    ∃ position, sections.left (n + k + 1) = .done position := by
  induction k with
  | zero =>
    rw [answer] at h
    rw [Nat.add_zero, left]
    cases reached : sections.left n with
    | next content spelled position rest =>
      rw [reached] at h
      exact absurd rfl (h content)
    | done position => exact ⟨position, rfl⟩
    | failed fault position => exact ⟨position, rfl⟩
  | succ k ih =>
    obtain ⟨position, ended⟩ := ih
    refine ⟨position, ?_⟩
    rw [← Nat.add_assoc, left, ended]
    rfl

end Sections

/-! ## The whole -/

/-- The position after some calls for the next section of a document. -/
def Opened.reached (opened : Opened) (n : Nat) : Nat :=
  opened.sections.reached opened.position n

/-- What the calls for the next section tell of the document that is read from a stream. -/
structure Opened.TellsAll (opened : Opened) (stream : Stream) (limit : Nat) : Prop where
  /-- Behind a fault or the end there is nothing. -/
  ends : ∀ n m, n < m → (∀ content, opened.sections.answer n ≠ .ok (some content)) →
    opened.sections.answer m = .ok none
  sections : ∀ n content,
    opened.sections.answer n = .ok (some content) ↔ opened.sections.toList[n]? = some content
  /-- A fault tells where the reading is, and there it stays. -/
  faults : ∀ n fault, opened.sections.answer n = .error fault →
    Raised stream fault ∧ fault.place?.map Place.position = some (opened.reached (n + 1))
  rises : ∀ n, opened.reached n ≤ opened.reached (n + 1)
  rises_with_section : ∀ n content, opened.sections.answer n = .ok (some content) →
    opened.reached n < opened.reached (n + 1)
  within : ∀ n, opened.reached n ≤ limit
  few : opened.sections.toList.length ≤ limit

theorem rises_of_opened {stream : Stream} {opened : Opened} {floor limit : Nat}
    (rises : stream.Rises floor limit) (opens : ofStream stream = .ok opened) :
    opened.position ≤ limit ∧ opened.sections.Rises opened.position limit := by
  induction stream generalizing floor with
  | ended position | failed problem position => cases opens
  | event event position rest ih =>
    cases ofStream_event_eq_ok_iff.1 opens with
    | ignore ignorable later => exact ih rises.2.2 later
    | root name read => exact ⟨rises.2.1, Sections.rises_ofStream .root rises.2.2⟩
    | emptyRoot name read => exact ⟨rises.2.1, Nat.le_refl position, rises.2.1⟩

/-- One call after the other tells of the whole stream, the fault at its end included. -/
theorem Opened.tellsAll {stream : Stream} {opened : Opened} {limit : Nat}
    (opens : ofStream stream = .ok opened) (nested : Stream.Nested [] stream.events)
    (rises : stream.Rises 0 limit) : opened.TellsAll stream limit := by
  obtain ⟨within, rises⟩ := rises_of_opened rises opens
  constructor
  case ends =>
    intro n m later none_left
    obtain ⟨k, rfl⟩ := Nat.exists_eq_add_of_lt later
    obtain ⟨position, ended⟩ := Sections.left_of_no_section none_left k
    rw [Sections.answer, ended]
    rfl
  case sections => exact opened.sections.answer_eq_section_iff
  case faults =>
    intro n fault fails
    obtain ⟨position, left⟩ := Sections.left_of_answer_eq_error fails
    have told := rises.left n
    rw [left] at told
    refine ⟨raised_of_fault opens nested (Sections.fault?_of_left (n := n) ?_), ?_⟩
    · rw [left]
      rfl
    · rw [reached, Sections.reached, left]
      exact told.2.2
  case rises => exact fun n ↦ (rises.left n).ahead.1
  case rises_with_section =>
    intro n content answered
    have told := rises.left n
    rw [Sections.answer] at answered
    rw [reached, reached, Sections.reached]
    cases left : opened.sections.left n with
    | next other spelled position rest =>
      rw [left] at told
      exact told.1
    | done position | failed fault position =>
      rw [left] at answered
      cases answered
  case within =>
    intro n
    cases n with
    | zero => exact within
    | succ n => exact (rises.left n).ahead.2
  case few => exact Nat.le_trans (Nat.le_add_left _ _) rises.length_toList

/-- Whatever the bytes are, the calls for the next section tell one fault at most, and nothing behind it or
behind the end. A fault names the section whose element was open when it was raised, and none in front of
the sections and between them, and the position only rises. -/
theorem calls_tell_faults_once_and_where (bytes : Bytes) :
    (∀ fault place, ofBytes bytes = .error fault → fault.place? = some place →
      place.file = none ∧ place.position ≤ bytes.length) ∧
    ∀ opened, ofBytes bytes = .ok opened → opened.TellsAll (.ofBytes bytes) bytes.length := by
  have rises := Stream.rises_ofBytes bytes
  constructor
  · intro fault place fails located
    exact place_of_not_opened rises fails located
  · intro opened opens
    exact Opened.tellsAll opens (Stream.nested_ofBytes bytes) rises

/-- A document that breaks inside of its second section. -/
theorem calls_tell_faults_once_and_where_menu :
    let bytes := ["<StringTable><File SourcePath='menu.rs'>", "<String Hash='0' Name='quit'>Quit</String>",
      "</File><File SourcePath='hud.rs'><Literal/></File></StringTable>"].flatMap Utf8.encode
    let fault := Fault.missingAttribute ⟨125, some "hud.rs"⟩ "Literal" "Name"
    ∃ opened, ofBytes bytes = .ok opened ∧ opened.TellsAll (.ofBytes bytes) bytes.length ∧
      opened.sections.toList.length = 1 ∧ opened.sections.answer 1 = .error fault ∧
      opened.reached 2 = 125 ∧ ∀ m, 1 < m → opened.sections.answer m = .ok none := by
  intro bytes fault
  let menu : Section :=
    ⟨{ path := "menu.rs" }, [{ kind := .template, key := "quit", text := "Quit", hash := "0" }]⟩
  let opened : Opened := ⟨{}, 13, .next menu true 89 (.failed fault 125)⟩
  have reads : ofBytes bytes = .ok opened := eq_ok_of_toOption (by decide +kernel)
  have tells := (calls_tell_faults_once_and_where bytes).2 opened reads
  have failed : opened.sections.answer 1 = .error fault := rfl
  refine ⟨opened, reads, tells, rfl, failed, rfl, fun m later ↦ tells.ends 1 m later ?_⟩
  rw [failed]
  nofun

end Phrasebook.Document
