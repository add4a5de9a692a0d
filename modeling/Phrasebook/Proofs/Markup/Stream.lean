import Phrasebook.Markup.Stream

/-!
# Streams of arbitrary bytes

What holds of the stream of any bytes, whether or not they were written by this library. Positions rise
from event to event and stay within the bytes, and bytes that follow change nothing but the end of the
stream: a cut-off input has the same events, up to a last text that the cut may have shortened. A close
tag closes the innermost element that is open.
-/

namespace Phrasebook.Markup

/-! ## The length of a construct -/

/-- How many bytes of its construct a mode has read, at the least. -/
def Mode.lead : Mode → Nat
  | text held => held.length
  | bang => 2
  | _ => 1

/-- What a step does with a construct of which so many bytes are read: it reads one more, or the
construct is over. -/
def Step.Extends (lead : Nat) : Step → Prop
  | next after => after.lead ≤ lead + 1
  | «break» text => text.length = lead
  | unknown => lead = 2
  | emit _ _ => True
  | fail _ => True

theorem extends_outcome (lead : Nat) (names : List Text.Bytes) (result : Except Problem Event) :
    (outcome names result).Extends lead := by
  cases result with
  | ok event => trivial
  | error problem => trivial

theorem extends_closeStep (lead : Nat) (name : Text.Bytes) (names : List Text.Bytes) :
    (closeStep name names).Extends lead := by
  cases names with
  | nil => trivial
  | cons expected names =>
    rw [closeStep]
    split
    all_goals trivial

theorem extends_tagStep (lead : Nat) (held : Text.Bytes) (names : List Text.Bytes) :
    (tagStep held names).Extends lead := by
  unfold tagStep
  split
  · exact extends_closeStep lead _ names
  all_goals trivial

theorem extends_inTag (lead : Nat) (quote : Option UInt8) (held : Text.Bytes)
    (names : List Text.Bytes) (byte : UInt8) : (inTag quote held names byte).Extends lead := by
  have one : 1 ≤ lead + 1 := Nat.le_add_left 1 lead
  unfold inTag
  split
  · exact one
  split
  · exact extends_tagStep lead held names
  split
  all_goals exact one

theorem Mode.extends_step (mode : Mode) (names : List Text.Bytes) (byte : UInt8) :
    (mode.step names byte).Extends mode.lead := by
  have one (lead : Nat) : 1 ≤ lead + 1 := Nat.le_add_left 1 lead
  cases mode with
  | text held =>
    rw [step]
    split
    · exact List.length_reverse
    · exact Nat.le_refl _
  | bracket =>
    rw [step]
    split
    · exact Nat.le_refl _
    split
    · exact one 1
    · exact extends_inTag 1 none [] names byte
  | bang =>
    rw [step]
    split
    · exact one 2
    split
    · exact one 2
    split
    · exact one 2
    · rfl
  | comment held =>
    rw [step]
    split
    · exact extends_outcome 1 names _
    · exact one 1
  | cdata held =>
    rw [step]
    split
    · exact extends_outcome 1 names _
    · exact one 1
  | doctype depth held =>
    unfold step
    dsimp only
    split
    · exact one 1
    split
    · split
      · exact extends_outcome 1 names _
      · exact one 1
    · exact one 1
  | instruction held =>
    rw [step]
    split
    · exact extends_outcome 1 names _
    · exact one 1
  | tag quote held => exact extends_inTag 1 quote held names byte

namespace Stream

/-! ## Positions -/

def position : Stream → Nat
  | event _ position _ => position
  | ended position => position
  | failed _ position => position

/-- Positions rise: an event lies behind the one before it, the end does not lie in front of the last
event, and nothing lies behind the limit. -/
def Rises (floor limit : Nat) : Stream → Prop
  | event _ position rest => floor < position ∧ position ≤ limit ∧ Rises position limit rest
  | ended position => floor ≤ position ∧ position ≤ limit
  | failed _ position => floor ≤ position ∧ position ≤ limit

theorem Rises.mono {floor lower limit further : Nat} (below : lower ≤ floor) (above : limit ≤ further)
    {stream : Stream} (rises : stream.Rises floor limit) : stream.Rises lower further := by
  induction stream generalizing floor lower with
  | event event position rest ih =>
    obtain ⟨behind, within, later⟩ := rises
    exact ⟨Nat.lt_of_le_of_lt below behind, Nat.le_trans within above,
      ih (Nat.le_refl position) later⟩
  | ended position | failed problem position =>
    exact ⟨Nat.le_trans below rises.1, Nat.le_trans rises.2 above⟩

theorem Rises.textOnto {floor limit position : Nat} {rest : Stream} {text : Text.Bytes}
    (room : floor + text.length ≤ position) (within : position ≤ limit)
    (rises : ∀ bottom ≤ position, rest.Rises bottom limit) :
    (Stream.textOnto text position rest).Rises floor limit := by
  unfold Stream.textOnto
  split
  · exact rises floor (Nat.le_of_add_right_le room)
  · next filled =>
    have some_text : 0 < text.length :=
      List.length_pos_iff.2 fun empty ↦ filled (List.isEmpty_iff.2 empty)
    exact ⟨by omega, within, rises position (Nat.le_refl position)⟩

theorem rises_finish {mode : Mode} {floor position : Nat} (room : floor + mode.lead ≤ position) :
    (mode.finish position).Rises floor position := by
  cases mode with
  | text held =>
    rw [Mode.lead, ← List.length_reverse] at room
    exact .textOnto room (Nat.le_refl position) fun bottom le ↦ ⟨le, Nat.le_refl position⟩
  | bang =>
    rw [Mode.lead] at room
    exact ⟨by omega, Nat.sub_le position 1⟩
  | bracket | comment held | cdata held | doctype depth held | instruction held | tag quote held =>
    exact ⟨Nat.le_of_add_right_le room, Nat.le_refl position⟩

/-- Positions rise along every stream that is read from bytes. -/
theorem rises_scan {mode : Mode} {names : List Text.Bytes} {floor position : Nat}
    (room : floor + mode.lead ≤ position) (bytes : Text.Bytes) :
    (scan mode names position bytes).Rises floor (position + bytes.length) := by
  induction bytes generalizing mode names floor position with
  | nil => exact rises_finish room
  | cons byte bytes ih =>
    have count : position + (byte :: bytes).length = position + 1 + bytes.length := by
      rw [List.length_cons]
      omega
    have behind : position + 1 ≤ position + 1 + bytes.length := Nat.le_add_right _ _
    rw [count, scan]
    have extended := mode.extends_step names byte
    cases step : mode.step names byte with
    | next after =>
      rw [step] at extended
      have lead : after.lead ≤ mode.lead + 1 := extended
      exact ih (by omega)
    | emit piece names =>
      exact ⟨by omega, behind, @ih (.text []) names _ _ (Nat.le_refl _)⟩
    | «break» text =>
      rw [step] at extended
      have lead : text.length = mode.lead := extended
      exact .textOnto (lead ▸ room) (by omega) fun bottom le ↦
        @ih .bracket names _ _ (Nat.succ_le_succ le)
    | fail problem => exact ⟨by omega, behind⟩
    | unknown =>
      rw [step] at extended
      have lead : mode.lead = 2 := extended
      exact ⟨by omega, by omega⟩

/-! ## The mark of the byte order -/

def byteOrderMark : Text.Bytes := [0xEF, 0xBB, 0xBF]

theorem ofBytes_marked (bytes : Text.Bytes) :
    ofBytes (byteOrderMark ++ bytes) = scan (.text []) [] 0 bytes := rfl

theorem ofBytes_unmarked {bytes : Text.Bytes} (h : ¬ byteOrderMark <+: bytes) :
    ofBytes bytes = scan (.text []) [] 0 bytes := by
  unfold ofBytes
  split
  · next rest => exact absurd ⟨rest, rfl⟩ h
  · rfl

/-- The positions in the stream of bytes are no more than those bytes; a mark in front is not even
counted. -/
theorem rises_ofBytes (bytes : Text.Bytes) : (ofBytes bytes).Rises 0 bytes.length := by
  by_cases marked : byteOrderMark <+: bytes
  · obtain ⟨rest, rfl⟩ := marked
    rw [ofBytes_marked]
    refine (@rises_scan (.text []) [] 0 0 (Nat.le_refl 0) rest).mono (Nat.le_refl 0) ?_
    simp
  · rw [ofBytes_unmarked marked]
    simpa using @rises_scan (.text []) [] 0 0 (Nat.le_refl 0) bytes

/-! ## Cut-off inputs -/

/-- The first stream is the second one cut off: it has the same events, and at its end either a problem,
or nothing, or the beginning of a text. -/
inductive Cut : Stream → Stream → Prop
  | event (event : Event) (position : Nat) {short whole : Stream} (rest : Cut short whole) :
    Cut (.event event position short) (.event event position whole)
  | ended (position : Nat) (whole : Stream) : Cut (.ended position) whole
  | failed (problem : Problem) (position : Nat) (whole : Stream) :
    Cut (.failed problem position) whole
  | text (text : Text.Bytes) (position : Nat) (whole : Stream) :
    Cut (.event (.text text) position (.ended position)) whole

theorem Cut.textOnto {short whole : Stream} (cut : Cut short whole) (text : Text.Bytes)
    (position : Nat) : Cut (.textOnto text position short) (.textOnto text position whole) := by
  unfold Stream.textOnto
  split
  · exact cut
  · exact .event (.text text) position cut

theorem cut_finish (mode : Mode) (position : Nat) (whole : Stream) :
    Cut (mode.finish position) whole := by
  cases mode with
  | text held =>
    rw [Mode.finish, Stream.textOnto]
    split
    · exact .ended position whole
    · exact .text _ position whole
  | bracket | bang | comment held | cdata held | doctype depth held | instruction held
  | tag quote held => exact .failed _ _ whole

/-- A prefix of the bytes gives the same stream cut off. -/
theorem cut_scan (mode : Mode) (names : List Text.Bytes) (position : Nat)
    (bytes more : Text.Bytes) :
    Cut (scan mode names position bytes) (scan mode names position (bytes ++ more)) := by
  induction bytes generalizing mode names position with
  | nil => exact cut_finish mode position _
  | cons byte bytes ih =>
    rw [List.cons_append, scan, scan]
    cases mode.step names byte with
    | next mode => exact ih mode names _
    | emit piece names => exact .event piece _ (ih (.text []) names _)
    | «break» text => exact (ih .bracket names _).textOnto text position
    | fail problem => exact .failed problem _ _
    | unknown => exact .failed .unknownMarkup _ _

/-- A mark that is cut off is no mark, but a text at the end. -/
theorem cut_of_mark {part : Text.Bytes} (h : part <+: byteOrderMark) (whole : Stream) :
    Cut (scan (.text []) [] 0 part) whole := by
  simp only [byteOrderMark, List.prefix_cons_iff, List.prefix_nil] at h
  rcases h with rfl | ⟨_, rfl, rfl | ⟨_, rfl, rfl | ⟨_, rfl, rfl⟩⟩⟩
  · exact .ended 0 whole
  · exact .text [0xEF] 1 whole
  · exact .text [0xEF, 0xBB] 2 whole
  · exact .text byteOrderMark 3 whole

/-- The stream of the beginning of an input is the stream of the input cut off. -/
theorem cut_ofBytes {part bytes : Text.Bytes} (h : part <+: bytes) :
    Cut (ofBytes part) (ofBytes bytes) := by
  by_cases marked : byteOrderMark <+: bytes
  · rcases List.prefix_or_prefix_of_prefix h marked with cut_mark | ⟨start, rfl⟩
    · by_cases complete : byteOrderMark <+: part
      · obtain rfl : part = byteOrderMark := cut_mark.eq_of_length_le complete.length_le
        exact .ended 0 _
      · rw [ofBytes_unmarked complete]
        exact cut_of_mark cut_mark _
    · obtain ⟨more, rfl⟩ := h
      rw [List.append_assoc, ofBytes_marked, ofBytes_marked]
      exact cut_scan (.text []) [] 0 start more
  · rw [ofBytes_unmarked marked, ofBytes_unmarked fun complete ↦ marked (complete.trans h)]
    obtain ⟨more, rfl⟩ := h
    exact cut_scan (.text []) [] 0 part more

/-! ## Nested elements -/

def events : Stream → List Event
  | event piece _ rest => piece :: rest.events
  | ended _ => []
  | failed _ _ => []

/-- What an event makes of the names of the open elements, the innermost first. -/
inductive Leads : List Text.Bytes → Event → List Text.Bytes → Prop
  | start (tag : Tag) (names : List Text.Bytes) : Leads names (.start tag) (tag.name :: names)
  | empty (tag : Tag) (names : List Text.Bytes) : Leads names (.empty tag) names
  | close (name : Text.Bytes) (names : List Text.Bytes) : Leads (name :: names) (.close name) names
  | text (bytes : Text.Bytes) (names : List Text.Bytes) : Leads names (.text bytes) names
  | cdata (bytes : Text.Bytes) (names : List Text.Bytes) : Leads names (.cdata bytes) names
  | comment (bytes : Text.Bytes) (names : List Text.Bytes) : Leads names (.comment bytes) names
  | directive (names : List Text.Bytes) : Leads names .directive names

/-- With certain elements open in front of the events, every close tag among them is that of the
innermost element. -/
inductive Nested : List Text.Bytes → List Event → Prop
  | nil (names : List Text.Bytes) : Nested names []
  | cons {names after : List Text.Bytes} {event : Event} {events : List Event}
    (leads : Leads names event after) (rest : Nested after events) : Nested names (event :: events)

theorem Nested.close_eq {name expected : Text.Bytes} {names : List Text.Bytes} {events : List Event}
    (h : Nested (expected :: names) (.close name :: events)) : name = expected := by
  cases h with
  | cons leads rest =>
    cases leads
    rfl

theorem Nested.start {tag : Tag} {names : List Text.Bytes} {events : List Event}
    (h : Nested names (.start tag :: events)) : Nested (tag.name :: names) events := by
  cases h with
  | cons leads rest =>
    cases leads
    exact rest

theorem nested_textOnto {names : List Text.Bytes} {rest : Stream} (nested : Nested names rest.events)
    (text : Text.Bytes) (position : Nat) : Nested names (Stream.textOnto text position rest).events := by
  unfold Stream.textOnto
  split
  · exact nested
  · exact .cons (.text text names) nested

theorem nested_finish (names : List Text.Bytes) (mode : Mode) (position : Nat) :
    Nested names (mode.finish position).events := by
  cases mode with
  | text held => exact @nested_textOnto names (.ended position) (.nil names) _ position
  | bracket | bang | comment held | cdata held | doctype depth held | instruction held
  | tag quote held => exact .nil names

section

variable {names after : List Text.Bytes} {event : Event}

theorem leads_of_closeStep {name : Text.Bytes} (h : closeStep name names = .emit event after) :
    Leads names event after := by
  cases names with
  | nil => cases h
  | cons expected names =>
    rw [closeStep] at h
    split at h
    · next same =>
      subst same
      cases h
      exact .close name _
    · cases h

theorem leads_of_tagStep {held : Text.Bytes} (h : tagStep held names = .emit event after) :
    Leads names event after := by
  unfold tagStep at h
  split at h
  · exact leads_of_closeStep h
  · cases h
    exact .empty _ names
  · cases h
    exact .start _ names

theorem leads_of_inTag {quote : Option UInt8} {held : Text.Bytes} {byte : UInt8}
    (h : inTag quote held names byte = .emit event after) : Leads names event after := by
  unfold inTag at h
  split at h
  · cases h
  · split at h
    · exact leads_of_tagStep h
    · split at h
      all_goals cases h

theorem leads_of_commentEvent {content : Text.Bytes}
    (h : outcome names (commentEvent content) = .emit event after) : Leads names event after := by
  unfold commentEvent at h
  split at h
  · cases h
    exact .comment _ names
  · cases h

theorem leads_of_cdataEvent {content : Text.Bytes}
    (h : outcome names (cdataEvent content) = .emit event after) : Leads names event after := by
  unfold cdataEvent at h
  split at h
  · cases h
    exact .cdata _ names
  · cases h

theorem leads_of_doctypeEvent {content : Text.Bytes}
    (h : outcome names (doctypeEvent content) = .emit event after) : Leads names event after := by
  unfold doctypeEvent at h
  split at h
  · split at h
    · cases h
    · cases h
      exact .directive names
  · cases h

theorem leads_of_instructionEvent {content : Text.Bytes}
    (h : outcome names (instructionEvent content) = .emit event after) :
    Leads names event after := by
  unfold instructionEvent at h
  split at h
  · cases h
  · cases h
    exact .directive names

/-- What a step says of the open elements is what its event makes of them. -/
theorem leads_of_step {mode : Mode} {byte : UInt8} (h : mode.step names byte = .emit event after) :
    Leads names event after := by
  cases mode with
  | text held =>
    rw [Mode.step] at h
    split at h
    all_goals cases h
  | bracket =>
    rw [Mode.step] at h
    split at h
    · cases h
    split at h
    · cases h
    · exact leads_of_inTag h
  | bang =>
    rw [Mode.step] at h
    split at h
    · cases h
    split at h
    · cases h
    split at h
    all_goals cases h
  | comment held =>
    rw [Mode.step] at h
    split at h
    · exact leads_of_commentEvent h
    · cases h
  | cdata held =>
    rw [Mode.step] at h
    split at h
    · exact leads_of_cdataEvent h
    · cases h
  | doctype depth held =>
    unfold Mode.step at h
    dsimp only at h
    split at h
    · cases h
    split at h
    · split at h
      · exact leads_of_doctypeEvent h
      · cases h
    · cases h
  | instruction held =>
    rw [Mode.step] at h
    split at h
    · exact leads_of_instructionEvent h
    · cases h
  | tag quote held => exact leads_of_inTag h

end

/-- Close tags match in every stream that is read from bytes. -/
theorem nested_scan (mode : Mode) (names : List Text.Bytes) (position : Nat) (bytes : Text.Bytes) :
    Nested names (scan mode names position bytes).events := by
  induction bytes generalizing mode names position with
  | nil => exact nested_finish names mode position
  | cons byte bytes ih =>
    rw [scan]
    cases step : mode.step names byte with
    | next mode => exact ih mode names _
    | emit piece after => exact .cons (leads_of_step step) (ih (.text []) after _)
    | «break» text => exact nested_textOnto (ih .bracket names _) text position
    | fail problem => exact .nil names
    | unknown => exact .nil names

theorem nested_ofBytes (bytes : Text.Bytes) : Nested [] (ofBytes bytes).events := by
  unfold ofBytes
  split
  all_goals exact nested_scan (.text []) [] 0 _

end Stream

end Phrasebook.Markup
