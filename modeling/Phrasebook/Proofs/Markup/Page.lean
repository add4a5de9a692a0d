import Phrasebook.Proofs.Markup.Piece

/-!
# Pages on a sink that never refuses

A sink without a limit takes every item. What an item adds to the text is a lead of white space, which
is empty within the text of an element, and the bytes of the item. The bytes of a tag, a comment or a
character section are read back as one event.
-/

namespace Phrasebook.Markup

open Phrasebook.Text

theorem Sink.write_of_patient {sink : Sink} (patient : sink.patience = none) (s : String) :
    sink.write s = (true, { sink with text := sink.text ++ s }) := by
  rw [Sink.write]
  split
  · next empty =>
    rw [String.isEmpty_iff.1 empty, String.append_empty]
  · rw [patient]

theorem Sink.writeAll_of_patient {sink : Sink} (patient : sink.patience = none)
    (pieces : List String) :
    sink.writeAll pieces = (true, { sink with text := sink.text ++ String.join pieces }) := by
  induction pieces generalizing sink with
  | nil =>
    have unchanged : sink.text ++ String.join [] = sink.text := String.append_empty
    rw [Sink.writeAll, unchanged]
  | cons s pieces ih =>
    rw [Sink.writeAll, Sink.write_of_patient patient]
    dsimp only
    rw [ih (by exact patient), String.join_cons, String.append_assoc]

def Item.bytes (item : Item) : Bytes := Utf8.encode (String.join item.pieces)

namespace Page

def put (page : Page) (item : Item) : Page := (page.write item).2

def putAll (page : Page) (items : List Item) : Page := items.foldl put page

@[simp] theorem putAll_nil (page : Page) : page.putAll [] = page := rfl

@[simp] theorem putAll_append (page : Page) (items more : List Item) :
    page.putAll (items ++ more) = (page.putAll items).putAll more :=
  List.foldl_append

@[simp] theorem putAll_cons (page : Page) (item : Item) (items : List Item) :
    page.putAll (item :: items) = (page.put item).putAll items := rfl

def leadBytes (page : Page) (item : Item) : Bytes := Utf8.encode (String.join (page.lead item))

section

variable {page : Page} (patient : page.sink.patience = none) (item : Item)

include patient

theorem write_of_patient : page.write item = (true, page.put item) := by
  rw [put, write, Sink.writeAll_of_patient patient]

@[simp] theorem patience_put : (page.put item).sink.patience = none := by
  rw [put, write, Sink.writeAll_of_patient patient]
  exact patient

@[simp] theorem patience_putAll (items : List Item) : (page.putAll items).sink.patience = none := by
  induction items generalizing page with
  | nil => exact patient
  | cons item items ih => exact ih (patience_put patient item)

theorem encode_put :
    Utf8.encode (page.put item).sink.text =
      Utf8.encode page.sink.text ++ (page.leadBytes item ++ item.bytes) := by
  rw [put, write, Sink.writeAll_of_patient patient, leadBytes, Item.bytes, ← Utf8.encode_append,
    ← Utf8.encode_append, String.join_append]

end

theorem isSpace_of_mem_leadBytes {page : Page} {item : Item} {byte : UInt8}
    (h : byte ∈ page.leadBytes item) : isSpace byte = true := by
  have lines : ∀ depth, Utf8.encode (String.join ["\n", String.ofList (List.replicate depth '\t')]) =
      0x0A :: List.replicate depth 0x09 := by
    intro depth
    have tab : String.utf8EncodeChar '\t' = [0x09] := rfl
    have tabs : (List.replicate depth '\t').flatMap String.utf8EncodeChar =
        List.replicate depth 0x09 := by
      induction depth with
      | zero => rfl
      | succ depth ih => rw [List.replicate_succ, List.flatMap_cons, ih, tab]; rfl
    rw [String.join_cons, String.join_cons, Utf8.encode_append, Utf8.encode_append,
      @Utf8.encode_ofList (List.replicate depth '\t'), tabs]
    exact congrArg (0x0A :: ·) (List.append_nil _)
  rw [leadBytes, lead] at h
  split at h
  · rw [lines] at h
    rcases List.mem_cons.1 h with rfl | h
    · rfl
    · rw [(List.mem_replicate.1 h).2]
      rfl
  · cases h

theorem leadBytes_inline {page : Page} {item : Item} (h : (item.ownLine && page.breaks) = false) :
    page.leadBytes item = [] := by
  rw [leadBytes, lead, h]
  rfl

end Page

/-! ## Items as events -/

namespace Item

/-- The item is read as one event, which leaves certain elements open. -/
def Tells (item : Item) (names : List Bytes) (event : Event) (after : List Bytes) : Prop :=
  ∃ bytes, item.bytes = 0x3C :: bytes ∧ Spells names bytes event after

theorem encode_join_three (opening content closing : String) :
    Utf8.encode (String.join [opening, content, closing]) =
      Utf8.encode opening ++ (Utf8.encode content ++ Utf8.encode closing) := by
  have alone : String.join [closing] = closing := by
    rw [String.join_cons]
    exact String.append_empty
  rw [String.join_cons, String.join_cons, alone, Utf8.encode_append, Utf8.encode_append]

section

variable {name : String} {pairs : List (String × String)} (names : List Bytes)

theorem start_tells (named : ElementName name) (plain : ∀ pair ∈ pairs, PlainName pair.1) :
    (start name pairs).Tells names (.start (writtenTag name pairs)) (Utf8.encode name :: names) := by
  refine ⟨_, ?_, spells_start named plain names⟩
  rw [bytes, pieces, encode_join_three, encode_tagText]
  rfl

theorem empty_tells (named : ElementName name) (plain : ∀ pair ∈ pairs, PlainName pair.1) :
    (empty name pairs).Tells names (.empty (writtenTag name pairs)) names := by
  refine ⟨_, ?_, spells_empty named plain names⟩
  rw [bytes, pieces, encode_join_three, encode_tagText]
  rfl

theorem close_tells (named : ElementName name) :
    (close name).Tells (Utf8.encode name :: names) (.close (Utf8.encode name)) names := by
  refine ⟨_, ?_, spells_close named names⟩
  rw [bytes, pieces, encode_join_three]
  rfl

theorem comment_tells {cs : List Char} (apart : ¬ ['-', '-'] <:+: ' ' :: cs) :
    (comment (String.ofList (' ' :: cs))).Tells names
      (.comment (Utf8.encode (String.ofList (' ' :: cs)))) names := by
  refine ⟨_, ?_, spells_comment apart names⟩
  rw [bytes, pieces, encode_join_three]
  rfl

theorem cdata_tells {s : String} (unclosed : ¬ [']', ']', '>'] <:+: s.toList) :
    (cdata s).Tells names (.cdata (Utf8.encode s)) names := by
  have spells := spells_cdata unclosed names
  rw [String.ofList_toList] at spells
  refine ⟨_, ?_, spells⟩
  rw [bytes, pieces, encode_join_three]
  rfl

theorem declaration_tells : declaration.Tells names .directive names := by
  refine ⟨_, ?_, spells_declaration names⟩
  rw [bytes, pieces, encode_join_three]
  rfl

end

end Item

end Phrasebook.Markup
