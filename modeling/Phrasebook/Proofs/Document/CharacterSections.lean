import Phrasebook.Proofs.Document.Refusal

/-!
# Texts in character sections

A text with markup in it is written as character sections. It is cut at each mark that would end one,
between the brackets of the mark and its `>`, which is found by looking for the first mark of what is
left of the text. A part may so begin with `>` or end with brackets right in front of the mark behind it,
and still the first mark behind the opening of a section is its own.
-/

namespace Phrasebook.Document

open Phrasebook.Markup Phrasebook.Text

/-! ## First marks -/

/-- Between two stretches of a text, the mark of a character section stands for the first time. -/
def FirstMark (front back : List Char) : Prop :=
  ∀ p q, front ++ ([']', ']', '>'] ++ back) = p ++ ([']', ']', '>'] ++ q) → front.length ≤ p.length

/-- The mark does not overlap with itself, so it is the first one behind a text that holds none. -/
theorem FirstMark.of_unmarked {content : List Char} (unmarked : ¬ [']', ']', '>'] <:+: content)
    (back : List Char) : FirstMark content back := by
  intro p q split
  refine Nat.le_of_not_lt fun shorter ↦ unmarked ?_
  obtain ⟨overlap, rfl⟩ : p <+: content :=
    List.prefix_of_prefix_length_le ⟨_, split.symm⟩ ⟨_, rfl⟩ (Nat.le_of_lt shorter)
  rw [List.append_assoc, List.append_cancel_left_eq] at split
  match overlap with
  | [] => simp at shorter
  | [_] => simp at split
  | [_, _] => simp at split
  | x :: y :: z :: others =>
    simp only [List.cons_append, List.nil_append, List.cons.injEq] at split
    obtain ⟨rfl, rfl, rfl, -⟩ := split
    exact ⟨p, others, by simp⟩

/-- A text is cut in one way at its first mark. -/
theorem FirstMark.unique {front back front' back' : List Char} (first : FirstMark front back)
    (first' : FirstMark front' back')
    (same : front ++ ([']', ']', '>'] ++ back) = front' ++ ([']', ']', '>'] ++ back')) :
    front = front' ∧ back = back' := by
  have lengths : front.length = front'.length :=
    Nat.le_antisymm (first front' back' same) (first' front back same.symm)
  obtain ⟨fronts, marked⟩ := List.append_inj same lengths
  exact ⟨fronts, List.append_cancel_left marked⟩

/-! ## Cutting -/

/-- The parts that a text yields: what stands in front of its first mark together with the brackets of
the mark, and then the parts of the rest, which begins with `>`; or the whole text, if there is no
mark. -/
inductive Yields : List Char → List (List Char) → Prop
  | whole {cs : List Char} (unmarked : ¬ [']', ']', '>'] <:+: cs) : Yields cs [cs]
  | cut {cs front back : List Char} {parts : List (List Char)}
    (split : cs = front ++ ([']', ']', '>'] ++ back)) (first : FirstMark front back)
    (rest : Yields ('>' :: back) parts) : Yields cs ((front ++ [']', ']']) :: parts)

/-- Cutting on the way through a text comes to the parts that the text yields. -/
theorem yields_cdataPartsFrom (held cs : List Char) (unclosed : Unclosed held cs) :
    Yields (held.reverse ++ cs) (cdataPartsFrom held cs) := by
  induction held, cs using cdataPartsFrom.induct with
  | case1 held rest ih =>
    have front : (']' :: ']' :: held).reverse = held.reverse ++ [']', ']'] := by simp
    rw [cdataPartsFrom, front]
    refine .cut rfl (fun p q split ↦ ?_) (ih (.reopened rest))
    rw [List.length_reverse]
    exact unclosed p q split
  | case2 held c rest other ih =>
    have further := ih (unclosed.cons other)
    rw [List.reverse_cons, List.append_assoc, List.singleton_append] at further
    rw [cdataPartsFrom]
    · exact further
    · exact other
  | case3 held =>
    have only := @Unclosed.not_infix held [] [] unclosed (by decide)
    rw [cdataPartsFrom]
    rw [List.append_nil] at only ⊢
    exact .whole only

/-- A text yields its parts in one way only. -/
theorem Yields.unique {cs : List Char} {parts others : List (List Char)} (yields : Yields cs parts)
    (yields' : Yields cs others) : parts = others := by
  induction yields generalizing others with
  | whole unmarked =>
    cases yields' with
    | whole => rfl
    | @cut _ front back _ split =>
      exact absurd ⟨front, back, by rw [split, List.append_assoc]⟩ unmarked
  | @cut cs front back parts split first rest ih =>
    cases yields' with
    | whole unmarked => exact absurd ⟨front, back, by rw [split, List.append_assoc]⟩ unmarked
    | cut split' first' rest' =>
      obtain ⟨rfl, rfl⟩ := first.unique first' (split.symm.trans split')
      rw [ih rest']

/-- A text yields its parts, and no others. -/
theorem yields_iff (text : String) (parts : List (List Char)) :
    Yields text.toList parts ↔ parts = (cdataParts text).map String.toList := by
  have chars : (cdataParts text).map String.toList = cdataPartsFrom [] text.toList := by
    simp [cdataParts]
  have yields := yields_cdataPartsFrom [] text.toList fun _ _ _ ↦ Nat.zero_le _
  rw [chars]
  constructor
  · exact fun others ↦ others.unique yields
  · rintro rfl
    exact yields

/-! ## Reading the sections -/

def inSections (parts : List String) : String :=
  String.join (parts.map fun part ↦ "<![CDATA[" ++ part ++ "]]>")

theorem inSections_cons (part : String) (parts : List String) :
    inSections (part :: parts) = "<![CDATA[" ++ part ++ "]]>" ++ inSections parts := by
  rw [inSections, List.map_cons, String.join_cons, ← inSections]

/-- The contents of sections that stand side by side: what stands between an opening and the first mark
behind it, and then the contents of the sections behind that. -/
inductive Contents : List Char → List (List Char) → Prop
  | nothing : Contents [] []
  | next {cs content back : List Char} {contents : List (List Char)}
    (split : cs = "<![CDATA[".toList ++ (content ++ ([']', ']', '>'] ++ back)))
    (first : FirstMark content back) (rest : Contents back contents) :
    Contents cs (content :: contents)

/-- Sections side by side have their contents in one way only. -/
theorem Contents.unique {cs : List Char} {contents others : List (List Char)}
    (read : Contents cs contents) (read' : Contents cs others) : contents = others := by
  induction read generalizing others with
  | nothing =>
    cases read' with
    | nothing => rfl
    | next split => cases split
  | next split first rest ih =>
    subst split
    cases read' with
    | next split' first' rest' =>
      obtain ⟨rfl, rfl⟩ := first.unique first' (List.append_cancel_left split')
      rw [ih rest']

theorem toList_inSections_cons (part : String) (parts : List String) :
    (inSections (part :: parts)).toList =
      "<![CDATA[".toList ++ (part.toList ++ ([']', ']', '>'] ++ (inSections parts).toList)) := by
  have mark : "]]>".toList = [']', ']', '>'] := rfl
  rw [inSections_cons, String.toList_append, String.toList_append, String.toList_append, mark,
    List.append_assoc, List.append_assoc]

theorem contents_inSections {parts : List String}
    (unmarked : ∀ part ∈ parts, ¬ [']', ']', '>'] <:+: part.toList) :
    Contents (inSections parts).toList (parts.map String.toList) := by
  induction parts with
  | nil => exact .nothing
  | cons part parts ih =>
    obtain ⟨first, others⟩ := List.forall_mem_cons.1 unmarked
    exact .next (toList_inSections_cons part parts) (.of_unmarked first _) (ih others)

/-- Events, each with the position behind it, in front of the rest of a stream. -/
def ledBy (located : List (Event × Nat)) (rest : Stream) : Stream :=
  located.foldr (fun one rest ↦ .event one.1 one.2 rest) rest

theorem bytes_cdata (part : String) :
    (Item.cdata part).bytes = Utf8.encode ("<![CDATA[" ++ part ++ "]]>") := by
  rw [Item.bytes, Item.pieces, Item.encode_join_three, Utf8.encode_append, Utf8.encode_append,
    List.append_assoc]

/-- Sections side by side are read as they were written, one event for each of them. -/
theorem scan_inSections {parts : List String}
    (unmarked : ∀ part ∈ parts, ¬ [']', ']', '>'] <:+: part.toList) (names : List Bytes)
    (position : Nat) (more : Bytes) :
    ∃ located next, located.map Prod.fst = parts.map (fun part ↦ .cdata (Utf8.encode part)) ∧
      Stream.scan (.text []) names position (Utf8.encode (inSections parts) ++ more) =
        ledBy located (.scan (.text []) names next more) := by
  induction parts generalizing position with
  | nil => exact ⟨[], position, rfl, rfl⟩
  | cons part parts ih =>
    obtain ⟨first, others⟩ := List.forall_mem_cons.1 unmarked
    obtain ⟨bytes, bracketed, spells⟩ := Item.cdata_tells names first
    obtain ⟨before, behind, scanned⟩ := spells.after_text List.not_mem_nil position
      (Utf8.encode (inSections parts) ++ more)
    obtain ⟨located, next, events, rest⟩ := ih others behind
    refine ⟨(.cdata (Utf8.encode part), behind) :: located, next, ?_, ?_⟩
    · rw [List.map_cons, List.map_cons, events]
    · rw [inSections_cons, Utf8.encode_append, ← bytes_cdata, bracketed, List.append_assoc,
        List.cons_append]
      refine scanned.trans ?_
      rw [rest]
      rfl

/-- Within an entry, the texts of sections are added to the text of the entry. -/
theorem ofStream_ledBy_cdata (s : OpenSection) (e : OpenEntry) {located : List (Event × Nat)}
    {parts : List String} (events : located.map Prod.fst = parts.map fun part ↦ .cdata (Utf8.encode part))
    (rest : Stream) :
    Sections.ofStream (.entry s e) (ledBy located rest) =
      Sections.ofStream (.entry s { e with text := e.text ++ String.join parts }) rest := by
  induction parts generalizing e located with
  | nil =>
    have whole : e.text ++ String.join [] = e.text := String.append_empty
    rw [List.map_eq_nil_iff.1 events, whole]
    rfl
  | cons part parts ih =>
    obtain ⟨⟨event, position⟩, others, rfl, rfl, further⟩ := List.map_eq_cons_iff.1 events
    rw [ledBy, List.foldr_cons, ← ledBy, Sections.ofStream, Stage.step, inEntry, Utf8.decode_encode]
    dsimp only
    rw [ih _ further, String.append_assoc, ← String.join_cons]

/-- On a page, sections stand side by side with nothing between them. -/
theorem lines_cdatas (page : Page) (parts : List String) :
    page.lines (parts.map .cdata) = inSections parts := by
  induction parts generalizing page with
  | nil => rfl
  | cons part parts ih =>
    have line : page.line (.cdata part) = "<![CDATA[" ++ part ++ "]]>" := by
      simp [Page.line, Page.lead, Item.ownLine, Item.pieces, String.join_cons, String.append_assoc]
    rw [List.map_cons, Page.lines, ih, line, inSections_cons]

/-- A text with markup in it is written as sections between the tags of its entry. -/
theorem items_of_needsCdata {entry : Entry} (needs : needsCdata entry.text = true) :
    ∃ opening closing, entry.items = opening :: ((cdataParts entry.text).map .cdata ++ [closing]) := by
  have some_text : ¬ entry.text.isEmpty = true := by
    intro nothing
    rw [String.isEmpty_iff.1 nothing] at needs
    cases needs
  rw [Entry.items, if_neg some_text, if_pos needs]
  exact ⟨_, _, rfl⟩

/-- Character sections lose nothing and let nothing out. Cutting a text at its first mark as long as it
has one comes to an end with its parts, of which there is one at least; they make up the text, and none
holds a mark. Written as sections, they are what is found between each opening and the first mark behind
it, and the reader sees just these sections and takes the text from them, whatever stands behind. -/
theorem character_sections_lossless (text : String) :
    (∀ parts, Yields text.toList parts ↔ parts = (cdataParts text).map String.toList) ∧
      cdataParts text ≠ [] ∧
      String.join (cdataParts text) = text ∧
      (∀ part ∈ cdataParts text, ¬ [']', ']', '>'] <:+: part.toList) ∧
      (∀ entry : Entry, entry.text = text → needsCdata text = true →
        ∃ opening closing, entry.items = opening :: ((cdataParts text).map .cdata ++ [closing])) ∧
      (∀ page : Page, page.lines ((cdataParts text).map .cdata) = inSections (cdataParts text)) ∧
      (∀ contents, Contents (inSections (cdataParts text)).toList contents ↔
        contents = (cdataParts text).map String.toList) ∧
      ∀ names position more, ∃ located next,
        located.map Prod.fst = (cdataParts text).map (fun part ↦ .cdata (Utf8.encode part)) ∧
        Stream.scan (.text []) names position (Utf8.encode (inSections (cdataParts text)) ++ more) =
          ledBy located (.scan (.text []) names next more) ∧
        ∀ s e rest, Sections.ofStream (.entry s e) (ledBy located rest) =
          Sections.ofStream (.entry s { e with text := e.text ++ text }) rest := by
  obtain ⟨unmarked, joined⟩ := cdataParts_spec text
  refine ⟨yields_iff text, cdataParts_ne_nil text, joined, unmarked, ?_,
    fun page ↦ lines_cdatas page _, fun contents ↦ ?_, fun names position more ↦ ?_⟩
  · rintro entry rfl needs
    exact items_of_needsCdata needs
  · have read := contents_inSections unmarked
    constructor
    · exact fun others ↦ others.unique read
    · rintro rfl
      exact read
  · obtain ⟨located, next, events, scanned⟩ := scan_inSections unmarked names position more
    refine ⟨located, next, events, scanned, fun s e rest ↦ ?_⟩
    rw [ofStream_ledBy_cdata s e events, joined]

/-- Marks that overlap with brackets in front of them, and a mark right behind another. -/
example : cdataParts "]]]>]]>" = ["]]]", ">]]", ">"] := by decide +kernel

end Phrasebook.Document
