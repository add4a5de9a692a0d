import Phrasebook.Proofs.Markup.Attribute

/-!
# Written pieces of markup

What a page writes for an item is read back as one event, whatever follows it: a tag with its
attributes, a comment without two hyphens side by side, a character section without its closing mark.
A text runs up to the next opening bracket.
-/

namespace Phrasebook.Markup

open Phrasebook.Text

/-- Behind an opening bracket the bytes are read as one event, which leaves certain elements open. -/
def Spells (names : List Bytes) (bytes : Bytes) (event : Event) (after : List Bytes) : Prop :=
  ∀ position more, ∃ next, Stream.scan .bracket names position (bytes ++ more) =
    .event event next (Stream.scan (.text []) after next more)

/-! ## Texts -/

/-- A text ends at the next opening bracket. -/
theorem scan_text {bytes : Bytes} (free : (0x3C : UInt8) ∉ bytes) (held : Bytes)
    (names : List Bytes) (position : Nat) (more : Bytes) :
    ∃ next, Stream.scan (.text held) names position (bytes ++ 0x3C :: more) =
      .textOnto (held.reverse ++ bytes) next (Stream.scan .bracket names (next + 1) more) := by
  induction bytes generalizing held position with
  | nil =>
    refine ⟨position, ?_⟩
    rw [List.nil_append, Stream.scan, Mode.step, if_pos rfl, List.append_nil]
  | cons byte bytes ih =>
    have bracket : byte ≠ 0x3C := fun same ↦ free (same ▸ List.mem_cons_self)
    obtain ⟨next, scanned⟩ := ih (fun h ↦ free (List.mem_cons_of_mem _ h)) (byte :: held)
      (position + 1)
    refine ⟨next, ?_⟩
    rw [List.cons_append, Stream.scan, Mode.step, if_neg bracket]
    dsimp only
    rw [scanned]
    simp

/-- A text in front of a piece of markup. -/
theorem Spells.after_text {names after : List Bytes} {bytes text : Bytes} {event : Event}
    (spells : Spells names bytes event after) (free : (0x3C : UInt8) ∉ text) (position : Nat)
    (more : Bytes) :
    ∃ before next, Stream.scan (.text []) names position (text ++ 0x3C :: (bytes ++ more)) =
      .textOnto text before (.event event next (Stream.scan (.text []) after next more)) := by
  obtain ⟨before, scanned⟩ := scan_text free [] names position (bytes ++ more)
  obtain ⟨next, spelled⟩ := spells (before + 1) more
  exact ⟨before, next, by rw [scanned, spelled]; rfl⟩

/-! ## Tags -/

section

variable {names : List Bytes} {position : Nat} {held more bytes : Bytes}

theorem scan_tag_plain (free : ∀ byte ∈ bytes, byte ≠ 0x3E ∧ byte ≠ 0x22 ∧ byte ≠ 0x27) :
    ∃ next, Stream.scan (.tag none held) names position (bytes ++ more) =
      Stream.scan (.tag none (bytes.reverse ++ held)) names next more := by
  induction bytes generalizing held position with
  | nil => exact ⟨position, rfl⟩
  | cons byte bytes ih =>
    obtain ⟨bracket, double, single⟩ := free byte List.mem_cons_self
    obtain ⟨next, scanned⟩ := @ih (position + 1) (byte :: held)
      fun other h ↦ free other (List.mem_cons_of_mem _ h)
    refine ⟨next, ?_⟩
    rw [List.cons_append, Stream.scan, Mode.step, inTag, if_neg bracket, if_neg (by simp [double, single])]
    dsimp only
    rw [scanned]
    simp

theorem scan_tag_quoted (free : (0x22 : UInt8) ∉ bytes) :
    ∃ next, Stream.scan (.tag (some 0x22) held) names position (bytes ++ 0x22 :: more) =
      Stream.scan (.tag none (0x22 :: (bytes.reverse ++ held))) names next more := by
  induction bytes generalizing held position with
  | nil => exact ⟨position + 1, rfl⟩
  | cons byte bytes ih =>
    have quote : byte ≠ 0x22 := fun same ↦ free (same ▸ List.mem_cons_self)
    obtain ⟨next, scanned⟩ := @ih (position + 1) (byte :: held)
      fun h ↦ free (List.mem_cons_of_mem _ h)
    refine ⟨next, ?_⟩
    rw [List.cons_append, Stream.scan, Mode.step, inTag]
    dsimp only
    rw [if_neg quote, scanned]
    simp

theorem PlainName.unmarked {s : String} (plain : PlainName s) :
    ∀ byte ∈ Utf8.encode s, byte ≠ 0x3E ∧ byte ≠ 0x22 ∧ byte ≠ 0x27 := by
  intro byte h
  exact ⟨fun same ↦ plain.not_mem (by decide) (same ▸ h),
    fun same ↦ plain.not_mem (by decide) (same ▸ h), fun same ↦ plain.not_mem (by decide) (same ▸ h)⟩

theorem scan_tag_attribute {pair : String × String} (plain : PlainName pair.1) :
    ∃ next, Stream.scan (.tag none held) names position (attributeBytes pair ++ more) =
      Stream.scan (.tag none ((attributeBytes pair).reverse ++ held)) names next more := by
  have written : attributeBytes pair ++ more = (0x20 :: (Utf8.encode pair.1 ++ [0x3D])) ++
      0x22 :: (Utf8.encode (escape pair.2) ++ 0x22 :: more) := by
    simp [attributeBytes]
  have reversed : (attributeBytes pair).reverse ++ held =
      0x22 :: ((Utf8.encode (escape pair.2)).reverse ++
        0x22 :: ((0x20 :: (Utf8.encode pair.1 ++ [0x3D])).reverse ++ held)) := by
    simp [attributeBytes]
  have keyed : ∀ byte ∈ 0x20 :: (Utf8.encode pair.1 ++ [0x3D]),
      byte ≠ 0x3E ∧ byte ≠ 0x22 ∧ byte ≠ 0x27 := by
    intro byte h
    simp only [List.mem_cons, List.mem_append, List.not_mem_nil, or_false] at h
    rcases h with rfl | h | rfl
    · decide
    · exact plain.unmarked byte h
    · decide
  rw [written, reversed]
  generalize 0x20 :: (Utf8.encode pair.1 ++ [0x3D]) = key at keyed
  obtain ⟨quoted, scanned⟩ := @scan_tag_plain names position held
    (0x22 :: (Utf8.encode (escape pair.2) ++ 0x22 :: more)) key keyed
  obtain ⟨next, valued⟩ := @scan_tag_quoted names (quoted + 1) (0x22 :: (key.reverse ++ held)) more
    (Utf8.encode (escape pair.2)) (not_mem_encode_escape pair.2 (by decide))
  refine ⟨next, ?_⟩
  rw [scanned, Stream.scan, ← valued]
  rfl

/-- A tag is read over its attributes, whatever their values hold. -/
theorem scan_tag_attributes {pairs : List (String × String)}
    (plain : ∀ pair ∈ pairs, PlainName pair.1) :
    ∃ next, Stream.scan (.tag none held) names position (pairs.flatMap attributeBytes ++ more) =
      Stream.scan (.tag none ((pairs.flatMap attributeBytes).reverse ++ held)) names next more := by
  induction pairs generalizing held position with
  | nil => exact ⟨position, rfl⟩
  | cons pair pairs ih =>
    obtain ⟨middle, first⟩ := @scan_tag_attribute names position held
      (pairs.flatMap attributeBytes ++ more) pair (plain pair List.mem_cons_self)
    obtain ⟨next, others⟩ := @ih middle ((attributeBytes pair).reverse ++ held)
      fun other h ↦ plain other (List.mem_cons_of_mem _ h)
    refine ⟨next, ?_⟩
    rw [List.flatMap_cons, List.append_assoc, first, others, List.reverse_append, List.append_assoc]

/-- A name of an element: a plain name without the marks that begin or end a piece of another kind. -/
def ElementName (s : String) : Prop := PlainName s ∧ ∀ c ∈ s.toList, c ∉ ['!', '?', '/']

instance (s : String) : Decidable (ElementName s) :=
  have := List.decidableBAll (· ∉ ['!', '?', '/']) s.toList
  inferInstanceAs (Decidable (_ ∧ _))

theorem ElementName.not_mem {s : String} (named : ElementName s) {byte : UInt8}
    (h : byte ∈ [0x21, 0x3F, 0x2F]) : byte ∉ Utf8.encode s := by
  intro mem
  simp only [List.mem_cons, List.not_mem_nil, or_false] at h
  rcases h with rfl | rfl | rfl
  all_goals exact named.2 _ (Utf8.mem_of_mem_encode (by decide) mem) (by decide)

theorem tagStep_start {content : Bytes} (first : content.head? ≠ some 0x2F)
    (last : content.getLast? ≠ some 0x2F) :
    tagStep content.reverse names = .emit (.start ⟨content⟩) (Tag.name ⟨content⟩ :: names) := by
  unfold tagStep
  rw [List.reverse_reverse]
  split
  · exact absurd rfl first
  · refine absurd ?_ last
    rw [← List.head?_reverse]
    simp [*]
  · rfl

theorem tagStep_empty {content : Bytes} (some_content : content ≠ [])
    (first : content.head? ≠ some 0x2F) :
    tagStep (0x2F :: content.reverse) names = .emit (.empty ⟨content⟩) names := by
  obtain ⟨byte, bytes, rfl⟩ := List.exists_cons_of_ne_nil some_content
  have other : byte ≠ 0x2F := fun same ↦ first (congrArg some same)
  unfold tagStep
  simp [other]

theorem tagStep_close {name : Bytes} (last : ∀ byte ∈ name, isSpace byte = false) :
    tagStep (0x2F :: name).reverse (name :: names) = .emit (.close name) names := by
  have closes : closeName name = name := by
    have whole : name.reverse.dropWhile isSpace = name.reverse := by
      cases reversed : name.reverse with
      | nil => rfl
      | cons byte bytes =>
        have mem : byte ∈ name.reverse := by
          rw [reversed]
          exact List.mem_cons_self
        rw [List.dropWhile_cons, last byte (List.mem_reverse.1 mem), if_neg Bool.false_ne_true]
    unfold closeName
    rw [whole, List.reverse_reverse, ite_self]
  unfold tagStep
  simp [closes, closeStep]

section

variable {name : String} (named : ElementName name)

include named

theorem scan_bracket_name (rest : Bytes) :
    Stream.scan .bracket names position (Utf8.encode name ++ rest) =
      Stream.scan (.tag none []) names position (Utf8.encode name ++ rest) := by
  obtain ⟨byte, bytes, spelled⟩ := List.exists_cons_of_ne_nil named.1.encode_ne_nil
  have first : byte ∈ Utf8.encode name := by
    rw [spelled]
    exact List.mem_cons_self
  have bang : byte ≠ 0x21 := fun same ↦ named.not_mem (by decide) (same ▸ first)
  have question : byte ≠ 0x3F := fun same ↦ named.not_mem (by decide) (same ▸ first)
  rw [spelled, List.cons_append, Stream.scan, Stream.scan, Mode.step, if_neg bang, if_neg question]
  rfl

theorem head_writtenTag (pairs : List (String × String)) :
    (writtenTag name pairs).content ≠ [] ∧
      (writtenTag name pairs).content.head? ≠ some 0x2F := by
  obtain ⟨byte, bytes, spelled⟩ := List.exists_cons_of_ne_nil named.1.encode_ne_nil
  have first : byte ∈ Utf8.encode name := by
    rw [spelled]
    exact List.mem_cons_self
  rw [writtenTag, spelled]
  refine ⟨List.cons_ne_nil _ _, fun same ↦ ?_⟩
  exact named.not_mem (by decide) (Option.some.inj same ▸ first)

theorem last_writtenTag (pairs : List (String × String)) :
    (writtenTag name pairs).content.getLast? ≠ some 0x2F := by
  intro last
  rcases List.eq_nil_or_concat pairs with rfl | ⟨others, pair, rfl⟩
  · have mem := List.mem_of_getLast? last
    rw [writtenTag, List.flatMap_nil, List.append_nil] at mem
    exact named.not_mem (by decide) mem
  · have quoted : (writtenTag name (others ++ [pair])).content.getLast? = some 0x22 := by
      simp [writtenTag, attributeBytes, List.getLast?_append, List.getLast?_cons]
    rw [List.concat_eq_append, quoted] at last
    exact absurd last (by decide)

/-- The content of a tag is read up to the closing bracket or slash. -/
theorem scan_writtenTag {pairs : List (String × String)} (plain : ∀ pair ∈ pairs, PlainName pair.1)
    (names : List Bytes) (position : Nat) (rest : Bytes) :
    ∃ next, Stream.scan .bracket names position ((writtenTag name pairs).content ++ rest) =
      Stream.scan (.tag none (writtenTag name pairs).content.reverse) names next rest := by
  obtain ⟨middle, head⟩ := @scan_tag_plain names position []
    (pairs.flatMap attributeBytes ++ rest) _ named.1.unmarked
  obtain ⟨next, scanned⟩ := @scan_tag_attributes names middle
    ((Utf8.encode name).reverse ++ []) rest pairs plain
  refine ⟨next, ?_⟩
  rw [writtenTag, List.append_assoc, scan_bracket_name named, head, scanned, List.reverse_append,
    List.append_nil]

theorem spells_start {pairs : List (String × String)} (plain : ∀ pair ∈ pairs, PlainName pair.1)
    (names : List Bytes) :
    Spells names ((writtenTag name pairs).content ++ [0x3E]) (.start (writtenTag name pairs))
      (Utf8.encode name :: names) := by
  intro position more
  obtain ⟨next, scanned⟩ := scan_writtenTag named plain names position (0x3E :: more)
  refine ⟨next + 1, ?_⟩
  rw [List.append_assoc, List.singleton_append, scanned, Stream.scan, Mode.step, inTag,
    if_pos rfl, tagStep_start (head_writtenTag named pairs).2 (last_writtenTag named pairs)]
  rw [← name_writtenTag named.1]

theorem spells_empty {pairs : List (String × String)} (plain : ∀ pair ∈ pairs, PlainName pair.1)
    (names : List Bytes) :
    Spells names ((writtenTag name pairs).content ++ [0x2F, 0x3E]) (.empty (writtenTag name pairs))
      names := by
  intro position more
  obtain ⟨next, scanned⟩ := scan_writtenTag named plain names position (0x2F :: 0x3E :: more)
  obtain ⟨some_content, first⟩ := head_writtenTag named pairs
  refine ⟨next + 1 + 1, ?_⟩
  have slash : Stream.scan (.tag none (writtenTag name pairs).content.reverse) names next
      (0x2F :: 0x3E :: more) = Stream.scan (.tag none (0x2F :: (writtenTag name pairs).content.reverse))
        names (next + 1) (0x3E :: more) := rfl
  rw [List.append_assoc, List.cons_append, List.singleton_append, scanned, slash, Stream.scan,
    Mode.step, inTag, if_pos rfl, tagStep_empty some_content first]

/-- A close tag is that of the innermost element. -/
theorem spells_close (names : List Bytes) :
    Spells (Utf8.encode name :: names) (0x2F :: (Utf8.encode name ++ [0x3E]))
      (.close (Utf8.encode name)) names := by
  intro position more
  obtain ⟨next, scanned⟩ := @scan_tag_plain (Utf8.encode name :: names) (position + 1) [0x2F]
    (0x3E :: more) _ named.1.unmarked
  have slash : Stream.scan .bracket (Utf8.encode name :: names) position
      (0x2F :: (Utf8.encode name ++ 0x3E :: more)) =
      Stream.scan (.tag none [0x2F]) (Utf8.encode name :: names) (position + 1)
        (Utf8.encode name ++ 0x3E :: more) := rfl
  have held : (Utf8.encode name).reverse ++ [0x2F] = (0x2F :: Utf8.encode name).reverse := by simp
  refine ⟨next + 1, ?_⟩
  rw [List.cons_append, List.append_assoc, List.singleton_append, slash, scanned, Stream.scan,
    Mode.step, inTag, held, if_pos rfl, tagStep_close fun byte h ↦ named.1.not_space h]

end

/-! ## Comments and character sections -/

/-- Bytes are held as long as they do not end the construct. -/
theorem scan_held {mode : Bytes → Mode} {ends : Bytes → Bool}
    (goes_on : ∀ held byte, (byte = 0x3E && ends held) = false →
      (mode held).step names byte = .next (mode (byte :: held)))
    (unended : ∀ p rest, bytes = p ++ 0x3E :: rest → ends (p.reverse ++ held) = false) :
    ∃ next, Stream.scan (mode held) names position (bytes ++ more) =
      Stream.scan (mode (bytes.reverse ++ held)) names next more := by
  induction bytes generalizing held position with
  | nil => exact ⟨position, rfl⟩
  | cons byte bytes ih =>
    have open_still : (byte = 0x3E && ends held) = false := by
      by_cases closing : byte = 0x3E
      · have ended := unended [] bytes (by rw [closing]; rfl)
        rw [List.reverse_nil, List.nil_append] at ended
        rw [ended, Bool.and_false]
      · rw [decide_eq_false closing, Bool.false_and]
    obtain ⟨next, scanned⟩ := @ih (position + 1) (byte :: held) fun p rest h ↦ by
      have ended := unended (byte :: p) rest (by rw [h]; rfl)
      rwa [List.reverse_cons, List.append_assoc] at ended
    refine ⟨next, ?_⟩
    rw [List.cons_append, Stream.scan, goes_on held byte open_still]
    dsimp only
    rw [scanned]
    simp

theorem comment_goes_on (held : Bytes) (byte : UInt8)
    (h : (byte = 0x3E && endsComment held) = false) :
    (Mode.comment held).step names byte = .next (.comment (byte :: held)) := by
  rw [Mode.step, h, if_neg Bool.false_ne_true]

theorem cdata_goes_on (held : Bytes) (byte : UInt8)
    (h : (byte = 0x3E && endsCdata held) = false) :
    (Mode.cdata held).step names byte = .next (.cdata (byte :: held)) := by
  rw [Mode.step, h, if_neg Bool.false_ne_true]

theorem eq_append_of_reverse_eq {p others : Bytes} {last before : UInt8}
    (h : p.reverse = last :: before :: others) : p = others.reverse ++ [before, last] := by
  rw [← List.reverse_reverse p, h]
  simp

/-- Two hyphens that could end a comment stand side by side in its content. -/
theorem eq_append_of_endsComment {p : Bytes}
    (ends : endsComment ((0x20 :: p).reverse ++ held) = true) :
    ∃ q, 0x20 :: p = q ++ [0x2D, 0x2D] := by
  unfold endsComment at ends
  split at ends
  · next h =>
    cases reversed : (0x20 :: p).reverse with
    | nil => simp at reversed
    | cons last others =>
      rw [reversed] at h
      obtain rfl := (List.cons.inj h).1
      cases others with
      | nil =>
        have first := congrArg List.getLast? reversed
        simp at first
      | cons before others =>
        obtain rfl := (List.cons.inj (List.cons.inj h).2).1
        exact ⟨_, eq_append_of_reverse_eq reversed⟩
  · cases ends

theorem eq_append_of_endsCdata {p : Bytes} (ends : endsCdata (p.reverse ++ 0x5B :: held) = true) :
    ∃ q, p = q ++ [0x5D, 0x5D] := by
  unfold endsCdata at ends
  split at ends
  · next h =>
    cases reversed : p.reverse with
    | nil =>
      rw [reversed] at h
      cases h
    | cons last others =>
      rw [reversed] at h
      obtain rfl := (List.cons.inj h).1
      cases others with
      | nil => cases h
      | cons before others =>
        obtain rfl := (List.cons.inj (List.cons.inj h).2).1
        exact ⟨_, eq_append_of_reverse_eq reversed⟩
  · cases ends

theorem endsComment_of_length {others : Bytes} (h : 3 ≤ others.length) :
    endsComment (0x2D :: 0x2D :: others) = true := by
  match others, h with
  | _ :: _ :: _ :: _, _ => rfl

theorem commentEvent_content (content : Bytes) :
    commentEvent (0x21 :: 0x2D :: 0x2D :: (content ++ [0x2D, 0x2D])) = .ok (.comment content) := by
  have opening : Utf8.encode "!--" = [0x21, 0x2D, 0x2D] := rfl
  simp [commentEvent, opening, strip?]

theorem cdataEvent_content (content : Bytes) :
    cdataEvent (Utf8.encode "![CDATA[" ++ (content ++ [0x5D, 0x5D])) = .ok (.cdata content) := by
  have opening : Utf8.encode "![CDATA[" = [0x21, 0x5B, 0x43, 0x44, 0x41, 0x54, 0x41, 0x5B] := rfl
  simp [cdataEvent, opening, strip?]

/-- A comment starts with a space and holds no two hyphens side by side. -/
theorem spells_comment {cs : List Char} (apart : ¬ ['-', '-'] <:+: ' ' :: cs) (names : List Bytes) :
    Spells names
      (Utf8.encode "!--" ++ (Utf8.encode (String.ofList (' ' :: cs)) ++ Utf8.encode "-->"))
      (.comment (Utf8.encode (String.ofList (' ' :: cs)))) names := by
  intro position more
  generalize content : Utf8.encode (String.ofList (' ' :: cs)) = bytes
  rw [Utf8.encode_ofList] at content
  obtain ⟨next, scanned⟩ := @scan_held names (position + 3) [0x2D, 0x2D, 0x21]
    (0x2D :: 0x2D :: 0x3E :: more) bytes .comment endsComment comment_goes_on fun p rest h ↦ by
      refine Bool.eq_false_iff.2 fun ends ↦ apart ?_
      obtain ⟨before, after, chars, rfl, -⟩ :=
        Utf8.flatMap_encodeChar_eq_append (by decide) (content.trans h)
      cases before with
      | nil => exact absurd (List.cons.inj chars).1 (by decide)
      | cons c before =>
        obtain ⟨rfl, rfl⟩ := List.cons.inj chars
        obtain ⟨q, split⟩ := eq_append_of_endsComment ends
        obtain ⟨first, both, hyphen⟩ := Utf8.flatMap_encodeChar_eq_concat (by decide)
          (show (' ' :: before).flatMap String.utf8EncodeChar = (q ++ [0x2D]) ++ [0x2D] by
            rw [List.append_assoc]
            exact split)
        obtain ⟨others, rfl, -⟩ := Utf8.flatMap_encodeChar_eq_concat (by decide) hyphen
        rw [chars, both]
        exact ⟨others, _, by simp; rfl⟩
  have closes : Stream.scan (.comment (bytes.reverse ++ [0x2D, 0x2D, 0x21])) names next
      (0x2D :: 0x2D :: 0x3E :: more) =
      .event (.comment bytes) (next + 3) (Stream.scan (.text []) names (next + 3) more) := by
    have held : (0x2D :: 0x2D :: (bytes.reverse ++ [0x2D, 0x2D, 0x21])).reverse =
        0x21 :: 0x2D :: 0x2D :: (bytes ++ [0x2D, 0x2D]) := by simp
    rw [Stream.scan, comment_goes_on _ _ rfl]
    dsimp only
    rw [Stream.scan, comment_goes_on _ _ rfl]
    dsimp only
    rw [Stream.scan, Mode.step, endsComment_of_length (by simp), held, commentEvent_content]
    rfl
  refine ⟨next + 3, ?_⟩
  rw [← closes, ← scanned, List.append_assoc, List.append_assoc]
  rfl

/-- A character section does not hold its closing mark. -/
theorem spells_cdata {cs : List Char} (unclosed : ¬ [']', ']', '>'] <:+: cs) (names : List Bytes) :
    Spells names
      (Utf8.encode "![CDATA[" ++ (Utf8.encode (String.ofList cs) ++ Utf8.encode "]]>"))
      (.cdata (Utf8.encode (String.ofList cs))) names := by
  intro position more
  generalize content : Utf8.encode (String.ofList cs) = bytes
  rw [Utf8.encode_ofList] at content
  obtain ⟨next, scanned⟩ := @scan_held names (position + 8)
    [0x5B, 0x41, 0x54, 0x41, 0x44, 0x43, 0x5B, 0x21] (0x5D :: 0x5D :: 0x3E :: more) bytes .cdata
    endsCdata cdata_goes_on fun p rest h ↦ by
      refine Bool.eq_false_iff.2 fun ends ↦ unclosed ?_
      obtain ⟨before, after, rfl, rfl, -⟩ :=
        Utf8.flatMap_encodeChar_eq_append (by decide) (content.trans h)
      obtain ⟨q, split⟩ := eq_append_of_endsCdata ends
      obtain ⟨first, rfl, bracket⟩ := Utf8.flatMap_encodeChar_eq_concat (by decide)
        (show before.flatMap String.utf8EncodeChar = (q ++ [0x5D]) ++ [0x5D] by
          rw [List.append_assoc]
          exact split)
      obtain ⟨others, rfl, -⟩ := Utf8.flatMap_encodeChar_eq_concat (by decide) bracket
      exact ⟨others, after, by simp⟩
  have closes : Stream.scan
      (.cdata (bytes.reverse ++ [0x5B, 0x41, 0x54, 0x41, 0x44, 0x43, 0x5B, 0x21])) names next
      (0x5D :: 0x5D :: 0x3E :: more) =
      .event (.cdata bytes) (next + 3) (Stream.scan (.text []) names (next + 3) more) := by
    have held : (0x5D :: 0x5D ::
        (bytes.reverse ++ [0x5B, 0x41, 0x54, 0x41, 0x44, 0x43, 0x5B, 0x21])).reverse =
        Utf8.encode "![CDATA[" ++ (bytes ++ [0x5D, 0x5D]) := by
      simp
      rfl
    rw [Stream.scan, cdata_goes_on _ _ rfl]
    dsimp only
    rw [Stream.scan, cdata_goes_on _ _ rfl]
    dsimp only
    rw [Stream.scan, Mode.step, held, cdataEvent_content]
    rfl
  refine ⟨next + 3, ?_⟩
  rw [← closes, ← scanned, List.append_assoc, List.append_assoc]
  rfl

theorem spells_declaration (names : List Bytes) :
    Spells names (Utf8.encode "?xml version=\"1.0\" encoding=\"utf-8\"?>") .directive names :=
  fun position _ ↦ ⟨position + 37, rfl⟩

end

end Phrasebook.Markup
