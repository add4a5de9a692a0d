import Phrasebook.Proofs.Document.Uniqueness

/-!
# Comments stay comments

The hyphens of a comment are spaced in rounds: as long as two of them stand side by side, every two that
do are parted, from left to right and without overlap. A run of hyphens takes more than one round, but
each round leaves fewer pairs, so the rounds end. What they end with is written between the marks of a
comment and read back as one comment, whatever the text was.
-/

namespace Phrasebook.Document

open Phrasebook.Calendar Phrasebook.Markup Phrasebook.Text

/-! ## Rounds -/

/-- One round. A hyphen that was parted from the one in front of it is not parted from the next. -/
def partPairs : List Char → List Char
  | '-' :: '-' :: rest => '-' :: ' ' :: '-' :: partPairs rest
  | c :: rest => c :: partPairs rest
  | [] => []

/-- How often two hyphens stand side by side. -/
def hyphenPairs : List Char → Nat
  | [] => 0
  | c :: rest => (if c = '-' ∧ rest.head? = some '-' then 1 else 0) + hyphenPairs rest

/-- Rounds that go on as long as two hyphens stand side by side: their number, and what they lead
to. -/
inductive Rounds : Nat → List Char → List Char → Prop
  | done {cs : List Char} (apart : ¬ ['-', '-'] <:+: cs) : Rounds 0 cs cs
  | again {rounds : Nat} {cs ds : List Char} (pair : ['-', '-'] <:+: cs)
    (further : Rounds rounds (partPairs cs) ds) : Rounds (rounds + 1) cs ds

theorem head_partPairs (cs : List Char) : (partPairs cs).head? = cs.head? := by
  cases cs using partPairs.fun_cases with
  | case1 rest => rfl
  | case2 c rest other =>
    rw [partPairs]
    · rfl
    · exact other
  | case3 => rfl

theorem spaceHyphens_cons_congr {cs ds : List Char} (first : ds.head? = cs.head?)
    (same : spaceHyphens ds = spaceHyphens cs) (c : Char) :
    spaceHyphens (c :: ds) = spaceHyphens (c :: cs) := by
  rw [spaceHyphens, spaceHyphens, first, same]

/-- A round does not change what the hyphens are spaced to. -/
theorem spaceHyphens_partPairs (cs : List Char) : spaceHyphens (partPairs cs) = spaceHyphens cs := by
  induction cs using partPairs.induct with
  | case1 rest ih =>
    have last := spaceHyphens_cons_congr (head_partPairs rest) ih '-'
    have parted : spaceHyphens ('-' :: ' ' :: '-' :: partPairs rest) =
        '-' :: ' ' :: spaceHyphens ('-' :: partPairs rest) := rfl
    rw [partPairs, parted, last]
    rfl
  | case2 c rest other ih =>
    rw [partPairs]
    · exact spaceHyphens_cons_congr (head_partPairs rest) ih c
    · exact other
  | case3 => rfl

/-! The measure of the rounds. -/

theorem hyphenPairs_cons_le {cs ds : List Char} (first : ds.head? = cs.head?)
    (fewer : hyphenPairs ds ≤ hyphenPairs cs) (c : Char) :
    hyphenPairs (c :: ds) ≤ hyphenPairs (c :: cs) := by
  rw [hyphenPairs, hyphenPairs, first]
  exact Nat.add_le_add_left fewer _

/-- A round makes no new pairs of hyphens. -/
theorem hyphenPairs_partPairs_le (cs : List Char) : hyphenPairs (partPairs cs) ≤ hyphenPairs cs := by
  induction cs using partPairs.induct with
  | case1 rest ih =>
    have last := hyphenPairs_cons_le (head_partPairs rest) ih '-'
    have parted : hyphenPairs ('-' :: ' ' :: '-' :: partPairs rest) =
        hyphenPairs ('-' :: partPairs rest) := by simp [hyphenPairs]
    have pair : hyphenPairs ('-' :: '-' :: rest) = 1 + hyphenPairs ('-' :: rest) := rfl
    rw [partPairs, parted, pair]
    omega
  | case2 c rest other ih =>
    rw [partPairs]
    · exact hyphenPairs_cons_le (head_partPairs rest) ih c
    · exact other
  | case3 => exact Nat.le_refl 0

/-- A round leaves fewer pairs of hyphens, if there are any. -/
theorem hyphenPairs_partPairs_lt {cs : List Char} (pair : ['-', '-'] <:+: cs) :
    hyphenPairs (partPairs cs) < hyphenPairs cs := by
  induction cs using partPairs.induct with
  | case1 rest ih =>
    have last := hyphenPairs_cons_le (head_partPairs rest) (hyphenPairs_partPairs_le rest) '-'
    have parted : hyphenPairs ('-' :: ' ' :: '-' :: partPairs rest) =
        hyphenPairs ('-' :: partPairs rest) := by simp [hyphenPairs]
    have pair : hyphenPairs ('-' :: '-' :: rest) = 1 + hyphenPairs ('-' :: rest) := rfl
    rw [partPairs, parted, pair]
    omega
  | case2 c rest other ih =>
    have inside : ['-', '-'] <:+: rest := by
      rcases List.infix_cons_iff.1 pair with ⟨more, split⟩ | inside
      · obtain ⟨rfl, rfl⟩ := List.cons.inj split
        exact absurd rfl (other more rfl)
      · exact inside
    have fewer := ih inside
    rw [partPairs]
    · rw [hyphenPairs, hyphenPairs, head_partPairs]
      exact Nat.add_lt_add_left fewer _
    · exact other
  | case3 => simp at pair

/-- The rounds end, after no more of them than there are pairs, with the hyphens spaced. -/
theorem exists_rounds (cs : List Char) :
    ∃ rounds ≤ hyphenPairs cs, Rounds rounds cs (spaceHyphens cs) := by
  induction pairs : hyphenPairs cs using Nat.strongRecOn generalizing cs with
  | ind n ih =>
    by_cases pair : ['-', '-'] <:+: cs
    · have fewer := hyphenPairs_partPairs_lt pair
      rw [pairs] at fewer
      obtain ⟨rounds, bound, further⟩ := ih _ fewer (partPairs cs) rfl
      rw [spaceHyphens_partPairs] at further
      exact ⟨rounds + 1, by omega, .again pair further⟩
    · refine ⟨0, Nat.zero_le _, ?_⟩
      rw [spaceHyphens_of_not_hyphens pair]
      exact .done pair

theorem Rounds.eq_spaceHyphens {rounds : Nat} {cs ds : List Char} (h : Rounds rounds cs ds) :
    ds = spaceHyphens cs := by
  induction h with
  | done apart => exact (spaceHyphens_of_not_hyphens apart).symm
  | again pair further ih => rw [ih, spaceHyphens_partPairs]

/-! ## What is inserted -/

/-- A text differs from another only by single spaces between hyphens that stand side by side there. -/
inductive SpacedFrom : List Char → List Char → Prop
  | nil : SpacedFrom [] []
  | keep (c : Char) {cs ds : List Char} (h : SpacedFrom cs ds) : SpacedFrom (c :: cs) (c :: ds)
  | space {cs ds : List Char} (h : SpacedFrom ('-' :: cs) ds) :
    SpacedFrom ('-' :: '-' :: cs) ('-' :: ' ' :: ds)

/-- Spacing hyphens puts single spaces between them and does nothing else. -/
theorem spacedFrom_spaceHyphens (cs : List Char) : SpacedFrom cs (spaceHyphens cs) := by
  induction cs with
  | nil => exact .nil
  | cons c cs ih =>
    rw [spaceHyphens]
    split
    · next both =>
      obtain ⟨hyphen, next⟩ := Bool.and_eq_true_iff.1 both
      obtain ⟨rest, rfl⟩ := List.head?_eq_some_iff.1 (of_decide_eq_true next)
      rw [of_decide_eq_true hyphen]
      exact .space ih
    · exact .keep c ih

/-- There is one way to leave no two hyphens side by side. -/
theorem SpacedFrom.eq_spaceHyphens {cs ds : List Char} (spaced : SpacedFrom cs ds)
    (apart : ¬ ['-', '-'] <:+: ds) : ds = spaceHyphens cs := by
  induction spaced with
  | nil => rfl
  | @keep c cs ds spaced ih =>
    obtain rfl := ih fun both ↦ apart (List.infix_cons both)
    have single : ¬ (c = '-' && cs.head? = some '-') = true := by
      intro both
      simp only [Bool.and_eq_true, decide_eq_true_eq] at both
      obtain ⟨rfl, next⟩ := both
      rw [← head_spaceHyphens] at next
      obtain ⟨rest, split⟩ := List.head?_eq_some_iff.1 next
      exact apart ⟨[], rest, by rw [split]; rfl⟩
    rw [spaceHyphens, if_neg single]
  | space spaced ih =>
    rw [ih fun both ↦ apart (List.infix_cons (List.infix_cons both))]
    rfl

theorem spacedFrom_and_apart_iff (cs ds : List Char) :
    SpacedFrom cs ds ∧ ¬ ['-', '-'] <:+: ds ↔ ds = spaceHyphens cs := by
  constructor
  · rintro ⟨spaced, apart⟩
    exact spaced.eq_spaceHyphens apart
  · rintro rfl
    exact ⟨spacedFrom_spaceHyphens cs, not_hyphens_spaceHyphens cs⟩

/-! ## What is written -/

def commentContent (text : String) : String :=
  String.ofList (' ' :: spaceHyphens text.toList ++ [' '])

/-- Bytes are white space and then the comment of a text, and the reader sees nothing else in them:
wherever they stand between pieces of markup, the white space belongs to the text in front of the
comment, and what follows them is read as it would be anywhere else. -/
def ReadAsComment (text : String) (bytes : Bytes) : Prop :=
  ∃ lead, (∀ byte ∈ lead, isSpace byte = true) ∧
    bytes = lead ++ Utf8.encode ("<!--" ++ commentContent text ++ "-->") ∧
    ∀ held names position more, ∃ before behind,
      Stream.scan (.text held) names position (bytes ++ more) =
        .textOnto (held.reverse ++ lead) before
          (.event (.comment (Utf8.encode (commentContent text))) behind
            (Stream.scan (.text []) names behind more))

theorem bytes_commentItem (text : String) :
    (commentItem text).bytes = Utf8.encode ("<!--" ++ commentContent text ++ "-->") := by
  rw [Item.bytes, commentItem, Item.pieces, Item.encode_join_three, Utf8.encode_append,
    Utf8.encode_append, List.append_assoc]
  rfl

theorem encode_line (page : Page) (item : Item) :
    Utf8.encode (page.line item) = page.leadBytes item ++ item.bytes := by
  rw [Page.line, Page.leadBytes, Item.bytes, ← Utf8.encode_append, String.join_append]

/-- A comment on a line of its own is read as the comment of its text. -/
theorem readAsComment_line (page : Page) (text : String) :
    ReadAsComment text (Utf8.encode (page.line (commentItem text))) := by
  refine ⟨page.leadBytes (commentItem text), fun _ ↦ Page.isSpace_of_mem_leadBytes, ?_, ?_⟩
  · rw [encode_line, bytes_commentItem]
  · intro held names position more
    obtain ⟨bytes, bracketed, spells⟩ := commentItem_tells text names
    have free : (0x3C : UInt8) ∉ page.leadBytes (commentItem text) := fun mem ↦
      absurd (Page.isSpace_of_mem_leadBytes mem) (by decide)
    obtain ⟨before, scanned⟩ := scan_text free held names position (bytes ++ more)
    obtain ⟨behind, spelled⟩ := spells (before + 1) more
    refine ⟨before, behind, ?_⟩
    rw [encode_line, bracketed, List.append_assoc, List.cons_append, scanned, spelled]
    rfl

/-- The content of a comment, trimmed, is its text with the hyphens spaced, trimmed. -/
theorem trim_commentContent (text : String) : trim (commentContent text) = trim (spaced text) :=
  trim_surrounded _

/-- In a section, a comment is kept for the next entry. -/
theorem step_comment_file (s : OpenSection) (position : Nat) (text : String) :
    (Stage.file s).step position (.comment (Utf8.encode (commentContent text))) =
      .stay (.file { s with comment := some (trim (spaced text)) }) := by
  rw [Stage.step, inFile, Utf8.decode_encode]
  dsimp only
  rw [trim_commentContent]

/-! ## Where comments come from -/

/-- The text that a portion of the output has in a comment: the names of files around sections, and
comments of entries or on their own. -/
def Portion.remark? : Portion → Option String
  | opening origin => some ("Start of file " ++ fileName origin.path)
  | content entry => entry.comment
  | closing origin => some ("End of file " ++ fileName origin.path)
  | remark text => some text

theorem comment_not_mem_items (entry : Entry) (s : String) : Item.comment s ∉ entry.items := by
  rw [Entry.items]
  split
  · simp
  · split
    · simp
    · simp

/-- The comments of a portion are those of its remark. -/
theorem Portion.comment_mem_items_iff (portion : Portion) (s : String) :
    Item.comment s ∈ portion.items ↔
      ∃ text, portion.remark? = some text ∧ s = commentContent text := by
  have same (text : String) : Item.comment s = commentItem text ↔ s = commentContent text :=
    Item.comment.injEq _ _ ▸ Iff.rfl
  cases portion with
  | opening origin | closing origin | remark text => simp [items, remark?, same]
  | content entry =>
    rw [items, Entry.spelling, List.mem_append, or_iff_left (comment_not_mem_items entry s), remark?]
    cases entry.comment with
    | none => simp
    | some text => simp [same]

section

variable {page : Page} (patient : page.sink.patience = none)

include patient

theorem encode_putAll (items : List Item) :
    Utf8.encode (page.putAll items).sink.text =
      Utf8.encode page.sink.text ++ Utf8.encode (page.lines items) := by
  induction items generalizing page with
  | nil => exact (List.append_nil _).symm
  | cons item items ih =>
    rw [Page.putAll_cons, ih (Page.patience_put patient item), Page.encode_put patient, ← encode_line,
      Page.lines, Utf8.encode_append, List.append_assoc]

/-- A comment among the items of a page stands in its text as one. -/
theorem exists_readAsComment {items : List Item} {text : String} (h : commentItem text ∈ items) :
    ∃ front bytes back, Utf8.encode (page.putAll items).sink.text = front ++ (bytes ++ back) ∧
      ReadAsComment text bytes := by
  obtain ⟨before, behind, rfl⟩ := List.append_of_mem h
  have patient_before := Page.patience_putAll patient before
  refine ⟨Utf8.encode (page.putAll before).sink.text,
    Utf8.encode ((page.putAll before).line (commentItem text)),
    Utf8.encode (((page.putAll before).put (commentItem text)).lines behind), ?_,
    readAsComment_line (page.putAll before) text⟩
  rw [Page.putAll_append, encode_putAll patient_before, Page.lines, Utf8.encode_append]

end

/-! ## Comments of a document -/

/-- A comment that a draft could write is in its text as one. -/
theorem readAsComment_of_run {draft after : Draft} {text : String}
    (ran : (Draft.comment text).run draft = (.ok (), after)) :
    ∃ bytes, Utf8.encode after.text = Utf8.encode draft.text ++ bytes ∧ ReadAsComment text bytes := by
  have writes := draft.writes_comment text
  rw [ran] at writes
  cases writes with
  | full outcome =>
    refine ⟨_, ?_, readAsComment_line draft.page text⟩
    rw [← Utf8.encode_append]
    exact congrArg Utf8.encode outcome.text_eq

/-- A new draft has written nothing but its title. -/
theorem registers_start {sink : Sink} (patient : sink.patience = none) (locale : String)
    (generated : Instant) :
    Registers (Draft.start sink locale generated).2.page (Draft.start sink locale generated).2 {} := by
  rw [Draft.start_eq patient locale generated]
  exact ⟨patience_titlePage patient generated locale, rfl, rfl, .empty _, .empty _, fun _ ↦ rfl,
    .nothing⟩

/-- A comment of a document stands in it as one. -/
theorem exists_readAsComment_of_finish {sink : Sink} (patient : sink.patience = none)
    (locale : String) (generated : Instant) (calls : List Call) :
    let begun := (Draft.start sink locale generated).2
    let portions := (({} : Register).recordAll calls).close.portions
    ∃ finished, Draft.finish.run (begun.performAll calls).2 = (.ok (), finished) ∧
      finished.page = Page.ended (begun.page.putAll (portions.flatMap Portion.items)) ∧
      ∀ portion ∈ portions, ∀ text, portion.remark? = some text →
        ∃ front bytes back, Utf8.encode finished.text = front ++ (bytes ++ back) ∧
          ReadAsComment text bytes := by
  intro begun portions
  have first := registers_start patient locale generated
  obtain ⟨called, performed, registers⟩ := first.performAll calls
  obtain ⟨finished, finishes, page⟩ := registers.finish
  have behind : (begun.performAll calls).2 = called := congrArg Prod.snd performed
  refine ⟨finished, by rw [behind, finishes], page, fun portion mem text remark ↦ ?_⟩
  let items := portions.flatMap Portion.items ++ [Item.close rootElement]
  have among : commentItem text ∈ items := by
    have own := (portion.comment_mem_items_iff _).2 ⟨text, remark, rfl⟩
    exact List.mem_append_left _ (List.mem_flatMap.2 ⟨portion, mem, own⟩)
  obtain ⟨front, bytes, back, spelled, read⟩ := exists_readAsComment first.patient among
  refine ⟨front, bytes, back ++ Utf8.encode "\n", ?_, read⟩
  rw [Page.putAll_append] at spelled
  rw [Draft.text, page, Page.encode_ended, ← List.append_assoc bytes, ← List.append_assoc front,
    ← spelled]
  rfl

/-- Comments never break out. The rounds of spacing end, and what they end with is the one text that
differs by single spaces between adjacent hyphens and has none that stand side by side, so that more
rounds change nothing. What is written for a comment is read back as one comment, which is the spaced
text when it is trimmed; so is every comment of a document, whether it is an entry's, stands around a
section with the name of its file, or stands on its own, and a document has no others. -/
theorem comments_never_break_out (text : String) :
    (∃ rounds ≤ hyphenPairs text.toList, Rounds rounds text.toList (spaced text).toList) ∧
      (∀ rounds cs, Rounds rounds text.toList cs → cs = (spaced text).toList) ∧
      (∀ cs, SpacedFrom text.toList cs ∧ ¬ ['-', '-'] <:+: cs ↔ cs = (spaced text).toList) ∧
      Rounds 0 (spaced text).toList (spaced text).toList ∧
      spaced (spaced text) = spaced text ∧
      trim (commentContent text) = trim (spaced text) ∧
      (∀ draft after, (Draft.comment text).run draft = (.ok (), after) →
        ∃ bytes, Utf8.encode after.text = Utf8.encode draft.text ++ bytes ∧
          ReadAsComment text bytes) ∧
      (∀ s position, (Stage.file s).step position (.comment (Utf8.encode (commentContent text))) =
        .stay (.file { s with comment := some (trim (spaced text)) })) ∧
      (∀ (portion : Portion) content, Item.comment content ∈ portion.items ↔
        ∃ remark, portion.remark? = some remark ∧ content = commentContent remark) ∧
      ∀ sink : Sink, sink.patience = none → ∀ locale generated calls,
        let begun := (Draft.start sink locale generated).2
        let portions := (({} : Register).recordAll calls).close.portions
        ∃ finished, Draft.finish.run (begun.performAll calls).2 = (.ok (), finished) ∧
          finished.page = Page.ended (begun.page.putAll (portions.flatMap Portion.items)) ∧
          ∀ portion ∈ portions, portion.remark? = some text →
            ∃ front bytes back, Utf8.encode finished.text = front ++ (bytes ++ back) ∧
              ReadAsComment text bytes := by
  rw [toList_spaced]
  refine ⟨exists_rounds text.toList, fun _ _ ↦ Rounds.eq_spaceHyphens,
    spacedFrom_and_apart_iff text.toList, .done (not_hyphens_spaceHyphens _), spaced_spaced text,
    trim_commentContent text, fun _ _ ↦ readAsComment_of_run,
    fun s position ↦ step_comment_file s position text, Portion.comment_mem_items_iff, ?_⟩
  intro sink patient locale generated calls
  obtain ⟨finished, finishes, page, comments⟩ :=
    exists_readAsComment_of_finish patient locale generated calls
  exact ⟨finished, finishes, page, fun portion mem ↦ comments portion mem text⟩

/-- A comment of an entry that holds a run of hyphens and the mark that ends comments. -/
theorem comments_never_break_out_menu :
    let text := "shown --- first -->"
    let entry : Entry :=
      { kind := .literal, key := "open", text := "Open", hash := "1", comment := some text }
    let calls : List Call := [.startFile ⟨"src/menu.rs", none, none⟩, .deferEntry entry]
    let begun := (Draft.start {} "en" ⟨19844, 43200, 0⟩).2
    spaced text = "shown - - - first - ->" ∧
      Portion.content entry ∈ (({} : Register).recordAll calls).close.portions ∧
      ∃ finished front bytes back,
        Draft.finish.run (begun.performAll calls).2 = (.ok (), finished) ∧
        Utf8.encode finished.text = front ++ (bytes ++ back) ∧ ReadAsComment text bytes := by
  intro text entry calls begun
  have hyphens : spaced text = "shown - - - first - ->" := by decide +kernel
  have member : Portion.content entry ∈ (({} : Register).recordAll calls).close.portions := by
    decide +kernel
  obtain ⟨-, -, -, -, -, -, -, -, -, documents⟩ := comments_never_break_out text
  obtain ⟨finished, finishes, -, comments⟩ := documents {} rfl "en" ⟨19844, 43200, 0⟩ calls
  obtain ⟨front, bytes, back, spelled, read⟩ := comments _ member rfl
  exact ⟨hyphens, member, finished, front, bytes, back, finishes, spelled, read⟩

end Phrasebook.Document
