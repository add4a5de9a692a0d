import Phrasebook.Proofs.Document.Reading

/-!
# Items as they are read

What a page holds is told to the reader: a page on a patient sink is read, behind a prologue, as sections
up to a stage. Comments, entries and the two ends of a section lead from one stage to the next, and an
entry is told with its text, however it is spelled.
-/

namespace Phrasebook.Document

open Phrasebook.Calendar Phrasebook.Markup Phrasebook.Text

/-- A page that takes everything, and whose text behind a prologue is read as the sections up to a
stage. -/
structure Told (prologue : Bytes) (page : Page) (sections : List Section) (stage : Stage) : Prop where
  patient : page.sink.patience = none
  spelled : ∃ body, Utf8.encode page.sink.text = prologue ++ body ∧ Reads .root body sections stage

section

variable {prologue : Bytes} {page : Page} {sections : List Section} {stage : Stage}

/-- An item that is read as one event takes the page where the event takes the reading. -/
theorem Told.put {after : Stage} {item : Item} {event : Event} {more : List Section}
    (told : Told prologue page sections stage)
    (reaches : ∀ position, (stage.step position event).reaches = some (more, after))
    (outside : Takes stage (page.leadBytes item) stage)
    (tells : item.Tells stage.names event after.names) :
    Told prologue (page.put item) (sections ++ more) after := by
  obtain ⟨patient, body, text, reads⟩ := told
  obtain ⟨bytes, bracketed, spells⟩ := tells
  have free : (0x3C : UInt8) ∉ page.leadBytes item := fun mem ↦
    absurd (Page.isSpace_of_mem_leadBytes mem) (by decide)
  refine ⟨Page.patience_put patient item, body ++ (page.leadBytes item ++ item.bytes), ?_, ?_⟩
  · rw [Page.encode_put patient, text, List.append_assoc]
  · rw [bracketed]
    exact reads.trans (.piece free outside spells reaches)

theorem Told.stay {after : Stage} {item : Item} {event : Event}
    (told : Told prologue page sections stage)
    (stays : ∀ position, stage.step position event = .stay after)
    (outside : Takes stage (page.leadBytes item) stage)
    (tells : item.Tells stage.names event after.names) :
    Told prologue (page.put item) sections after := by
  have reaches (position : Nat) : (stage.step position event).reaches = some ([], after) := by
    rw [stays]
    rfl
  have put := told.put reaches outside tells
  rwa [List.append_nil] at put

theorem takes_lead_root (item : Item) : Takes .root (page.leadBytes item) .root :=
  .blank (fun _ ↦ Page.isSpace_of_mem_leadBytes) nofun

theorem takes_lead_file (item : Item) (s : OpenSection) :
    Takes (.file s) (page.leadBytes item) (.file s) :=
  .blank (fun _ ↦ Page.isSpace_of_mem_leadBytes) nofun

theorem takes_lead_entry {item : Item} (inline : (item.ownLine && page.breaks) = false)
    (s : OpenSection) (e : OpenEntry) :
    Takes (.entry s e) (page.leadBytes item) (.entry s e) := by
  rw [Page.leadBytes_inline inline]
  exact .nothing _

/-! ## Comments -/

def commentItem (text : String) : Item :=
  .comment (String.ofList (' ' :: spaceHyphens text.toList ++ [' ']))

def commentRead (text : String) : String := trim (String.ofList (spaceHyphens text.toList))

theorem trim_surrounded (cs : List Char) :
    trim (String.ofList (' ' :: cs ++ [' '])) = trim (String.ofList cs) := by
  rw [trim, trim, String.toList_ofList, String.toList_ofList,
    trimChars_surrounded (by decide) (by decide)]

theorem commentItem_tells (text : String) (names : List Bytes) :
    (commentItem text).Tells names
      (.comment (Utf8.encode (String.ofList (' ' :: spaceHyphens text.toList ++ [' '])))) names :=
  Item.comment_tells names (not_hyphens_comment text.toList)

theorem Told.comment_root (told : Told prologue page sections .root) (text : String) :
    Told prologue (page.put (commentItem text)) sections .root :=
  told.stay (fun _ ↦ rfl) (takes_lead_root _) (commentItem_tells text _)

theorem Told.comment_file {s : OpenSection} (told : Told prologue page sections (.file s))
    (text : String) :
    Told prologue (page.put (commentItem text)) sections
      (.file { s with comment := some (commentRead text) }) := by
  have stays (position : Nat) : (Stage.file s).step position (.comment
      (Utf8.encode (String.ofList (' ' :: spaceHyphens text.toList ++ [' '])))) =
      .stay (.file { s with comment := some (commentRead text) }) := by
    rw [Stage.step, inFile, Utf8.decode_encode]
    dsimp only
    rw [trim_surrounded]
    rfl
  exact told.stay stays (takes_lead_file _ s) (commentItem_tells text _)

/-! ## Sections -/

theorem elementName_fileElement : ElementName fileElement := by decide

theorem Told.start {origin : Origin} (told : Told prologue page sections .root)
    (ordinary : origin.Ordinary) :
    Told prologue (page.put (.start fileElement origin.elementAttributes)) sections
      (.file { origin := origin.readBack }) := by
  have plain : ∀ pair ∈ origin.elementAttributes, PlainName pair.1 :=
    List.forall_mem_map.1 origin.plainNames_elementAttributes.1
  have stays (position : Nat) :
      Stage.root.step position (.start (writtenTag fileElement origin.elementAttributes)) =
        .stay (.file { origin := origin.readBack }) := by
    rw [Stage.step, inRoot, if_pos (name_writtenTag elementName_fileElement.1),
      origin_writtenTag ordinary]
    rfl
  exact told.stay stays (takes_lead_root _) (Item.start_tells _ elementName_fileElement plain)

theorem Told.close {s : OpenSection} (told : Told prologue page sections (.file s)) :
    Told prologue (page.put (.close fileElement)) (sections ++ [s.complete]) .root :=
  told.put (fun _ ↦ rfl) (takes_lead_file _ s) (Item.close_tells _ elementName_fileElement)

/-! ## Entries -/

theorem elementName_entry (kind : EntryKind) : ElementName kind.elementName := by
  cases kind
  all_goals decide

/-- An entry whose element was read and whose text was not. -/
def Entry.opening (entry : Entry) : OpenEntry :=
  { kind := entry.kind, key := entry.key, hash := some entry.hash, attributes := entry.attributes }

theorem Told.start_entry {s : OpenSection} {entry : Entry}
    (told : Told prologue page sections (.file s)) (spellable : entry.Spellable) :
    Told prologue (page.put (.start entry.kind.elementName entry.elementAttributes)) sections
      (.entry s entry.opening) := by
  have plain : ∀ pair ∈ entry.elementAttributes, PlainName pair.1 :=
    List.forall_mem_map.1 spellable.plainNames_elementAttributes.1
  have stays (position : Nat) :
      (Stage.file s).step position
        (.start (writtenTag entry.kind.elementName entry.elementAttributes)) =
        .stay (.entry s entry.opening) := by
    rw [Stage.step, inFile, entryStart_writtenTag spellable]
    rfl
  exact told.stay stays (takes_lead_file _ s)
    (Item.start_tells _ (elementName_entry entry.kind) plain)

theorem Told.empty_entry {s : OpenSection} {entry : Entry}
    (told : Told prologue page sections (.file s)) (spellable : entry.Spellable) :
    Told prologue (page.put (.empty entry.kind.elementName entry.elementAttributes)) sections
      (.file (s.add entry.opening)) := by
  have plain : ∀ pair ∈ entry.elementAttributes, PlainName pair.1 :=
    List.forall_mem_map.1 spellable.plainNames_elementAttributes.1
  have stays (position : Nat) :
      (Stage.file s).step position
        (.empty (writtenTag entry.kind.elementName entry.elementAttributes)) =
        .stay (.file (s.add entry.opening)) := by
    rw [Stage.step, inFile, entryStart_writtenTag spellable]
    rfl
  exact told.stay stays (takes_lead_file _ s)
    (Item.empty_tells _ (elementName_entry entry.kind) plain)

theorem Told.close_entry {s : OpenSection} {e : OpenEntry}
    (told : Told prologue page sections (.entry s e)) (inline : page.breaks = false) :
    Told prologue (page.put (.close e.kind.elementName)) sections (.file (s.add e)) := by
  have stays (position : Nat) : (Stage.entry s e).step position
      (.close (Utf8.encode e.kind.elementName)) = .stay (.file (s.add e)) := rfl
  exact told.stay stays (takes_lead_entry (by rw [inline, Bool.and_false]) s e)
    (Item.close_tells _ (elementName_entry e.kind))

/-- A text and the end of its entry are read together, since the text ends where the end begins. -/
theorem Told.text_close {s : OpenSection} {e : OpenEntry}
    (told : Told prologue page sections (.entry s e)) (text : String) :
    Told prologue ((page.put (.text text)).put (.close e.kind.elementName)) sections
      (.file (s.add { e with text := e.text ++ text })) := by
  obtain ⟨patient, body, spelled, reads⟩ := told
  have patient_text := Page.patience_put patient (.text text)
  obtain ⟨bytes, bracketed, spells⟩ := Item.close_tells
    [Utf8.encode fileElement, Utf8.encode rootElement] (elementName_entry e.kind)
  have inline : page.leadBytes (.text text) = [] := Page.leadBytes_inline rfl
  have inline_close : (page.put (.text text)).leadBytes (.close e.kind.elementName) = [] :=
    Page.leadBytes_inline rfl
  have text_bytes : (Item.text text).bytes = Utf8.encode (escape text) := by
    rw [Item.bytes, Item.pieces, String.join_cons]
    exact congrArg Utf8.encode String.append_empty
  have piece : Reads (.entry s e) (Utf8.encode (escape text) ++ 0x3C :: bytes) []
      (.file (s.add { e with text := e.text ++ text })) :=
    .piece (not_mem_encode_escape text (by decide)) (.spelled s e text) spells fun _ ↦ rfl
  refine ⟨Page.patience_put patient_text _, body ++ (Utf8.encode (escape text) ++ 0x3C :: bytes),
    ?_, ?_⟩
  · rw [Page.encode_put patient_text, Page.encode_put patient, spelled, inline, inline_close,
      text_bytes, bracketed]
    simp
  · have whole := reads.trans piece
    rwa [List.append_nil] at whole

theorem Told.cdata {s : OpenSection} {e : OpenEntry} {part : String}
    (told : Told prologue page sections (.entry s e))
    (unclosed : ¬ [']', ']', '>'] <:+: part.toList) :
    Told prologue (page.put (.cdata part)) sections
      (.entry s { e with text := e.text ++ part }) := by
  have stays (position : Nat) : (Stage.entry s e).step position (.cdata (Utf8.encode part)) =
      .stay (.entry s { e with text := e.text ++ part }) := by
    rw [Stage.step, inEntry, Utf8.decode_encode]
  exact told.stay stays (takes_lead_entry rfl s e) (Item.cdata_tells _ unclosed)

/-- The parts of a text are read back as the text. -/
theorem Told.cdatas {s : OpenSection} {e : OpenEntry} {parts : List String}
    (told : Told prologue page sections (.entry s e))
    (unclosed : ∀ part ∈ parts, ¬ [']', ']', '>'] <:+: part.toList) :
    Told prologue (page.putAll (parts.map .cdata)) sections
      (.entry s { e with text := e.text ++ String.join parts }) := by
  induction parts generalizing page e with
  | nil =>
    have whole : e.text ++ String.join [] = e.text := String.append_empty
    rw [whole]
    exact told
  | cons part parts ih =>
    have first := told.cdata (unclosed part List.mem_cons_self)
    have others := ih first fun other h ↦ unclosed other (List.mem_cons_of_mem _ h)
    rw [String.append_assoc, ← String.join_cons] at others
    exact others

theorem Page.breaks_cdatas {parts : List String} (some_part : parts ≠ []) (page : Page) :
    (page.putAll (parts.map .cdata)).breaks = false := by
  obtain ⟨others, part, rfl⟩ := (List.eq_nil_or_concat parts).resolve_left some_part
  rw [List.concat_eq_append, List.map_append, Page.putAll, List.foldl_append]
  rfl

/-- An entry is told with its text, however it is spelled. -/
theorem Told.entry {s : OpenSection} {entry : Entry}
    (told : Told prologue page sections (.file s)) (spellable : entry.Spellable) :
    Told prologue (page.putAll entry.items) sections
      (.file (s.add { entry.opening with text := entry.text })) := by
  rw [Entry.items]
  dsimp only
  split
  · next empty =>
    have same : { entry.opening with text := entry.text } = entry.opening := by
      rw [String.isEmpty_iff.1 empty]
      rfl
    rw [same]
    exact told.empty_entry spellable
  · have opened := told.start_entry spellable
    split
    · obtain ⟨unclosed, joined⟩ := cdataParts_spec entry.text
      have filled := opened.cdatas unclosed
      have text : entry.opening.text ++ String.join (cdataParts entry.text) = entry.text := by
        rw [joined]
        exact String.empty_append
      rw [text] at filled
      have closed := filled.close_entry (Page.breaks_cdatas (cdataParts_ne_nil entry.text) _)
      rw [Page.putAll, List.foldl_append, List.foldl_cons]
      exact closed
    · have closed := opened.text_close entry.text
      have text : entry.opening.text ++ entry.text = entry.text := String.empty_append
      rwa [text] at closed

def Entry.readBack (entry : Entry) : Entry :=
  { entry with comment := entry.comment.map commentRead }

/-- The items of an entry with its comment. -/
def Entry.spelling (entry : Entry) : List Item :=
  (entry.comment.map commentItem).toList ++ entry.items

/-- An entry that is written with its comment is read back with it. -/
theorem Told.spelling {origin : Origin} {entries : List Entry} {entry : Entry}
    (told : Told prologue page sections (.file { origin := origin, entries := entries }))
    (spellable : entry.Spellable) :
    Told prologue (page.putAll entry.spelling) sections
      (.file { origin := origin, entries := entry.readBack :: entries }) := by
  rw [Entry.spelling]
  cases comment : entry.comment with
  | none =>
    have read := told.entry spellable
    have same : entry.readBack = { entry with comment := none } := by
      rw [Entry.readBack, comment]
      rfl
    rw [same]
    exact read
  | some text =>
    have read := (told.comment_file text).entry spellable
    have same : entry.readBack = { entry with comment := some (commentRead text) } := by
      rw [Entry.readBack, comment]
      rfl
    rw [same]
    exact read

theorem Told.spellings {origin : Origin} {entries added : List Entry}
    (told : Told prologue page sections (.file { origin := origin, entries := entries }))
    (spellable : ∀ entry ∈ added, entry.Spellable) :
    Told prologue (page.putAll (added.flatMap Entry.spelling)) sections
      (.file { origin := origin, entries := (added.map Entry.readBack).reverse ++ entries }) := by
  induction added generalizing page entries with
  | nil => exact told
  | cons entry added ih =>
    have first := told.spelling (spellable entry List.mem_cons_self)
    have others := ih first fun other h ↦ spellable other (List.mem_cons_of_mem _ h)
    rw [List.flatMap_cons, Page.putAll, List.foldl_append, List.map_cons, List.reverse_cons,
      List.append_assoc]
    exact others

end

end Phrasebook.Document
