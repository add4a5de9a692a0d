import Phrasebook.Document.Draft
import Phrasebook.Document.Reading
import Phrasebook.Proofs.Calendar.Instant
import Phrasebook.Proofs.Document.Spelling
import Phrasebook.Proofs.Markup.Page
import Phrasebook.Proofs.Steps

/-!
# Reading what was written

Bytes take the reading from one stage to another and complete sections on the way. One piece of markup
does so together with the text in front of it, which is blank between elements and is a part of the
entry within one. The attributes of an element are read back as the data that they were made from.
-/

namespace Phrasebook.Document

open Phrasebook.Calendar Phrasebook.Markup Phrasebook.Text

/-- The elements that are open at a stage, the innermost first. -/
def Stage.names : Stage → List Bytes
  | root => [Utf8.encode rootElement]
  | file _ => [Utf8.encode fileElement, Utf8.encode rootElement]
  | entry _ e =>
    [Utf8.encode e.kind.elementName, Utf8.encode fileElement, Utf8.encode rootElement]

/-- The bytes lead from one stage to another and complete the sections, whatever follows them. -/
def Reads (before : Stage) (bytes : Bytes) (sections : List Section) (after : Stage) : Prop :=
  ∀ position more, ∃ next,
    (Sections.ofStream before (.scan (.text []) before.names position (bytes ++ more))).all =
      (Sections.ofStream after (.scan (.text []) after.names next more)).all.map (sections ++ ·)

theorem Reads.refl (stage : Stage) : Reads stage [] [] stage := by
  intro position more
  refine ⟨position, ?_⟩
  rw [List.nil_append]
  cases (Sections.ofStream stage (.scan (.text []) stage.names position more)).all with
  | ok sections => rfl
  | error fault => rfl

theorem Reads.trans {before middle after : Stage} {first second : Bytes}
    {sections others : List Section} (reads : Reads before first sections middle)
    (further : Reads middle second others after) :
    Reads before (first ++ second) (sections ++ others) after := by
  intro position more
  obtain ⟨between, start⟩ := reads position (second ++ more)
  obtain ⟨next, rest⟩ := further between more
  refine ⟨next, ?_⟩
  rw [List.append_assoc, start, rest]
  cases (Sections.ofStream after (.scan (.text []) after.names next more)).all with
  | ok found => exact congrArg Except.ok (List.append_assoc _ _ _).symm
  | error fault => rfl

/-! ## Opening -/

/-- Events that say nothing: comments, directives and ASCII white space. -/
inductive Ignorable : Event → Prop
  | comment (bytes : Bytes) : Ignorable (.comment bytes)
  | directive : Ignorable .directive
  | blank {bytes : Bytes} (h : bytes.all isBlankByte = true) : Ignorable (.text bytes)

/-- How an event leads into a document: it says nothing in front of the root element, it begins that
element, or it is the whole of it. -/
inductive Enters (position : Nat) (rest : Stream) : Event → Opened → Prop
  | ignore {event : Event} {opened : Opened} (h : Ignorable event) (later : ofStream rest = .ok opened) :
    Enters position rest event opened
  | root {tag : Tag} {found : Header} (name : tag.name = Utf8.encode rootElement)
    (read : header ⟨position, none⟩ tag = .ok found) :
    Enters position rest (.start tag) ⟨found, position, .ofStream .root rest⟩
  | emptyRoot {tag : Tag} {found : Header} (name : tag.name = Utf8.encode rootElement)
    (read : header ⟨position, none⟩ tag = .ok found) :
    Enters position rest (.empty tag) ⟨found, position, .done position⟩

theorem ofStream_event_eq_ok_iff {event : Event} {position : Nat} {rest : Stream} {opened : Opened} :
    ofStream (.event event position rest) = .ok opened ↔ Enters position rest event opened := by
  constructor
  · intro opens
    cases event with
    | start tag =>
      rw [ofStream] at opens
      split at opens
      · next name =>
        obtain ⟨found, read, rfl⟩ := exists_of_map_eq_ok opens
        exact .root name read
      · cases opens
    | empty tag =>
      rw [ofStream] at opens
      split at opens
      · next name =>
        obtain ⟨found, read, rfl⟩ := exists_of_map_eq_ok opens
        exact .emptyRoot name read
      · cases opens
    | text text =>
      rw [ofStream] at opens
      split at opens
      · next blank => exact .ignore (.blank blank) opens
      · cases opens
    | comment text => exact .ignore (.comment text) opens
    | directive => exact .ignore .directive opens
    | close name | cdata text => cases opens
  · rintro (⟨ignorable, later⟩ | ⟨name, read⟩ | ⟨name, read⟩)
    · cases ignorable with
      | comment bytes | directive => exact later
      | blank blank => rw [ofStream, if_pos blank, later]
    · rw [ofStream, if_pos name, read]
      rfl
    · rw [ofStream, if_pos name, read]
      rfl

/-! ## One piece of markup -/

/-- The sections that an event completes and the stage behind it, if reading goes on. -/
def Advance.reaches : Advance → Option (List Section × Stage)
  | stay stage => some ([], stage)
  | complete content _ => some ([content], .root)
  | finish => none
  | fail _ => none

/-- The sections of a stream are those that its first event completes and those of the rest. -/
theorem Sections.all_event {stage after : Stage} {event : Event} {position : Nat}
    {sections : List Section}
    (reaches : (stage.step position event).reaches = some (sections, after)) (rest : Stream) :
    (Sections.ofStream stage (.event event position rest)).all =
      (Sections.ofStream after rest).all.map (sections ++ ·) := by
  rw [Sections.ofStream]
  cases advance : stage.step position event with
  | stay next =>
    rw [advance] at reaches
    obtain ⟨rfl, rfl⟩ := Prod.mk.inj (Option.some.inj reaches)
    dsimp only
    cases (Sections.ofStream next rest).all with
    | ok found => rfl
    | error fault => rfl
  | complete content spelled =>
    rw [advance] at reaches
    obtain ⟨rfl, rfl⟩ := Prod.mk.inj (Option.some.inj reaches)
    rfl
  | finish =>
    rw [advance] at reaches
    cases reaches
  | fail fault =>
    rw [advance] at reaches
    cases reaches

/-- A text takes the reading from one stage to another when the next piece of markup begins. -/
def Takes (before : Stage) (text : Bytes) (middle : Stage) : Prop :=
  ∀ position rest,
    Sections.ofStream before (.textOnto text position rest) = Sections.ofStream middle rest

theorem Takes.nothing (stage : Stage) : Takes stage [] stage := fun _ _ ↦ rfl

/-- Blank text between elements changes nothing. -/
theorem Takes.blank {stage : Stage} {text : Bytes} (blank : ∀ byte ∈ text, isSpace byte = true)
    (between : ∀ s e, stage ≠ .entry s e) : Takes stage text stage := by
  intro position rest
  have every : text.all isBlankByte = true := by
    refine List.all_eq_true.2 fun byte h ↦ ?_
    rw [isBlankByte, blank byte h, Bool.true_or]
  rw [Stream.textOnto]
  split
  · rfl
  · cases stage with
    | root => rw [Sections.ofStream, Stage.step, inRoot, betweenElements, if_pos every]
    | file s => rw [Sections.ofStream, Stage.step, inFile, betweenElements, if_pos every]
    | entry s e => exact absurd rfl (between s e)

/-- A text within an entry is a part of its text. -/
theorem Takes.spelled (s : OpenSection) (e : OpenEntry) (text : String) :
    Takes (.entry s e) (Utf8.encode (escape text)) (.entry s { e with text := e.text ++ text }) := by
  intro position rest
  have resolved := resolveBytes_escape text
  rw [Stream.textOnto]
  split
  · next none =>
    rw [List.isEmpty_iff.1 none] at resolved
    rw [← (show "" = text from Except.ok.inj resolved), String.append_empty]
  · rw [Sections.ofStream, Stage.step, inEntry, resolved]

theorem Reads.piece {before middle after : Stage} {text bytes : Bytes} {event : Event}
    {sections : List Section} (free : (0x3C : UInt8) ∉ text) (takes : Takes before text middle)
    (spells : Spells before.names bytes event after.names)
    (reaches : ∀ position, (middle.step position event).reaches = some (sections, after)) :
    Reads before (text ++ 0x3C :: bytes) sections after := by
  intro position more
  obtain ⟨here, next, scanned⟩ := spells.after_text free position more
  refine ⟨next, ?_⟩
  rw [List.append_assoc, List.cons_append, scanned, takes here]
  exact Sections.all_event (reaches next) _

/-! ## Elements -/

theorem mapM_rawAttribute {read : RawAttribute → Except Fault (String × String)}
    (reads : ∀ pair, read (rawAttribute pair) = .ok pair) (pairs : List (String × String)) :
    (pairs.map rawAttribute).mapM read = .ok pairs := by
  induction pairs with
  | nil => rfl
  | cons pair pairs ih =>
    rw [List.map_cons, List.mapM_cons, reads, ih]
    rfl

/-- Names that can stand in front of values in one tag. -/
def PlainNames (names : List String) : Prop := (∀ name ∈ names, PlainName name) ∧ names.Nodup

instance (names : List String) : Decidable (PlainNames names) :=
  inferInstanceAs (Decidable (_ ∧ _))

/-- The attributes of a tag that is written are those that it is written with. -/
theorem attributes_writtenTag {name : String} {pairs : List (String × String)} (place : Place)
    (plain : PlainName name) (names : PlainNames (pairs.map Prod.fst)) :
    attributes place (writtenTag name pairs) = .ok pairs := by
  have keys : ∀ pair ∈ pairs, PlainName pair.1 := List.forall_mem_map.1 names.1
  rw [attributes, Markup.attributes_writtenTag plain keys names.2]
  dsimp only
  rw [mapM_rawAttribute]
  · rfl
  · intro pair
    dsimp only [rawAttribute]
    rw [Utf8.decode_encode, resolveBytes_escape]
    rfl

theorem stamp_text {instant : Instant} (ordinary : instant.Ordinary) (place : Place) :
    stamp place instant.text = .ok instant := by
  rw [stamp, Instant.trim_text, Instant.parse_text ordinary]

def rootAttributes (generated : Instant) (locale : String) : List (String × String) :=
  [("GeneratedUtc", generated.text), ("Locale", locale)]

theorem plainNames_rootAttributes (generated : Instant) (locale : String) :
    PlainNames ((rootAttributes generated locale).map Prod.fst) :=
  show PlainNames ["GeneratedUtc", "Locale"] by decide

/-- The header that a document is written with is read back. -/
theorem header_writtenTag {generated : Instant} (ordinary : generated.Ordinary) (locale : String)
    (place : Place) :
    header place (writtenTag rootElement (rootAttributes generated locale)) =
      .ok { generated := some generated, locale := locale } := by
  have stamped : Header.take place {} ("GeneratedUtc", generated.text) =
      .ok { generated := some generated } := by
    rw [Header.take, if_pos rfl, stamp_text ordinary]
    rfl
  have located (header : Header) : Header.take place header ("Locale", locale) =
      .ok { header with locale := locale } := by
    rw [Header.take, if_neg (show "Locale" ≠ "GeneratedUtc" by decide), if_pos rfl]
  rw [header, attributes_writtenTag place (by decide) (plainNames_rootAttributes generated locale)]
  dsimp only [bind, Except.bind]
  rw [rootAttributes, List.foldlM_cons, stamped]
  dsimp only [bind, Except.bind]
  rw [List.foldlM_cons, located]
  rfl

/-- An origin as it is read: a blank commit is none. -/
def Origin.readBack (origin : Origin) : Origin :=
  { origin with commit := origin.commit.filter (!isBlankText ·) }

/-- The stamps of an origin can be read. -/
def Origin.Ordinary (origin : Origin) : Prop := ∀ instant ∈ origin.modified, instant.Ordinary

instance (origin : Origin) : Decidable origin.Ordinary :=
  inferInstanceAs (Decidable (∀ _ ∈ origin.modified, _))

theorem Origin.plainNames_elementAttributes (origin : Origin) :
    PlainNames (origin.elementAttributes.map Prod.fst) := by
  rw [Origin.elementAttributes]
  cases origin.modified with
  | none =>
    cases origin.commit.filter (!isBlankText ·) with
    | none => exact (by decide : PlainNames ["SourcePath"])
    | some commit => exact (by decide : PlainNames ["SourcePath", "SourceCommitHash"])
  | some instant =>
    cases origin.commit.filter (!isBlankText ·) with
    | none => exact (by decide : PlainNames ["SourcePath", "SourceModifiedUtc"])
    | some commit =>
      exact (by decide : PlainNames ["SourcePath", "SourceModifiedUtc", "SourceCommitHash"])

theorem foldlM_take_modified {modified : Option Instant}
    (ordinary : ∀ instant ∈ modified, instant.Ordinary) (place : Place) (path : Option String)
    (origin : Origin) (none_yet : origin.modified = none) :
    (modified.toList.map fun instant ↦ ("SourceModifiedUtc", instant.text)).foldlM
        (Origin.take place) (path, origin) =
      .ok (path, { origin with modified := modified }) := by
  cases modified with
  | none =>
    have same : { origin with modified := none } = origin := by rw [← none_yet]
    rw [same]
    rfl
  | some instant =>
    rw [Option.toList_some, List.map_singleton, List.foldlM_cons, Origin.take]
    dsimp only
    rw [if_neg (show "SourceModifiedUtc" ≠ "SourcePath" by decide), if_pos rfl,
      stamp_text (ordinary instant rfl)]
    rfl

theorem foldlM_take_commit (commit : Option String) (place : Place) (path : Option String)
    (origin : Origin) (none_yet : origin.commit = none) :
    ((commit.filter (!isBlankText ·)).toList.map fun commit ↦ ("SourceCommitHash", commit)).foldlM
        (Origin.take place) (path, origin) =
      .ok (path, { origin with commit := commit.filter (!isBlankText ·) }) := by
  cases filtered : commit.filter (!isBlankText ·) with
  | none =>
    have same : { origin with commit := none } = origin := by rw [← none_yet]
    rw [same]
    rfl
  | some commit =>
    have full := (Option.filter_eq_some_iff.1 filtered).2
    rw [Option.toList_some, List.map_singleton, List.foldlM_cons, Origin.take]
    dsimp only
    rw [if_neg (show "SourceCommitHash" ≠ "SourcePath" by decide),
      if_neg (show "SourceCommitHash" ≠ "SourceModifiedUtc" by decide), full]
    rfl

/-- The origin that a section is written with is read back. -/
theorem origin_writtenTag {origin : Origin} (ordinary : origin.Ordinary) (place : Place) :
    Document.origin place (writtenTag fileElement origin.elementAttributes) =
      .ok origin.readBack := by
  have path : Origin.take place (none, { path := "" }) ("SourcePath", origin.path) =
      .ok (some origin.path, { path := "" }) := by
    rw [Origin.take]
    exact if_pos rfl
  rw [Document.origin, attributes_writtenTag place (by decide) origin.plainNames_elementAttributes]
  dsimp only [bind, Except.bind]
  rw [Origin.elementAttributes, List.foldlM_cons, path]
  dsimp only [bind, Except.bind]
  rw [List.foldlM_append, foldlM_take_modified ordinary _ _ _ rfl]
  dsimp only [bind, Except.bind]
  rw [foldlM_take_commit _ _ _ _ rfl]
  rfl

namespace Entry

/-- Other attributes can be read: their names are plain, no two are the same, and none is the name
of the key or of the hash. -/
structure Spellable (entry : Entry) : Prop where
  plain : ∀ pair ∈ entry.attributes, PlainName pair.1 ∧ pair.1 ≠ "Name" ∧ pair.1 ≠ "Hash"
  distinct : (entry.attributes.map Prod.fst).Nodup

instance (entry : Entry) : Decidable entry.Spellable :=
  decidable_of_iff
    ((∀ pair ∈ entry.attributes, PlainName pair.1 ∧ pair.1 ≠ "Name" ∧ pair.1 ≠ "Hash") ∧
      (entry.attributes.map Prod.fst).Nodup)
    ⟨fun ⟨plain, distinct⟩ ↦ ⟨plain, distinct⟩, fun ⟨plain, distinct⟩ ↦ ⟨plain, distinct⟩⟩

theorem Spellable.plainNames_elementAttributes {entry : Entry} (spellable : entry.Spellable) :
    PlainNames (entry.elementAttributes.map Prod.fst) := by
  have own : PlainNames ["Name", "Hash"] := by decide
  have other : ∀ name ∈ entry.attributes.map Prod.fst,
      PlainName name ∧ name ≠ "Name" ∧ name ≠ "Hash" := List.forall_mem_map.2 spellable.plain
  have split : entry.elementAttributes.map Prod.fst =
      ["Name", "Hash"] ++ entry.attributes.map Prod.fst := rfl
  rw [split]
  constructor
  · intro name h
    rcases List.mem_append.1 h with h | h
    · exact own.1 name h
    · exact (other name h).1
  · refine List.nodup_append.2 ⟨own.2, spellable.distinct, ?_⟩
    rintro name h _ mem rfl
    obtain ⟨-, key, hash⟩ := other name mem
    simp [key, hash] at h

end Entry

/-- The tag that an entry is written with begins the same entry. -/
theorem entryStart_writtenTag {entry : Entry} (spellable : entry.Spellable) (place : Place) :
    entryStart place (writtenTag entry.kind.elementName entry.elementAttributes) =
      .ok { kind := entry.kind, key := entry.key, hash := some entry.hash,
            attributes := entry.attributes } := by
  have named : PlainName entry.kind.elementName := by
    cases entry.kind
    all_goals decide
  have kind : EntryKind.ofElement? (Utf8.encode entry.kind.elementName) = some entry.kind := by
    cases entry.kind
    all_goals decide
  have others : entry.elementAttributes.filter (fun pair ↦ pair.1 != "Name" && pair.1 != "Hash") =
      entry.attributes := by
    have kept : ∀ pair ∈ entry.attributes, (pair.1 != "Name" && pair.1 != "Hash") = true := by
      intro pair h
      obtain ⟨-, key, hash⟩ := spellable.plain pair h
      simp [key, hash]
    exact List.filter_eq_self.2 kept
  rw [entryStart, name_writtenTag named, kind]
  dsimp only
  rw [attributes_writtenTag place named spellable.plainNames_elementAttributes]
  dsimp only [bind, Except.bind]
  rw [others]
  rfl

end Phrasebook.Document
