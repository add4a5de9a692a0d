import Phrasebook.Proofs.Document.Reading
import Phrasebook.Proofs.Steps

/-!
# Sections as they come from reading

Whatever a document says, the sections that are read from it are tidy. A stamp is a second of a day, a
commit is not blank, no two attributes of an entry have the same name and none of them is the name of
the key or of the hash, and there is no white space around a comment.
-/

namespace Phrasebook.Markup

open Phrasebook.Text

/-! ## Keys of one tag -/

/-- The key of the attribute whose value is being read. -/
def AttributeMode.keyed? : AttributeMode → Option Bytes
  | .beforeValue name => some name
  | .value name _ _ => some name
  | _ => none

/-- A byte leaves the key alone, unless it ends the key or the value. -/
theorem AttributeMode.keyed?_step (mode : AttributeMode) (position : Nat) (byte : UInt8) :
    match mode.step position byte with
    | .next next => next.keyed? = mode.keyed?
    | .keyed _ _ => mode.keyed? = none
    | .complete raw => mode.keyed? = some raw.key
    | .fail _ => True := by
  cases mode with
  | between => by_cases space : isSpace byte = true <;> simp [step, space, keyed?]
  | key start held =>
    by_cases equals : byte = 0x3D <;> by_cases space : isSpace byte = true <;>
      simp [step, equals, space, keyed?]
  | afterKey start name =>
    by_cases equals : byte = 0x3D <;> by_cases space : isSpace byte = true <;>
      simp [step, equals, space, keyed?]
  | beforeValue name =>
    by_cases space : isSpace byte = true <;> by_cases quote : byte = 0x22 ∨ byte = 0x27 <;>
      simp [step, space, quote, keyed?]
  | value name quote held => by_cases closes : byte = quote <;> simp [step, closes, keyed?]

/-- The keys of attributes that are read differ from each other and from those that were read before. -/
theorem keys_scanAttributes {mode : AttributeMode} {position : Nat} {seen : List (Bytes × Nat)}
    (known : ∀ key, mode.keyed? = some key → (seen.lookup key).isSome) (bytes : Bytes) :
    (∀ raw ∈ (scanAttributes mode position seen bytes).1,
        seen.lookup raw.key = none ∨ mode.keyed? = some raw.key) ∧
      ((scanAttributes mode position seen bytes).1.map RawAttribute.key).Nodup := by
  induction bytes generalizing mode position seen with
  | nil => exact ⟨List.forall_mem_nil _, List.nodup_nil⟩
  | cons byte rest ih =>
    have stepped := mode.keyed?_step position byte
    rw [scanAttributes]
    cases step : mode.step position byte with
    | fail fault => exact ⟨List.forall_mem_nil _, List.nodup_nil⟩
    | next next =>
      rw [step] at stepped
      dsimp only at stepped ⊢
      rw [← stepped] at known ⊢
      exact ih known
    | keyed start key =>
      rw [step] at stepped
      dsimp only at stepped ⊢
      cases new : seen.lookup key with
      | some previous => exact ⟨List.forall_mem_nil _, List.nodup_nil⟩
      | none =>
        dsimp only
        obtain ⟨apart, distinct⟩ := @ih (.beforeValue key) (position + 1) ((key, start) :: seen)
          fun other same ↦ by
            rw [← Option.some.inj same, List.lookup_cons_self]
            rfl
        refine ⟨fun raw h ↦ .inl ?_, distinct⟩
        rcases apart raw h with unseen | same
        · rw [List.lookup_cons] at unseen
          split at unseen
          · cases unseen
          · exact unseen
        · rw [← Option.some.inj same]
          exact new
    | complete raw =>
      rw [step] at stepped
      dsimp only at stepped ⊢
      obtain ⟨apart, distinct⟩ := @ih .between (position + 1) seen
        fun _ none_yet ↦ by cases none_yet
      have unseen : ∀ other ∈ (scanAttributes .between (position + 1) seen rest).1,
          seen.lookup other.key = none :=
        fun other h ↦ (apart other h).resolve_right fun none_yet ↦ by cases none_yet
      constructor
      · intro other h
        rcases List.mem_cons.1 h with rfl | h
        · exact .inr stepped
        · exact .inl (unseen other h)
      · refine List.nodup_cons.2 ⟨fun mem ↦ ?_, distinct⟩
        obtain ⟨other, h, same⟩ := List.mem_map.1 mem
        have seen_before := known _ stepped
        rw [← same, unseen other h] at seen_before
        cases seen_before

end Phrasebook.Markup

namespace Phrasebook.Document

open Phrasebook.Calendar Phrasebook.Markup Phrasebook.Text

/-! ## Attributes -/

/-- The names of attributes are spelled as the keys that they were read from. -/
theorem keys_of_mapM {read : RawAttribute → Except Fault (String × String)}
    (reads : ∀ raw pair, read raw = .ok pair → Utf8.encode pair.1 = raw.key)
    {raws : List RawAttribute} {pairs : List (String × String)} (h : raws.mapM read = .ok pairs) :
    pairs.map (fun pair ↦ Utf8.encode pair.1) = raws.map RawAttribute.key := by
  induction raws generalizing pairs with
  | nil =>
    cases h
    rfl
  | cons raw raws ih =>
    rw [List.mapM_cons] at h
    obtain ⟨pair, first, h⟩ := exists_of_bind_eq_ok h
    obtain ⟨others, rest, h⟩ := exists_of_bind_eq_ok h
    cases h
    rw [List.map_cons, List.map_cons, reads raw pair first, ih rest]

/-- No two attributes of a tag have the same name. -/
theorem nodup_of_attributes {place : Place} {tag : Tag} {pairs : List (String × String)}
    (h : attributes place tag = .ok pairs) : (pairs.map Prod.fst).Nodup := by
  have distinct : (tag.attributes.1.map RawAttribute.key).Nodup :=
    (keys_scanAttributes (fun _ none_yet ↦ by cases none_yet) _).2
  rw [attributes] at h
  generalize tag.attributes = scanned at distinct h
  obtain ⟨raws, fault?⟩ := scanned
  obtain ⟨found, mapped, kept⟩ := exists_of_bind_eq_ok h
  have same : found = pairs := by
    cases fault? with
    | none => exact Except.ok.inj kept
    | some fault => cases kept
  subst same
  have spelled := keys_of_mapM (fun raw pair read ↦ ?_) mapped
  · dsimp only at distinct
    rw [← spelled] at distinct
    refine List.pairwise_map.2 ((List.pairwise_map.1 distinct).imp fun apart same ↦ apart ?_)
    rw [same]
  · cases decoded : Utf8.decode raw.key with
    | error place =>
      rw [decoded] at read
      cases read
    | ok name =>
      rw [decoded] at read
      dsimp only [bind, Except.bind, pure, Except.pure] at read
      cases resolved : resolveBytes raw.value with
      | error problem =>
        rw [resolved] at read
        cases read
      | ok value =>
        rw [resolved] at read
        cases read
        exact Utf8.encode_of_decode decoded

/-! ## What reading makes of a tag -/

theorem timely_of_stamp {place : Place} {value : String} {instant : Instant}
    (h : stamp place value = .ok instant) : instant.Timely := by
  unfold stamp at h
  split at h
  · next read =>
    cases h
    exact Instant.timely_of_parse read
  · cases h

theorem timely_of_header {place : Place} {tag : Tag} {found : Header}
    (h : header place tag = .ok found) : ∀ instant ∈ found.generated, instant.Timely := by
  rw [header] at h
  obtain ⟨pairs, -, folded⟩ := exists_of_bind_eq_ok h
  refine @foldlM_keeps _ _ _ (Header.take place)
    (fun found ↦ ∀ instant ∈ found.generated, instant.Timely) ?_ pairs {} found
    (fun _ none_yet ↦ by cases none_yet) folded
  intro before pair after timely taken
  unfold Header.take at taken
  split at taken
  · obtain ⟨instant, stamped, rfl⟩ := exists_of_map_eq_ok taken
    rintro _ ⟨⟩
    exact timely_of_stamp stamped
  split at taken
  · cases taken
    exact timely
  · cases taken
    exact timely

/-- An origin as reading leaves it: its stamp is a time of day, and its commit is not blank. -/
structure Origin.Tidy (origin : Origin) : Prop where
  timely : ∀ instant ∈ origin.modified, instant.Timely
  commit : ∀ commit ∈ origin.commit, isBlankText commit = false

theorem Origin.Tidy.readBack {origin : Origin} (tidy : origin.Tidy) : origin.readBack = origin := by
  have kept : origin.commit.filter (!isBlankText ·) = origin.commit := by
    cases given : origin.commit with
    | none => rfl
    | some commit => simp [tidy.commit commit given]
  rw [Origin.readBack, kept]

/-- Whatever a tag says, the origin that is read from it is tidy. -/
theorem tidy_of_origin {place : Place} {tag : Tag} {found : Origin}
    (h : Document.origin place tag = .ok found) : found.Tidy := by
  rw [Document.origin] at h
  obtain ⟨pairs, -, h⟩ := exists_of_bind_eq_ok h
  obtain ⟨⟨path, origin⟩, folded, h⟩ := exists_of_bind_eq_ok h
  have tidy : origin.Tidy := by
    refine @foldlM_keeps _ _ _ (Origin.take place) (fun found ↦ found.2.Tidy) ?_ pairs
      (none, { path := "" }) (path, origin)
      ⟨(fun _ none_yet ↦ by cases none_yet), (fun _ none_yet ↦ by cases none_yet)⟩ folded
    rintro ⟨before, origin⟩ pair after tidy taken
    unfold Origin.take at taken
    dsimp only at taken
    split at taken
    · cases taken
      exact tidy
    split at taken
    · obtain ⟨instant, stamped, rfl⟩ := exists_of_map_eq_ok taken
      refine ⟨?_, tidy.commit⟩
      rintro _ ⟨⟩
      exact timely_of_stamp stamped
    split at taken
    · next full =>
      cases taken
      refine ⟨tidy.timely, ?_⟩
      rintro _ ⟨⟩
      simpa using (Bool.and_eq_true_iff.1 full).2
    · cases taken
      exact tidy
  cases path with
  | none => cases h
  | some path =>
    cases h
    exact ⟨tidy.timely, tidy.commit⟩

/-- Further attributes of an entry: no two have the same name, and none has a name of the entry's
own. -/
structure Further (attributes : List (String × String)) : Prop where
  other : ∀ pair ∈ attributes, pair.1 ≠ "Name" ∧ pair.1 ≠ "Hash"
  distinct : (attributes.map Prod.fst).Nodup

theorem further_of_entryStart {place : Place} {tag : Tag} {entry : OpenEntry}
    (h : entryStart place tag = .ok entry) : Further entry.attributes := by
  rw [entryStart] at h
  split at h
  · cases h
  · obtain ⟨pairs, read, h⟩ := exists_of_bind_eq_ok h
    split at h
    · cases h
    · cases h
      constructor
      · intro pair mem
        simpa using (List.mem_filter.1 mem).2
      · exact (nodup_of_attributes read).sublist (List.filter_sublist.map Prod.fst)

/-! ## Sections -/

/-- An entry as reading leaves it. -/
structure Entry.Tidy (entry : Entry) : Prop where
  further : Further entry.attributes
  comment : ∀ text ∈ entry.comment, Trimmed text.toList

structure Section.Tidy (content : Section) : Prop where
  origin : content.origin.Tidy
  entries : ∀ entry ∈ content.entries, entry.Tidy

structure OpenSection.Tidy (s : OpenSection) : Prop where
  origin : s.origin.Tidy
  entries : ∀ entry ∈ s.entries, entry.Tidy
  comment : ∀ text ∈ s.comment, Trimmed text.toList

theorem OpenSection.Tidy.add {s : OpenSection} (tidy : s.Tidy) {entry : OpenEntry}
    (further : Further entry.attributes) : (s.add entry).Tidy where
  origin := tidy.origin
  entries := List.forall_mem_cons.2 ⟨⟨further, tidy.comment⟩, tidy.entries⟩
  comment _ none_left := by cases none_left

theorem OpenSection.Tidy.complete {s : OpenSection} (tidy : s.Tidy) : s.complete.Tidy :=
  ⟨tidy.origin, fun entry h ↦ tidy.entries entry (List.mem_reverse.1 h)⟩

def Stage.Tidy : Stage → Prop
  | root => True
  | file s => s.Tidy
  | entry s e => s.Tidy ∧ Further e.attributes

def Advance.Tidy : Advance → Prop
  | stay stage => stage.Tidy
  | complete content _ => content.Tidy
  | finish => True
  | fail _ => True

theorem Advance.tidy_ofExcept {α : Type} {result : Except Fault α} {next : α → Advance}
    (h : ∀ a, result = .ok a → (next a).Tidy) : (Advance.ofExcept (result.map next)).Tidy := by
  cases result with
  | error fault => exact trivial
  | ok a => exact h a rfl

theorem tidy_betweenElements (place : Place) {stage : Stage} (tidy : stage.Tidy) (text : Bytes) :
    (betweenElements place stage text).Tidy := by
  rw [betweenElements]
  split
  · exact tidy
  · exact trivial

theorem tidy_inRoot (place : Place) (event : Event) : (inRoot place event).Tidy := by
  have begun {origin : Origin} (tidy : origin.Tidy) : OpenSection.Tidy { origin := origin } :=
    ⟨tidy, List.forall_mem_nil _, fun _ none_yet ↦ by cases none_yet⟩
  cases event with
  | start tag =>
    rw [inRoot]
    split
    · exact Advance.tidy_ofExcept fun origin read ↦ begun (tidy_of_origin read)
    · exact trivial
  | empty tag =>
    rw [inRoot]
    split
    · exact Advance.tidy_ofExcept fun origin read ↦ ⟨tidy_of_origin read, List.forall_mem_nil _⟩
    · exact trivial
  | close name => exact trivial
  | text text => exact @tidy_betweenElements place .root trivial text
  | cdata text => exact trivial
  | comment text => exact trivial
  | directive => exact trivial

theorem OpenSection.Tidy.inFile {s : OpenSection} (tidy : s.Tidy) (place : Place) (event : Event) :
    (inFile place s event).Tidy := by
  cases event with
  | start tag =>
    exact Advance.tidy_ofExcept fun entry read ↦ ⟨tidy, further_of_entryStart read⟩
  | empty tag => exact Advance.tidy_ofExcept fun entry read ↦ tidy.add (further_of_entryStart read)
  | close name => exact tidy.complete
  | text text => exact @tidy_betweenElements place (.file s) tidy text
  | cdata text => exact trivial
  | directive => exact tidy
  | comment text =>
    rw [Document.inFile]
    split
    · next text _ =>
      refine ⟨tidy.origin, tidy.entries, ?_⟩
      rintro _ ⟨⟩
      rw [trim, String.toList_ofList]
      exact trimmed_trimChars text.toList
    · exact trivial

theorem OpenSection.Tidy.inEntry {s : OpenSection} (tidy : s.Tidy) {entry : OpenEntry}
    (further : Further entry.attributes) (place : Place) (event : Event) :
    (inEntry place s entry event).Tidy := by
  cases event with
  | start tag => exact trivial
  | empty tag => exact trivial
  | close name => exact tidy.add further
  | text text =>
    rw [Document.inEntry]
    split
    · exact ⟨tidy, further⟩
    · exact trivial
  | cdata text =>
    rw [Document.inEntry]
    split
    · exact ⟨tidy, further⟩
    · exact trivial
  | comment text => exact ⟨tidy, further⟩
  | directive => exact ⟨tidy, further⟩

theorem Stage.Tidy.step {stage : Stage} (tidy : stage.Tidy) (position : Nat) (event : Event) :
    (stage.step position event).Tidy := by
  cases stage with
  | root => exact tidy_inRoot _ event
  | file s => exact OpenSection.Tidy.inFile tidy _ event
  | entry s e => exact OpenSection.Tidy.inEntry tidy.1 tidy.2 _ event

/-- All sections that are read are tidy, by induction on the stream. -/
theorem Stage.Tidy.sections {stage : Stage} (tidy : stage.Tidy) {stream : Stream}
    {sections : List Section} (h : (Sections.ofStream stage stream).all = .ok sections) :
    ∀ content ∈ sections, content.Tidy := by
  induction stream generalizing stage sections with
  | ended position => cases h
  | failed problem position => cases h
  | event event position rest ih =>
    have stepped := tidy.step position event
    rw [Sections.ofStream] at h
    cases advance : stage.step position event with
    | stay next =>
      rw [advance] at h stepped
      exact ih stepped h
    | complete content spelled =>
      rw [advance] at h stepped
      obtain ⟨others, rest, rfl⟩ := exists_of_map_eq_ok h
      have root : Stage.root.Tidy := trivial
      exact List.forall_mem_cons.2 ⟨stepped, ih root rest⟩
    | finish =>
      rw [advance] at h
      cases h
      exact List.forall_mem_nil _
    | fail fault =>
      rw [advance] at h
      cases h

/-- Whatever a stream holds: if it is read as a document, the stamp of its header is a time of day, and
its sections are tidy. -/
theorem tidy_of_ofStream {stream : Stream} {opened : Opened} (h : ofStream stream = .ok opened) :
    (∀ instant ∈ opened.header.generated, instant.Timely) ∧
      ∀ sections, opened.sections.all = .ok sections → ∀ content ∈ sections, content.Tidy := by
  have root : Stage.root.Tidy := trivial
  induction stream with
  | ended position | failed problem position => cases h
  | event event position rest ih =>
    cases ofStream_event_eq_ok_iff.1 h with
    | ignore ignorable later => exact ih later
    | root name read => exact ⟨timely_of_header read, fun sections all ↦ root.sections all⟩
    | emptyRoot name read =>
      refine ⟨timely_of_header read, fun sections all ↦ ?_⟩
      cases all
      exact List.forall_mem_nil _

end Phrasebook.Document
