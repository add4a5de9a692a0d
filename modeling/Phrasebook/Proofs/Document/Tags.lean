import Mathlib.Data.List.Forall2
import Phrasebook.Proofs.Document.Tidy

/-!
# What tags say

The reading of a tag as relations between the tag and what it says. The attributes of a tag are pairs of
texts, no two with the same name, so what a tag says is decided by looking names up; in which order the
reading takes the attributes makes no difference to it.
-/

namespace Phrasebook.Document

open Phrasebook.Calendar Phrasebook.Markup Phrasebook.Text

/-- The attributes of a tag: they are well formed, their names are UTF-8, and their values are UTF-8
with references that stand for something. -/
structure HasAttributes (tag : Tag) (pairs : List (String × String)) : Prop where
  wellFormed : tag.attributes.2 = none
  each : List.Forall₂
    (fun raw pair ↦ Utf8.decode raw.key = .ok pair.1 ∧ resolveBytes raw.value = .ok pair.2)
    tag.attributes.1 pairs

/-- A text stands for a point of time, white space around it aside. -/
def IsStamp (value : String) (instant : Instant) : Prop := Instant.parse (trim value) = .ok instant

/-- The tag of a root element says what the header is. -/
inductive HasHeader (tag : Tag) (header : Header) : Prop
  | intro (pairs : List (String × String)) (attributes : HasAttributes tag pairs)
    (generated : Option.Rel IsStamp (pairs.lookup "GeneratedUtc") header.generated)
    (locale : header.locale = (pairs.lookup "Locale").getD "")

/-- The tag of a section's element says what the origin is. -/
inductive HasOrigin (tag : Tag) (origin : Origin) : Prop
  | intro (pairs : List (String × String)) (attributes : HasAttributes tag pairs)
    (path : pairs.lookup "SourcePath" = some origin.path)
    (modified : Option.Rel IsStamp (pairs.lookup "SourceModifiedUtc") origin.modified)
    (commit : origin.commit = (pairs.lookup "SourceCommitHash").filter (!isBlankText ·))

/-- The tag of an entry's element, with the text inside of it, says what the entry is, the comment
aside. -/
inductive HasEntry (tag : Tag) (text : String) (entry : Entry) : Prop
  | intro (pairs : List (String × String)) (attributes : HasAttributes tag pairs)
    (name : tag.name = Utf8.encode entry.kind.elementName)
    (key : pairs.lookup "Name" = some entry.key)
    (text_eq : entry.text = text)
    (hash : entry.hash = (pairs.lookup "Hash").getD (Digest.contentHash text))
    (others : entry.attributes = pairs.filter fun pair ↦ pair.1 != "Name" && pair.1 != "Hash")

/-! ## Attributes -/

theorem mapM_eq_ok_iff {ε α β : Type} {f : α → Except ε β} {as : List α} {bs : List β} :
    as.mapM f = .ok bs ↔ List.Forall₂ (fun a b ↦ f a = .ok b) as bs := by
  induction as generalizing bs with
  | nil =>
    rw [List.mapM_nil, List.forall₂_nil_left_iff]
    exact ⟨fun h ↦ (Except.ok.inj h).symm, fun h ↦ congrArg Except.ok h.symm⟩
  | cons a as ih =>
    rw [List.mapM_cons, List.forall₂_cons_left_iff]
    constructor
    · intro h
      obtain ⟨b, first, h⟩ := exists_of_bind_eq_ok h
      obtain ⟨others, rest, h⟩ := exists_of_bind_eq_ok h
      exact ⟨b, others, first, ih.1 rest, (Except.ok.inj h).symm⟩
    · rintro ⟨b, others, first, rest, rfl⟩
      rw [bind_of_ok first, bind_of_ok (ih.2 rest)]
      rfl

/-- Reading gives the attributes of a tag exactly if they are all in order. -/
theorem attributes_eq_ok_iff {place : Place} {tag : Tag} {pairs : List (String × String)} :
    attributes place tag = .ok pairs ↔ HasAttributes tag pairs := by
  unfold attributes
  constructor
  · intro h
    obtain ⟨found, mapped, kept⟩ := exists_of_bind_eq_ok h
    split at kept
    · cases kept
    next none_wrong =>
    cases kept
    refine ⟨none_wrong, (mapM_eq_ok_iff.1 mapped).imp fun raw pair read ↦ ?_⟩
    generalize Utf8.decode raw.key = name at read ⊢
    generalize resolveBytes raw.value = value at read ⊢
    cases name with
    | error fault => cases read
    | ok name =>
      cases value with
      | error problem => cases read
      | ok value =>
        cases read
        exact ⟨rfl, rfl⟩
  · rintro ⟨wellFormed, each⟩
    refine (@bind_of_ok _ _ _ _ pairs ?_ _).trans ?_
    · refine mapM_eq_ok_iff.2 (each.imp fun raw pair read ↦ ?_)
      rw [read.1, read.2]
      rfl
    · rw [show (scanAttributes _ _ _ _).2 = none from wellFormed]

theorem HasAttributes.nodup {tag : Tag} {pairs : List (String × String)}
    (h : HasAttributes tag pairs) : (pairs.map Prod.fst).Nodup :=
  @nodup_of_attributes ⟨0, none⟩ tag pairs (attributes_eq_ok_iff.2 h)

theorem HasAttributes.unique {tag : Tag} {pairs others : List (String × String)}
    (first : HasAttributes tag pairs) (second : HasAttributes tag others) : pairs = others := by
  have read : attributes ⟨0, none⟩ tag = .ok pairs := attributes_eq_ok_iff.2 first
  rw [attributes_eq_ok_iff.2 second] at read
  exact (Except.ok.inj read).symm

/-! ## Looking names up -/

theorem lookup_cons_of_ne {name : String} {pair : String × String} (h : pair.1 ≠ name)
    (pairs : List (String × String)) : (pair :: pairs).lookup name = pairs.lookup name := by
  have apart : (name == pair.1) = false := beq_eq_false_iff_ne.2 (Ne.symm h)
  rw [List.lookup_cons, apart]

theorem lookup_of_mem {name value : String} {pairs : List (String × String)}
    (distinct : (pairs.map Prod.fst).Nodup) (h : (name, value) ∈ pairs) :
    pairs.lookup name = some value := by
  induction pairs with
  | nil => cases h
  | cons pair pairs ih =>
    obtain ⟨new, distinct⟩ := List.nodup_cons.1 distinct
    rcases List.mem_cons.1 h with rfl | h
    · exact List.lookup_cons_self
    · rw [lookup_cons_of_ne fun same ↦ new ?_]
      · exact ih distinct h
      · rw [same]
        exact List.mem_map_of_mem h

section

variable {σ τ : Type} {take : σ → String × String → Except Fault σ} {field : σ → τ} {name : String}
  {pairs : List (String × String)} {start final : σ}

theorem foldlM_field_of_not_mem
    (other : ∀ s pair t, pair.1 ≠ name → take s pair = .ok t → field t = field s)
    (absent : name ∉ pairs.map Prod.fst) (h : pairs.foldlM take start = .ok final) :
    field final = field start := by
  induction pairs generalizing start with
  | nil =>
    cases h
    rfl
  | cons pair pairs ih =>
    rw [List.map_cons, List.mem_cons, not_or] at absent
    rw [List.foldlM_cons] at h
    obtain ⟨next, first, rest⟩ := exists_of_bind_eq_ok h
    rw [ih absent.2 rest, other start pair next (Ne.symm absent.1) first]

/-- In a field that one name decides, a fold over attributes comes to what the value of that name
says. -/
theorem foldlM_field (field : σ → τ) (name : String) (means : Option String → τ → Prop)
    (other : ∀ s pair t, pair.1 ≠ name → take s pair = .ok t → field t = field s)
    (absent : means none (field start))
    (present : ∀ value s t, field s = field start → take s (name, value) = .ok t →
      means (some value) (field t))
    (distinct : (pairs.map Prod.fst).Nodup) (h : pairs.foldlM take start = .ok final) :
    means (pairs.lookup name) (field final) := by
  induction pairs generalizing start with
  | nil =>
    cases h
    exact absent
  | cons pair pairs ih =>
    obtain ⟨new, distinct⟩ := List.nodup_cons.1 distinct
    rw [List.foldlM_cons] at h
    obtain ⟨next, first, rest⟩ := exists_of_bind_eq_ok h
    by_cases same : pair.1 = name
    · subst same
      rw [List.lookup_cons_self, foldlM_field_of_not_mem other new rest]
      exact present pair.2 start next rfl first
    · have kept := other start pair next same first
      rw [lookup_cons_of_ne same]
      rw [← kept] at absent present
      exact ih absent present distinct rest

/-- A fold over attributes succeeds if each of them can be taken. -/
theorem exists_foldlM (each : ∀ pair ∈ pairs, ∀ s, ∃ t, take s pair = .ok t) (start : σ) :
    ∃ final, pairs.foldlM take start = .ok final := by
  induction pairs generalizing start with
  | nil => exact ⟨start, rfl⟩
  | cons pair pairs ih =>
    obtain ⟨next, first⟩ := each pair List.mem_cons_self start
    obtain ⟨final, rest⟩ := ih (fun other h ↦ each other (List.mem_cons_of_mem _ h)) next
    exact ⟨final, by rw [List.foldlM_cons, bind_of_ok first, rest]⟩

end

/-! ## Stamps -/

theorem stamp_eq_ok_iff {place : Place} {value : String} {instant : Instant} :
    stamp place value = .ok instant ↔ IsStamp value instant := by
  rw [stamp, IsStamp]
  cases Instant.parse (trim value) with
  | ok other => simp
  | error reason => simp

theorem exists_stamp {value : String} {found : Option Instant}
    (h : Option.Rel IsStamp (some value) found) : ∃ instant, IsStamp value instant := by
  cases h with
  | some read => exact ⟨_, read⟩

theorem stamp_unique {value? : Option String} {first second : Option Instant}
    (one : Option.Rel IsStamp value? first) (other : Option.Rel IsStamp value? second) :
    first = second := by
  cases one with
  | none =>
    cases other
    rfl
  | some read =>
    cases other with
    | some again => exact congrArg some (Except.ok.inj (Eq.trans (Eq.symm read) again))

/-! ## Headers -/

theorem HasHeader.unique {tag : Tag} {first second : Header} (one : HasHeader tag first)
    (other : HasHeader tag second) : first = second := by
  obtain ⟨pairs, attributes, generated, locale⟩ := one
  obtain ⟨others, again, regenerated, relocale⟩ := other
  obtain rfl := attributes.unique again
  obtain ⟨firstGenerated, firstLocale⟩ := first
  obtain ⟨secondGenerated, secondLocale⟩ := second
  obtain rfl := stamp_unique generated regenerated
  obtain rfl := locale.trans relocale.symm
  rfl

theorem hasHeader_of_header {place : Place} {tag : Tag} {found : Header}
    (h : header place tag = .ok found) : HasHeader tag found := by
  obtain ⟨pairs, read, folded⟩ := exists_of_bind_eq_ok h
  have attributes := attributes_eq_ok_iff.1 read
  refine ⟨pairs, attributes, ?_, ?_⟩
  · apply foldlM_field Header.generated "GeneratedUtc" (Option.Rel IsStamp) ?_ .none ?_
      attributes.nodup folded
    · intro s pair t other taken
      rw [Header.take, if_neg other] at taken
      split at taken
      all_goals
        cases taken
        rfl
    · intro value s t _ taken
      rw [Header.take, if_pos rfl] at taken
      obtain ⟨instant, stamped, rfl⟩ := exists_of_map_eq_ok taken
      exact .some (stamp_eq_ok_iff.1 stamped)
  · apply foldlM_field Header.locale "Locale" (fun value? locale ↦ locale = value?.getD "") ?_ rfl ?_
      attributes.nodup folded
    · intro s pair t other taken
      unfold Header.take at taken
      split at taken
      · obtain ⟨instant, -, rfl⟩ := exists_of_map_eq_ok taken
        rfl
      · cases taken
        rfl
    · intro value s t _ taken
      cases taken
      rfl

/-- The tag of a root element is read exactly if it says what a header is. -/
theorem header_eq_ok_iff {place : Place} {tag : Tag} {found : Header} :
    header place tag = .ok found ↔ HasHeader tag found := by
  refine ⟨hasHeader_of_header, fun h ↦ ?_⟩
  obtain ⟨pairs, attributes, generated, locale⟩ := id h
  have each : ∀ pair ∈ pairs, ∀ s, ∃ t, Header.take place s pair = .ok t := by
    rintro ⟨name, value⟩ mem s
    rw [Header.take]
    dsimp only
    split
    · next same =>
      subst same
      rw [lookup_of_mem attributes.nodup mem] at generated
      obtain ⟨instant, read⟩ := exists_stamp generated
      rw [stamp_eq_ok_iff.2 read]
      exact ⟨_, rfl⟩
    · split
      all_goals exact ⟨_, rfl⟩
  obtain ⟨other, folded⟩ := exists_foldlM each {}
  have read : header place tag = .ok other := by
    rw [header, bind_of_ok (attributes_eq_ok_iff.2 attributes), folded]
  rw [read, (hasHeader_of_header read).unique h]

/-! ## Origins -/

/-- A tag says no two origins. -/
theorem HasOrigin.unique {tag : Tag} {first second : Origin} (one : HasOrigin tag first)
    (other : HasOrigin tag second) : first = second := by
  obtain ⟨pairs, attributes, path, modified, commit⟩ := one
  obtain ⟨others, again, repath, remodified, recommit⟩ := other
  obtain rfl := attributes.unique again
  obtain ⟨firstPath, firstModified, firstCommit⟩ := first
  obtain ⟨secondPath, secondModified, secondCommit⟩ := second
  obtain rfl := Option.some.inj (path.symm.trans repath)
  obtain rfl := stamp_unique modified remodified
  obtain rfl := commit.trans recommit.symm
  rfl

/-- What taking one attribute of a section's element comes to. -/
theorem Origin.take_eq_ok {place : Place} {before after : Option String × Origin}
    {pair : String × String} (taken : Origin.take place before pair = .ok after) :
    (pair.1 = "SourcePath" ∧ after = (some pair.2, before.2)) ∨
      (pair.1 = "SourceModifiedUtc" ∧ ∃ instant, IsStamp pair.2 instant ∧
        after = (before.1, { before.2 with modified := some instant })) ∨
      (pair.1 = "SourceCommitHash" ∧ isBlankText pair.2 = false ∧
        after = (before.1, { before.2 with commit := some pair.2 })) ∨
      (pair.1 ≠ "SourcePath" ∧ pair.1 ≠ "SourceModifiedUtc" ∧
        (pair.1 = "SourceCommitHash" → isBlankText pair.2 = true) ∧ after = before) := by
  unfold Origin.take at taken
  dsimp only at taken
  split at taken
  · next path => exact .inl ⟨path, (Except.ok.inj taken).symm⟩
  next path =>
  split at taken
  · next modified =>
    obtain ⟨instant, stamped, same⟩ := exists_of_map_eq_ok taken
    exact .inr (.inl ⟨modified, instant, stamp_eq_ok_iff.1 stamped, same.symm⟩)
  next modified =>
  split at taken
  · next commit =>
    obtain ⟨named, full⟩ : pair.1 = "SourceCommitHash" ∧ isBlankText pair.2 = false := by
      simpa using commit
    exact .inr (.inr (.inl ⟨named, full, (Except.ok.inj taken).symm⟩))
  · next commit =>
    refine .inr (.inr (.inr ⟨path, modified, fun named ↦ ?_, (Except.ok.inj taken).symm⟩))
    simpa [named] using commit

/-- What the attributes of a section's element come to, field by field. -/
theorem fields_of_foldlM {place : Place} {pairs : List (String × String)}
    (distinct : (pairs.map Prod.fst).Nodup) {found : Option String × Origin}
    (folded : pairs.foldlM (Origin.take place) (none, { path := "" }) = .ok found) :
    pairs.lookup "SourcePath" = found.1 ∧
      Option.Rel IsStamp (pairs.lookup "SourceModifiedUtc") found.2.modified ∧
      found.2.commit = (pairs.lookup "SourceCommitHash").filter (!isBlankText ·) := by
  refine ⟨?_, ?_, ?_⟩
  · apply foldlM_field Prod.fst "SourcePath" Eq ?_ rfl ?_ distinct folded
    · intro s pair t other taken
      rcases Origin.take_eq_ok taken with ⟨same, -⟩ | ⟨-, _, -, rfl⟩ | ⟨-, -, rfl⟩ | ⟨-, -, -, rfl⟩
      · exact absurd same other
      all_goals rfl
    · intro value s t _ taken
      cases taken
      rfl
  · apply foldlM_field (fun s ↦ s.2.modified) "SourceModifiedUtc" (Option.Rel IsStamp) ?_ .none ?_
      distinct folded
    · intro s pair t other taken
      rcases Origin.take_eq_ok taken with ⟨-, rfl⟩ | ⟨same, -⟩ | ⟨-, -, rfl⟩ | ⟨-, -, -, rfl⟩
      · rfl
      · exact absurd same other
      all_goals rfl
    · intro value s t _ taken
      rw [Origin.take] at taken
      dsimp only at taken
      rw [if_neg (show "SourceModifiedUtc" ≠ "SourcePath" by decide), if_pos rfl] at taken
      obtain ⟨instant, stamped, rfl⟩ := exists_of_map_eq_ok taken
      exact .some (stamp_eq_ok_iff.1 stamped)
  · apply foldlM_field (fun s ↦ s.2.commit) "SourceCommitHash"
      (fun value? commit ↦ commit = value?.filter (!isBlankText ·)) ?_ rfl ?_ distinct folded
    · intro s pair t other taken
      rcases Origin.take_eq_ok taken with ⟨-, rfl⟩ | ⟨-, _, -, rfl⟩ | ⟨same, -⟩ | ⟨-, -, -, rfl⟩
      · rfl
      · rfl
      · exact absurd same other
      · rfl
    · intro value s t start taken
      rcases Origin.take_eq_ok taken with ⟨named, -⟩ | ⟨named, -⟩ | ⟨-, full, rfl⟩ |
        ⟨-, -, blank, rfl⟩
      · exact absurd named (show "SourceCommitHash" ≠ "SourcePath" by decide)
      · exact absurd named (show "SourceCommitHash" ≠ "SourceModifiedUtc" by decide)
      · exact (Option.filter_some_pos (by simpa using full)).symm
      · have blank := blank rfl
        dsimp only at blank
        rw [start, Option.filter_some, blank]
        rfl

theorem hasOrigin_of_origin {place : Place} {tag : Tag} {found : Origin}
    (h : origin place tag = .ok found) : HasOrigin tag found := by
  obtain ⟨pairs, read, h⟩ := exists_of_bind_eq_ok h
  obtain ⟨⟨path?, origin⟩, folded, h⟩ := exists_of_bind_eq_ok h
  have attributes := attributes_eq_ok_iff.1 read
  obtain ⟨path, modified, commit⟩ := fields_of_foldlM attributes.nodup folded
  cases path? with
  | none => cases h
  | some value =>
    cases h
    exact ⟨pairs, attributes, path, modified, commit⟩

/-- The tag of a section's element is read exactly if it says what an origin is. -/
theorem origin_eq_ok_iff {place : Place} {tag : Tag} {found : Origin} :
    origin place tag = .ok found ↔ HasOrigin tag found := by
  refine ⟨hasOrigin_of_origin, fun h ↦ ?_⟩
  obtain ⟨pairs, attributes, path, modified, commit⟩ := id h
  have each : ∀ pair ∈ pairs, ∀ s, ∃ t, Origin.take place s pair = .ok t := by
    rintro ⟨name, value⟩ mem ⟨before, origin⟩
    rw [Origin.take]
    dsimp only
    split
    · exact ⟨_, rfl⟩
    split
    · next same =>
      subst same
      rw [lookup_of_mem attributes.nodup mem] at modified
      obtain ⟨instant, read⟩ := exists_stamp modified
      rw [stamp_eq_ok_iff.2 read]
      exact ⟨_, rfl⟩
    split
    all_goals exact ⟨_, rfl⟩
  obtain ⟨⟨path?, other⟩, folded⟩ := exists_foldlM each (none, { path := "" })
  obtain rfl : some found.path = path? :=
    path.symm.trans (fields_of_foldlM attributes.nodup folded).1
  have read : origin place tag = .ok { other with path := found.path } := by
    rw [origin, bind_of_ok (attributes_eq_ok_iff.2 attributes), bind_of_ok folded]
  rw [read, (hasOrigin_of_origin read).unique h]

/-! ## Entries -/

theorem ofElement?_eq_some_iff {name : Bytes} {kind : EntryKind} :
    EntryKind.ofElement? name = some kind ↔ name = Utf8.encode kind.elementName := by
  have apart : Utf8.encode "String" ≠ Utf8.encode "Literal" := by decide
  rw [EntryKind.ofElement?]
  constructor
  · intro h
    split at h
    · next same =>
      cases h
      exact same
    · split at h
      · next same =>
        cases h
        exact same
      · cases h
  · rintro rfl
    cases kind with
    | template => exact if_pos rfl
    | literal => rw [EntryKind.elementName, if_neg (Ne.symm apart), if_pos rfl]

def OpenEntry.completed (entry : OpenEntry) (text : String) (comment : Option String) : Entry :=
  { kind := entry.kind
    key := entry.key
    text := text
    hash := entry.hash.getD (Digest.contentHash text)
    attributes := entry.attributes
    comment := comment }

theorem OpenSection.add_eq (s : OpenSection) (entry : OpenEntry) :
    s.add entry =
      { s with entries := entry.completed entry.text s.comment :: s.entries, comment := none } := rfl

/-- The tag of an entry's element begins an entry whose text is not complete. -/
inductive Begins (tag : Tag) (begun : OpenEntry) : Prop
  | intro (pairs : List (String × String)) (attributes : HasAttributes tag pairs)
    (name : tag.name = Utf8.encode begun.kind.elementName)
    (key : pairs.lookup "Name" = some begun.key)
    (hash : begun.hash = pairs.lookup "Hash")
    (others : begun.attributes = pairs.filter fun pair ↦ pair.1 != "Name" && pair.1 != "Hash")
    (text : begun.text = "")

theorem Begins.text_eq {tag : Tag} {begun : OpenEntry} (h : Begins tag begun) : begun.text = "" := by
  obtain ⟨_, _, _, _, _, _, text⟩ := h
  exact text

theorem Begins.name_eq {tag : Tag} {begun : OpenEntry} (h : Begins tag begun) :
    tag.name = Utf8.encode begun.kind.elementName := by
  obtain ⟨_, _, name, _, _, _, _⟩ := h
  exact name

/-- Reading begins an entry exactly at a tag that can begin it. -/
theorem entryStart_eq_ok_iff {place : Place} {tag : Tag} {begun : OpenEntry} :
    entryStart place tag = .ok begun ↔ Begins tag begun := by
  constructor
  · intro read
    unfold entryStart at read
    split at read
    · cases read
    next kind named =>
    obtain ⟨pairs, found, read⟩ := exists_of_bind_eq_ok read
    split at read
    · cases read
    next key keyed =>
    cases read
    exact ⟨pairs, attributes_eq_ok_iff.1 found, ofElement?_eq_some_iff.1 named, keyed, rfl, rfl, rfl⟩
  · rintro ⟨pairs, attributes, name, key, hash, others, text⟩
    obtain ⟨kind, _, _, _, _⟩ := begun
    rw [entryStart, ofElement?_eq_some_iff.2 name]
    dsimp only at key hash others text ⊢
    rw [bind_of_ok (attributes_eq_ok_iff.2 attributes), key, hash, others, text]

/-- The tag of an entry's element says what an entry is exactly if the entry is what the tag begins,
completed by its text. -/
theorem hasEntry_iff {tag : Tag} {text : String} {entry : Entry} :
    HasEntry tag text entry ↔
      ∃ begun, Begins tag begun ∧ begun.completed text entry.comment = entry := by
  constructor
  · rintro ⟨pairs, attributes, name, key, rfl, hash, others⟩
    let begun : OpenEntry := ⟨entry.kind, entry.key, pairs.lookup "Hash", entry.attributes, ""⟩
    refine ⟨begun, ⟨pairs, attributes, name, key, rfl, others, rfl⟩, ?_⟩
    rw [OpenEntry.completed, ← hash]
  · rintro ⟨begun, ⟨pairs, attributes, name, key, hash, others, -⟩, same⟩
    rw [← same]
    refine ⟨pairs, attributes, name, key, rfl, ?_, others⟩
    rw [OpenEntry.completed, hash]

end Phrasebook.Document
