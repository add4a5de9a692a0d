import Phrasebook.Document.Canonical
import Phrasebook.Proofs.Document.Layout
import Phrasebook.Proofs.Document.Tidy

/-!
# Normal forms

The normal form of a section has fresh hashes, spaced comments and its entries in the order of their
keys. The canonical form of a document is the layout of the normal forms of its sections, and there is
one exactly if the document can be read to its end and no section has a key twice. A normal form is read
back as it is, and is its own normal form.
-/

namespace Phrasebook.Document

open Phrasebook.Calendar Phrasebook.Markup Phrasebook.Text

/-! ## Entries -/

theorem commentRead_eq (text : String) : commentRead text = trim (spaced text) := by
  rw [commentRead, spaced]

/-- A spaced comment is read as it is written, if there is no white space around it. -/
theorem map_commentRead_spaced {comment : Option String}
    (trimmed : ∀ text ∈ comment, Trimmed text.toList) :
    (comment.map spaced).map commentRead = comment.map spaced := by
  rw [Option.map_map]
  refine Option.map_congr fun text given ↦ ?_
  rw [Function.comp_apply, commentRead_eq, spaced_spaced,
    (trimmed_spaced (trimmed text given)).trim_eq]

namespace Entry

/-- The entry with a fresh hash and a spaced comment. -/
def normal (entry : Entry) : Entry := { entry.rehash with comment := entry.comment.map spaced }

@[simp] theorem normal_key (entry : Entry) : entry.normal.key = entry.key := rfl

@[simp] theorem normal_hash (entry : Entry) :
    entry.normal.hash = Digest.contentHash entry.text := rfl

theorem normal_normal (entry : Entry) : entry.normal.normal = entry.normal := by
  have comment : (entry.comment.map spaced).map spaced = entry.comment.map spaced := by
    rw [Option.map_map]
    exact congrArg (Option.map · entry.comment) (funext spaced_spaced)
  exact congrArg (fun comment ↦ { entry.rehash with comment := comment }) comment

theorem Tidy.normal {entry : Entry} (tidy : entry.Tidy) : entry.normal.Tidy := by
  refine ⟨tidy.further, fun text h ↦ ?_⟩
  obtain ⟨before, given, rfl⟩ := Option.map_eq_some_iff.1 h
  exact trimmed_spaced (tidy.comment before given)

/-- An entry that was read is read back in its normal form. -/
theorem Tidy.readBack_normal {entry : Entry} (tidy : entry.Tidy) :
    entry.normal.readBack = entry.normal := by
  have comment : (entry.comment.map spaced).map commentRead = entry.comment.map spaced :=
    map_commentRead_spaced tidy.comment
  exact congrArg (fun comment ↦ { entry.rehash with comment := comment }) comment

/-- An entry is written as its normal form is. -/
theorem spelling_normal (entry : Entry) : entry.normal.spelling = entry.rehash.spelling := by
  have comment : (entry.comment.map spaced).map commentItem = entry.comment.map commentItem := by
    rw [Option.map_map]
    refine congrArg (Option.map · entry.comment) (funext fun text ↦ ?_)
    rw [Function.comp_apply, commentItem, spaceHyphens_spaced, commentItem]
  exact congrArg (fun comment ↦ comment.toList ++ entry.rehash.items) comment

/-- An entry that was read can be written if its further attributes have plain names. -/
theorem Tidy.spellable {entry : Entry} (tidy : entry.Tidy)
    (plain : ∀ pair ∈ entry.attributes, PlainName pair.1) : entry.Spellable :=
  ⟨fun pair h ↦ ⟨plain pair h, tidy.further.other pair h⟩, tidy.further.distinct⟩

end Entry

/-! ## Sections -/

namespace Section

/-- The section with its entries normal and in the order of their keys. -/
def normal (content : Section) : Section :=
  ⟨content.origin, sortedByKey (content.entries.map Entry.normal)⟩

def Distinct (content : Section) : Prop := (content.entries.map Entry.key).Nodup

instance (content : Section) : Decidable content.Distinct :=
  inferInstanceAs (Decidable (List.Nodup _))

theorem normal_normal (content : Section) : content.normal.normal = content.normal := by
  have entries : (sortedByKey (content.entries.map Entry.normal)).map Entry.normal =
      sortedByKey (content.entries.map Entry.normal) := by
    rw [map_sortedByKey Entry.normal_key, List.map_map]
    exact congrArg (fun f ↦ sortedByKey (content.entries.map f)) (funext Entry.normal_normal)
  rw [normal, normal, entries, sortedByKey_sortedByKey]

theorem mem_normal {content : Section} {entry : Entry} :
    entry ∈ content.normal.entries ↔ ∃ other ∈ content.entries, other.normal = entry := by
  rw [normal, (sortedByKey_perm _).mem_iff, List.mem_map]

theorem Distinct.normal {content : Section} (distinct : content.Distinct) :
    content.normal.Distinct := by
  have keys := (sortedByKey_perm (content.entries.map Entry.normal)).map Entry.key
  rw [List.map_map] at keys
  exact keys.nodup_iff.2 distinct

theorem Tidy.normal {content : Section} (tidy : content.Tidy) : content.normal.Tidy := by
  refine ⟨tidy.origin, fun entry h ↦ ?_⟩
  obtain ⟨other, mem, rfl⟩ := mem_normal.1 h
  exact (tidy.entries other mem).normal

theorem Tidy.readBack_normal {content : Section} (tidy : content.Tidy) :
    content.normal.readBack = content.normal := by
  have entries : content.normal.entries.map Entry.readBack = content.normal.entries := by
    refine (List.map_congr_left fun entry h ↦ ?_).trans (List.map_id _)
    obtain ⟨other, mem, rfl⟩ := mem_normal.1 h
    exact (tidy.entries other mem).readBack_normal
  have origin : content.normal.origin.readBack = content.normal.origin := tidy.origin.readBack
  rw [readBack, entries, origin]

theorem items_normal (content : Section) :
    content.normal.items =
      items ⟨content.origin, sortedByKey (content.entries.map Entry.rehash)⟩ := by
  have entries : content.normal.entries.flatMap Entry.spelling =
      (sortedByKey (content.entries.map Entry.rehash)).flatMap Entry.spelling := by
    have sorted : content.normal.entries = (sortedByKey content.entries).map Entry.normal :=
      (map_sortedByKey Entry.normal_key _).symm
    have rehashed : (sortedByKey content.entries).map Entry.rehash =
        sortedByKey (content.entries.map Entry.rehash) :=
      @map_sortedByKey Entry.rehash (fun _ ↦ rfl) _
    rw [sorted, ← rehashed, List.flatMap_map, List.flatMap_map]
    exact congrArg (List.flatMap · _) (funext Entry.spelling_normal)
  rw [items, items, entries]
  rfl

end Section

end Phrasebook.Document
