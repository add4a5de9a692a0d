import Phrasebook.Document.Draft
import Phrasebook.Proofs.Calendar.Instant
import Phrasebook.Proofs.Document.Reading

/-!
# Outlines

What calls on a draft leave behind, without any markup: the sections that are complete, the entries of
the open section as far as they are written, and those that were put off. A key is accepted once in a
section, and the entries that were put off take their place when the section is flushed.
-/

namespace Phrasebook.Document

inductive Call where
  | startFile (origin : Origin)
  | writeEntry (entry : Entry)
  | deferEntry (entry : Entry)
  | flush
  | endFile
  | comment (text : String)
deriving DecidableEq, Repr

def Call.step : Call → DraftM Unit
  | startFile origin => Draft.startFile origin
  | writeEntry entry => Draft.writeEntry entry
  | deferEntry entry => Draft.deferEntry entry
  | flush => Draft.flush
  | endFile => Draft.endFile
  | comment text => Draft.comment text

def sortedByKey (entries : List Entry) : List Entry :=
  entries.mergeSort fun entry other ↦ decide (entry.key ≤ other.key)

theorem sortedByKey_perm (entries : List Entry) : (sortedByKey entries).Perm entries :=
  List.mergeSort_perm _ _

theorem sortedByKey_pairwise (entries : List Entry) :
    (sortedByKey entries).Pairwise fun entry other ↦ entry.key ≤ other.key := by
  refine (List.pairwise_mergeSort ?_ ?_ entries).imp of_decide_eq_true
  · intro first second third h h'
    exact decide_eq_true (String.le_trans (of_decide_eq_true h) (of_decide_eq_true h'))
  · intro first second
    simpa using String.le_total first.key second.key

/-- What is sorted stays as it is. -/
theorem sortedByKey_sortedByKey (entries : List Entry) :
    sortedByKey (sortedByKey entries) = sortedByKey entries :=
  List.mergeSort_of_pairwise ((sortedByKey_pairwise entries).imp decide_eq_true)

theorem map_sortedByKey {f : Entry → Entry} (keeps : ∀ entry, (f entry).key = entry.key)
    (entries : List Entry) : (sortedByKey entries).map f = sortedByKey (entries.map f) := by
  refine List.map_mergeSort fun first _ second _ ↦ ?_
  rw [keeps, keeps]

/-- What a document holds so far. -/
structure Outline where
  /-- The sections that are complete. -/
  closed : List Section := []
  /-- The open section with the entries that were written. -/
  current : Option Section := none
  /-- The entries that were put off, in the order of the calls. -/
  deferred : List Entry := []
deriving DecidableEq, Repr

namespace Outline

def entries (outline : Outline) : List Entry := (outline.current.map Section.entries).getD []

/-- What becomes of an entry: it needs an open section that did not accept its key before. -/
def admission (outline : Outline) (entry : Entry) : Except Fault Unit :=
  match outline.current with
  | none => .error .noOpenSection
  | some content =>
    match (outline.entries ++ outline.deferred).find? (·.key = entry.key) with
    | some existing =>
      .error (.duplicateKey content.origin.path entry.key existing.text entry.text)
    | none => .ok ()

def answer (outline : Outline) : Call → Except Fault Unit
  | .startFile _ => .ok ()
  | .writeEntry entry => outline.admission entry
  | .deferEntry entry => outline.admission entry
  | .flush => .ok ()
  | .endFile => if outline.current.isSome then .ok () else .error .noOpenSection
  | .comment _ => .ok ()

def append (outline : Outline) (entries : List Entry) : Outline :=
  { outline with
    current := outline.current.map fun content ↦
      { content with entries := content.entries ++ entries } }

/-- The entries that were put off follow in the order of their keys. -/
def flush (outline : Outline) : Outline :=
  { outline.append (sortedByKey outline.deferred) with deferred := [] }

def close (outline : Outline) : Outline :=
  { closed := outline.closed ++ outline.flush.current.toList }

def record (outline : Outline) : Call → Outline
  | .startFile origin =>
    if outline.current.map Section.origin = some origin then outline
    else { outline.close with current := some ⟨origin, []⟩ }
  | .writeEntry entry =>
    match outline.admission entry with
    | .ok _ => outline.append [entry]
    | .error _ => outline
  | .deferEntry entry =>
    match outline.admission entry with
    | .ok _ => { outline with deferred := outline.deferred ++ [entry] }
    | .error _ => outline
  | .flush => outline.flush
  | .endFile => outline.close
  | .comment _ => outline

def recordAll (outline : Outline) (calls : List Call) : Outline := calls.foldl record outline

def answers (outline : Outline) : List Call → List (Except Fault Unit)
  | [] => []
  | call :: calls => outline.answer call :: (outline.record call).answers calls

def sections (outline : Outline) : List Section := outline.close.closed

/-- Nothing is left to flush when no section is open. -/
theorem flush_of_none {outline : Outline} (closed : outline.current = none)
    (nothing : outline.deferred = []) : outline.flush = outline := by
  rw [flush, append, closed, ← nothing]
  cases outline
  cases closed
  rfl

theorem close_of_none {outline : Outline} (closed : outline.current = none)
    (nothing : outline.deferred = []) : outline.close = outline := by
  rw [close, flush_of_none closed nothing, closed]
  cases outline
  cases closed
  cases nothing
  exact congrArg (Outline.mk · none []) (List.append_nil _)

theorem of_admission {outline : Outline} {entry : Entry} {accepted : Unit}
    (admitted : outline.admission entry = .ok accepted) :
    (∃ content, outline.current = some content) ∧
      entry.key ∉ (outline.entries ++ outline.deferred).map Entry.key := by
  rw [admission] at admitted
  split at admitted
  · cases admitted
  · next content opened =>
    refine ⟨⟨content, opened⟩, fun mem ↦ ?_⟩
    obtain ⟨other, held, same⟩ := List.mem_map.1 mem
    split at admitted
    · cases admitted
    · next none_found =>
      exact List.find?_eq_none.1 none_found other held (decide_eq_true same)

end Outline

/-! ## Tables by key -/

theorem distinct_of_perm {entries together : List Entry} {entry : Entry}
    (distinct : (entries.map Entry.key).Nodup) (new : entry.key ∉ entries.map Entry.key)
    (perm : List.Perm together (entry :: entries)) : (together.map Entry.key).Nodup :=
  (perm.map Entry.key).nodup_iff.2 (List.nodup_cons.2 ⟨new, distinct⟩)

/-- A table holds the data of entries by their keys. -/
def Indexes {β : Type} (table : Std.TreeMap String β) (value : Entry → β) (entries : List Entry) :
    Prop :=
  ∀ key : String, table[key]? = (entries.find? (·.key = key)).map value

theorem find?_key_eq_none {entries : List Entry} {key : String} (new : key ∉ entries.map Entry.key) :
    entries.find? (·.key = key) = none := by
  refine List.find?_eq_none.2 fun entry h same ↦ new ?_
  rw [← of_decide_eq_true same]
  exact List.mem_map_of_mem h

theorem exists_find?_key {entries : List Entry} {key : String} (held : key ∈ entries.map Entry.key) :
    ∃ entry, entries.find? (·.key = key) = some entry := by
  obtain ⟨entry, mem, rfl⟩ := List.mem_map.1 held
  exact Option.isSome_iff_exists.1 (List.find?_isSome.2 ⟨entry, mem, decide_eq_true rfl⟩)

theorem find?_key_eq_some_iff {entries : List Entry} {key : String} {entry : Entry}
    (distinct : (entries.map Entry.key).Nodup) :
    entries.find? (·.key = key) = some entry ↔ entry ∈ entries ∧ entry.key = key := by
  constructor
  · intro found
    have same := List.find?_some found
    exact ⟨List.mem_of_find?_eq_some found, of_decide_eq_true same⟩
  · rintro ⟨mem, rfl⟩
    induction entries with
    | nil => cases mem
    | cons first rest ih =>
      obtain ⟨new, distinct⟩ := List.nodup_cons.1 distinct
      rcases List.mem_cons.1 mem with rfl | mem
      · exact List.find?_cons_of_pos (decide_eq_true rfl)
      · have other : first.key ≠ entry.key := fun same ↦ new (same ▸ List.mem_map_of_mem mem)
        rw [List.find?_cons_of_neg (by simpa using other)]
        exact ih distinct mem

namespace Indexes

variable {β : Type} {table : Std.TreeMap String β} {value : Entry → β} {entries : List Entry}

theorem empty (value : Entry → β) : Indexes (∅ : Std.TreeMap String β) value [] := by
  intro key
  rw [Std.TreeMap.getElem?_emptyc]
  rfl

theorem insert (indexes : Indexes table value entries) {entry : Entry}
    (new : entry.key ∉ entries.map Entry.key) :
    Indexes (table.insert entry.key (value entry)) value (entries ++ [entry]) := by
  intro key
  rw [Std.TreeMap.getElem?_insert, List.find?_append, indexes key]
  by_cases same : entry.key = key
  · rw [if_pos (Std.LawfulEqOrd.compare_eq_iff_eq.2 same), find?_key_eq_none (same ▸ new)]
    simp [same]
  · rw [if_neg fun equal ↦ same (Std.LawfulEqOrd.compare_eq_iff_eq.1 equal)]
    simp [same]

theorem insertAll (indexes : Indexes table value entries) {added : List Entry}
    (distinct : ((entries ++ added).map Entry.key).Nodup) :
    Indexes (added.foldl (fun table entry ↦ table.insert entry.key (value entry)) table) value
      (entries ++ added) := by
  induction added generalizing table entries with
  | nil => rwa [List.append_nil]
  | cons entry added ih =>
    have split : entries ++ entry :: added = (entries ++ [entry]) ++ added := by simp
    rw [split] at distinct ⊢
    have new : entry.key ∉ entries.map Entry.key := by
      rw [List.map_append, List.map_append] at distinct
      have apart := (List.nodup_append.1 (List.nodup_append.1 distinct).1).2.2
      exact fun mem ↦ apart _ mem _ List.mem_cons_self rfl
    exact ih (indexes.insert new) distinct

end Indexes

theorem values_eq_map_toList {β : Type} (table : Std.TreeMap String β) :
    table.values = table.toList.map Prod.snd := by
  have folded : table.values = table.foldr (fun _ value values ↦ value :: values) [] := rfl
  rw [folded, Std.TreeMap.foldr_eq_foldr_toList]
  induction table.toList with
  | nil => rfl
  | cons pair pairs ih => rw [List.foldr_cons, List.map_cons, ih]

/-- The entries of a table come in the order of their keys. -/
theorem Indexes.values {table : Std.TreeMap String Entry} {entries : List Entry}
    (indexes : Indexes table id entries) (distinct : (entries.map Entry.key).Nodup) :
    table.values = sortedByKey entries := by
  have held {key : String} {entry : Entry} (h : (key, entry) ∈ table.toList) :
      entry ∈ entries ∧ entry.key = key := by
    rw [Std.TreeMap.mem_toList_iff_getElem?_eq_some, indexes key, Option.map_id] at h
    exact (find?_key_eq_some_iff distinct).1 h
  have mem (entry : Entry) : entry ∈ table.values ↔ entry ∈ entries := by
    rw [values_eq_map_toList, List.mem_map]
    constructor
    · rintro ⟨⟨key, other⟩, h, rfl⟩
      exact (held h).1
    · intro h
      refine ⟨(entry.key, entry), ?_, rfl⟩
      rw [Std.TreeMap.mem_toList_iff_getElem?_eq_some, indexes entry.key, Option.map_id]
      exact (find?_key_eq_some_iff distinct).2 ⟨h, rfl⟩
  have ascending : table.values.Pairwise fun entry other ↦ entry.key < other.key := by
    rw [values_eq_map_toList, List.pairwise_map]
    refine table.ordered_keys_toList.imp_of_mem fun {first second} h h' less ↦ ?_
    rw [(held h).2, (held h').2]
    exact compareOfLessAndEq_eq_lt.1 less
  have nodup : table.values.Nodup := by
    refine ascending.imp fun {first second} less same ↦ ?_
    rw [same] at less
    exact String.lt_irrefl _ less
  have nodup_sorted : (sortedByKey entries).Nodup :=
    (sortedByKey_perm entries).nodup_iff.2 ((List.pairwise_map.1 distinct).imp fun other same ↦
      other (congrArg Entry.key same))
  have perm : List.Perm table.values (sortedByKey entries) := by
    refine (List.perm_ext_iff_of_nodup nodup nodup_sorted).2 fun entry ↦ ?_
    rw [mem, (sortedByKey_perm entries).mem_iff]
  refine perm.eq_of_pairwise ?_ (ascending.imp fun less ↦ String.not_lt.1 (String.lt_asymm less))
    (sortedByKey_pairwise entries)
  intro first second h h' le ge
  have same := String.le_antisymm le ge
  have found := (find?_key_eq_some_iff distinct).2 ⟨(mem first).1 h, same⟩
  rw [(find?_key_eq_some_iff distinct).2 ⟨(mem second).1 (perm.mem_iff.2 h'), rfl⟩] at found
  exact (Option.some.inj found).symm

end Phrasebook.Document
