import Phrasebook.Proofs.Document.Delivery

/-!
# The record of a section

What a section accepted to put off and what of that came to its sink, over all calls on a draft. The
invariant is `Accounts`: as long as no flush failed, an entry that was accepted is on the sink or still
put off, and once one failed, an entry is lost and the sink takes nothing more. So a section or a document
that ends without a fault has lost nothing, though a flush that has nothing left to do succeeds behind
one that failed.
-/

namespace Phrasebook.Document

open Phrasebook.Calendar Phrasebook.Markup

/-! ## Entries that were put off -/

def Keyed (table : Std.TreeMap String Entry) : Prop :=
  ∀ (key : String) (entry : Entry), table[key]? = some entry → entry.key = key

theorem getElem?_insert_own (table : Std.TreeMap String Entry) (entry : Entry) (key : String) :
    (table.insert entry.key entry)[key]? = if entry.key = key then some entry else table[key]? := by
  rw [Std.TreeMap.getElem?_insert]
  simp only [Std.LawfulEqOrd.compare_eq_iff_eq]

theorem Keyed.insert {table : Std.TreeMap String Entry} (keyed : Keyed table) (entry : Entry) :
    Keyed (table.insert entry.key entry) := by
  intro key other found
  rw [getElem?_insert_own] at found
  split at found
  · next same => exact (Option.some.inj found) ▸ same
  · exact keyed key other found

theorem Keyed.mem_values {table : Std.TreeMap String Entry} (keyed : Keyed table) {entry : Entry} :
    entry ∈ table.values ↔ table[entry.key]? = some entry := by
  rw [values_eq_map_toList, List.mem_map]
  constructor
  · rintro ⟨⟨key, other⟩, held, rfl⟩
    rw [Std.TreeMap.mem_toList_iff_getElem?_eq_some] at held
    rw [keyed key other held]
    exact held
  · intro held
    exact ⟨(entry.key, entry), Std.TreeMap.mem_toList_iff_getElem?_eq_some.2 held, rfl⟩

theorem Keyed.nodup_values {table : Std.TreeMap String Entry} (keyed : Keyed table) :
    (table.values.map Entry.key).Nodup := by
  have keys : table.values.map Entry.key = table.keys := by
    rw [values_eq_map_toList, List.map_map, ← Std.TreeMap.map_fst_toList_eq_keys]
    refine List.map_congr_left fun pair held ↦ ?_
    exact keyed pair.1 pair.2 (Std.TreeMap.mem_toList_iff_getElem?_eq_some.1 held)
  rw [keys]
  exact Std.TreeMap.nodup_keys

/-- A beginning that is not the whole leaves something out, with a key of its own. -/
theorem exists_left_out {entries begun : List Entry} (begins : begun <+: entries)
    (fewer : begun ≠ entries) (distinct : (entries.map Entry.key).Nodup) :
    ∃ entry ∈ entries, entry.key ∉ begun.map Entry.key := by
  obtain ⟨rest, rfl⟩ := begins
  cases rest with
  | nil => exact absurd (List.append_nil begun).symm fewer
  | cons entry rest =>
    refine ⟨entry, by simp, fun mem ↦ ?_⟩
    rw [List.map_append] at distinct
    exact (List.nodup_append.1 distinct).2.2 _ mem _ List.mem_cons_self rfl

/-! ## The record of a section -/

/-- What became of the entries of a section. -/
structure Ledger where
  /-- The text in front of the section. -/
  start : String
  /-- The entries that were accepted to be put off. -/
  accepted : List Entry := []
  /-- The entries of them that came to the sink as a whole. -/
  delivered : List Entry := []
  /-- Whether a flush failed. -/
  refused : Bool := false
deriving DecidableEq, Repr

namespace Ledger

def flushed (ledger : Ledger) (draft : Draft) : Ledger :=
  { ledger with
    delivered := ledger.delivered ++ draft.flushed
    refused := ledger.refused || !(Draft.flush.run draft).1.isOk }

theorem flushed_of_nothing (ledger : Ledger) {draft : Draft} (nothing : draft.deferred = ∅) :
    ledger.flushed draft = ledger := by
  obtain ⟨none_delivered, succeeds⟩ := Draft.flush_of_nothing nothing
  rw [flushed, none_delivered, succeeds, List.append_nil]
  exact congrArg (fun refused ↦ { ledger with refused := refused }) (Bool.or_false _)

/-- The record behind a call on a draft. A section that begins has a record of its own. -/
def record (ledger : Ledger) (draft : Draft) : Call → Ledger
  | .startFile origin =>
    if draft.current = some origin then ledger
    else match Draft.endOpenFile.run draft with
      | (.ok _, ended) => { start := ended.text }
      | (.error _, _) => ledger.flushed draft
  | .deferEntry entry =>
    match (Draft.deferEntry entry).run draft with
    | (.ok _, _) => { ledger with accepted := ledger.accepted ++ [entry] }
    | (.error _, _) => ledger
  | .flush => ledger.flushed draft
  | .endFile => ledger.flushed draft
  | .writeEntry _ => ledger
  | .comment _ => ledger

def recordAll (ledger : Ledger) (draft : Draft) : List Call → Ledger
  | [] => ledger
  | call :: calls => (ledger.record draft call).recordAll (call.step.run draft).2 calls

/-- Every entry that was accepted came to the sink: the text of the section holds them. -/
def Complete (ledger : Ledger) (text : String) : Prop :=
  (∀ entry ∈ ledger.accepted, entry ∈ ledger.delivered) ∧
    ∃ body, text = ledger.start ++ body ∧ Holds body ledger.delivered

end Ledger

/-- A draft and the record of its section fit together. As long as no flush failed, every entry that was
accepted came to the sink or is still put off; once one failed, an entry is lost for good, and the sink
takes nothing more. -/
structure Accounts (draft : Draft) (ledger : Ledger) : Prop where
  attached : draft.current = none → draft.deferred = ∅
  keyed : Keyed draft.deferred
  accepted : ∀ (key : String) (entry : Entry), draft.deferred[key]? = some entry →
    entry ∈ ledger.accepted
  apart : ∀ key ∈ draft.deferred, key ∉ draft.written
  noted : draft.current ≠ none → ∀ entry ∈ ledger.delivered, entry.key ∈ draft.written
  kept : ledger.refused = false → ∀ entry ∈ ledger.accepted,
    entry ∈ ledger.delivered ∨ draft.deferred[entry.key]? = some entry
  lost : ledger.refused = true →
    draft.page.sink.Exhausted ∧ ∃ entry ∈ ledger.accepted, entry ∉ ledger.delivered
  text : ∃ body, draft.text = ledger.start ++ body ∧ Holds body ledger.delivered

namespace Accounts

variable {draft : Draft} {ledger : Ledger}

/-- A flush that fails loses an entry: it is not on the sink, and its key counts as new. -/
theorem left_out (accounts : Accounts draft ledger) (failed : (Draft.flush.run draft).1 ≠ .ok ()) :
    ∃ entry ∈ ledger.accepted, entry ∉ (ledger.flushed draft).delivered ∧
      (Draft.flush.run draft).2.accepted? entry.key = none := by
  have delivers := draft.delivers_flush
  obtain ⟨written, state, holds⟩ := draft.run_flush_eq
  obtain ⟨entry, put_off, absent⟩ :=
    exists_left_out delivers.begins (delivers.lossy failed).1 accounts.keyed.nodup_values
  have held := accounts.keyed.mem_values.1 put_off
  have waiting : entry.key ∈ draft.deferred := Std.TreeMap.isSome_getElem?_iff_mem.1 (Option.isSome_of_eq_some held)
  have unwritten := accounts.apart entry.key waiting
  have opened : draft.current ≠ none := by
    intro closed
    rw [accounts.attached closed] at held
    cases Std.TreeMap.getElem?_emptyc.symm.trans held
  refine ⟨entry, accounts.accepted _ _ held, ?_, ?_⟩
  · intro delivered
    rcases List.mem_append.1 delivered with before | now
    · exact unwritten (accounts.noted opened entry before)
    · exact absent (List.mem_map_of_mem now)
  · have unnoted : entry.key ∉ written := fun mem ↦ ((holds _).1 mem).elim unwritten absent
    rw [state, Draft.accepted?, Std.TreeMap.getElem?_eq_none unnoted, Std.TreeMap.getElem?_emptyc]
    rfl

theorem refused_flushed (ledger : Ledger) (draft : Draft) :
    (ledger.flushed draft).refused = false ↔
      ledger.refused = false ∧ (Draft.flush.run draft).1 = .ok () := by
  rw [Ledger.flushed]
  cases (Draft.flush.run draft).1 with
  | error fault => simp [Except.isOk, Except.toBool]
  | ok done => simp [Except.isOk, Except.toBool]

/-- If no flush failed, all entries are on the sink. -/
theorem complete (accounts : Accounts draft ledger) (nothing : draft.deferred = ∅)
    (whole : ledger.refused = false) : ∀ entry ∈ ledger.accepted, entry ∈ ledger.delivered := by
  intro entry mem
  rcases accounts.kept whole entry mem with delivered | waits
  · exact delivered
  · rw [nothing, Std.TreeMap.getElem?_emptyc] at waits
    cases waits

/-- Where nothing is put off, the entries that were accepted are on the sink or lost. -/
theorem of_nothing_put_off (nothing : draft.deferred = ∅)
    (noted : draft.current ≠ none → ∀ entry ∈ ledger.delivered, entry.key ∈ draft.written)
    (complete : ledger.refused = false → ∀ entry ∈ ledger.accepted, entry ∈ ledger.delivered)
    (lost : ledger.refused = true →
      draft.page.sink.Exhausted ∧ ∃ entry ∈ ledger.accepted, entry ∉ ledger.delivered)
    (text : ∃ body, draft.text = ledger.start ++ body ∧ Holds body ledger.delivered) :
    Accounts draft ledger where
  attached _ := nothing
  keyed key entry held := by
    rw [nothing, Std.TreeMap.getElem?_emptyc] at held
    cases held
  accepted key entry held := by
    rw [nothing, Std.TreeMap.getElem?_emptyc] at held
    cases held
  apart key mem := by
    rw [nothing] at mem
    cases Std.TreeMap.not_mem_emptyc mem
  noted := noted
  kept whole entry mem := .inl (complete whole entry mem)
  lost := lost
  text := text

/-- The accounts are right behind a flush, whether or not the sink took everything. -/
theorem flush (accounts : Accounts draft ledger) :
    Accounts (Draft.flush.run draft).2 (ledger.flushed draft) := by
  have delivers := draft.delivers_flush
  obtain ⟨written, state, holds⟩ := draft.run_flush_eq
  apply of_nothing_put_off
  · rw [state]
  · intro opened entry mem
    rw [state] at opened ⊢
    refine (holds _).2 ?_
    rcases List.mem_append.1 mem with before | now
    · exact .inl (accounts.noted opened entry before)
    · exact .inr (List.mem_map_of_mem now)
  · intro whole entry mem
    obtain ⟨whole, succeeds⟩ := (refused_flushed ledger draft).1 whole
    refine List.mem_append.2 ?_
    rw [delivers.complete succeeds]
    exact (accounts.kept whole entry mem).imp_right accounts.keyed.mem_values.2
  · intro lossy
    by_cases succeeds : (Draft.flush.run draft).1 = .ok ()
    · have before : ledger.refused = true := by
        cases whole : ledger.refused with
        | true => rfl
        | false =>
          rw [(refused_flushed ledger draft).2 ⟨whole, succeeds⟩] at lossy
          cases lossy
      obtain ⟨exhausted, entry, mem, undelivered⟩ := accounts.lost before
      obtain ⟨nothing, exhausted⟩ := delivers.spent exhausted
      refine ⟨exhausted, entry, mem, ?_⟩
      rwa [Ledger.flushed, nothing, List.append_nil]
    · obtain ⟨entry, mem, undelivered, -⟩ := accounts.left_out succeeds
      exact ⟨(delivers.lossy succeeds).2, entry, mem, undelivered⟩
  · obtain ⟨body, text, before⟩ := accounts.text
    obtain ⟨more, grown, now⟩ := delivers.text
    refine ⟨body ++ more, ?_, before.append now⟩
    rw [grown, ← String.append_assoc]
    exact congrArg (· ++ more) text

theorem text_extended (accounts : Accounts draft ledger) {after : Draft}
    (extends_ : draft.Extends after) :
    ∃ body, after.text = ledger.start ++ body ∧ Holds body ledger.delivered := by
  obtain ⟨body, text, holds⟩ := accounts.text
  obtain ⟨part, grown⟩ := extends_.grown
  exact ⟨body ++ part, by rw [grown, text, String.append_assoc], holds.other part⟩

/-- A step that writes, and may note more keys as written. -/
theorem extend (accounts : Accounts draft ledger) {after : Draft} (extends_ : draft.Extends after)
    (current : after.current = draft.current) (deferred : after.deferred = draft.deferred)
    (more : ∀ key ∈ draft.written, key ∈ after.written)
    (apart : ∀ key ∈ draft.deferred, key ∉ after.written) : Accounts after ledger := by
  constructor
  · rw [current, deferred]
    exact accounts.attached
  · rw [deferred]
    exact accounts.keyed
  · rw [deferred]
    exact accounts.accepted
  · rw [deferred]
    exact apart
  · rw [current]
    exact fun opened entry mem ↦ more _ (accounts.noted opened entry mem)
  · rw [deferred]
    exact accounts.kept
  · exact fun lossy ↦ (accounts.lost lossy).imp_left extends_.stays
  · exact accounts.text_extended extends_

/-- The section ends with nothing put off. -/
theorem close (accounts : Accounts draft ledger) (nothing : draft.deferred = ∅) {after : Draft}
    (extends_ : draft.Extends after) (closed : after.current = none)
    (nothing_after : after.deferred = ∅) : Accounts after ledger := by
  apply of_nothing_put_off nothing_after
  · exact fun opened ↦ absurd closed opened
  · exact accounts.complete nothing
  · exact fun lossy ↦ (accounts.lost lossy).imp_left extends_.stays
  · exact accounts.text_extended extends_

/-- A section begins with nothing accepted. -/
theorem fresh {start : String} (nothing : draft.deferred = ∅)
    (grown : ∃ part, draft.text = start ++ part) : Accounts draft { start := start } := by
  apply of_nothing_put_off nothing
  · exact fun _ ↦ List.forall_mem_nil _
  · exact fun _ ↦ List.forall_mem_nil _
  · exact nofun
  · obtain ⟨part, grown⟩ := grown
    exact ⟨part, grown, by simpa using Holds.nothing.other part⟩

/-! ### Calls -/

theorem endFile (accounts : Accounts draft ledger) :
    Accounts (Draft.endFile.run draft).2 (ledger.flushed draft) := by
  have nothing := draft.deferred_flush
  rcases draft.endFile_run with ⟨-, same⟩ | ⟨-, closed, emptied, extends_, -⟩
  · rw [same]
    exact accounts.flush
  · exact accounts.flush.close nothing extends_ closed emptied

theorem endOpenFile (accounts : Accounts draft ledger) :
    Accounts (Draft.endOpenFile.run draft).2 (ledger.flushed draft) := by
  by_cases closed : draft.current = none
  · rw [draft.endOpenFile_of_none closed, ledger.flushed_of_nothing (accounts.attached closed)]
    exact accounts
  · rw [draft.endOpenFile_of_ne_none closed]
    exact accounts.endFile

theorem startFile (accounts : Accounts draft ledger) (origin : Origin) :
    Accounts ((Draft.startFile origin).run draft).2 (ledger.record draft (.startFile origin)) := by
  rw [Ledger.record]
  split
  · next same =>
    rw [draft.startFile_of_open same]
    exact accounts
  · next other =>
    have starts := draft.startFile_run other
    have ends := accounts.endOpenFile
    generalize Draft.endOpenFile.run draft = outcome at starts ends ⊢
    obtain ⟨result, ended⟩ := outcome
    rcases starts with ⟨fault, rfl, same⟩ | ⟨rfl, nothing, extends_⟩
    · rw [same]
      exact ends
    · exact fresh nothing extends_.grown

theorem writeEntry (accounts : Accounts draft ledger) (entry : Entry) :
    Accounts ((Draft.writeEntry entry).run draft).2 ledger := by
  cases admitted : draft.admission entry with
  | error fault => simpa [Draft.writeEntry, admitted] using accounts
  | ok done =>
    obtain ⟨-, -, unheld⟩ := draft.of_admission admitted
    have checked := (draft.run_checkUnique_eq entry).trans (by rw [admitted])
    rw [Draft.writeEntry, run_bind_of_ok checked]
    rcases (draft.writes_emit entry).bind _ with ⟨fault, page, refused, ran⟩ | ⟨page, taken, ran⟩
    · rw [ran]
      exact accounts.extend ⟨refused.grows, refused.stays⟩ rfl rfl (fun _ ↦ id) accounts.apart
    · rw [ran]
      refine accounts.extend ⟨taken.grows, taken.stays⟩ rfl rfl (fun key noted ↦ ?_)
        fun key waiting noted ↦ ?_
      · exact Std.TreeMap.mem_insert.2 (.inr noted)
      · rcases Std.TreeMap.mem_insert.1 noted with same | before
        · rw [Std.LawfulEqOrd.compare_eq_iff_eq] at same
          exact unheld (same ▸ waiting)
        · exact accounts.apart key waiting before

/-- A new entry is put off. -/
theorem accept (accounts : Accounts draft ledger) {entry : Entry} (opened : draft.current ≠ none)
    (unwritten : entry.key ∉ draft.written) (unheld : entry.key ∉ draft.deferred) :
    Accounts { draft with deferred := draft.deferred.insert entry.key entry }
      { ledger with accepted := ledger.accepted ++ [entry] } := by
  constructor
  · exact fun closed ↦ absurd closed opened
  · exact accounts.keyed.insert entry
  · intro key other found
    dsimp only at found
    rw [getElem?_insert_own] at found
    split at found
    · exact (Option.some.inj found) ▸ List.mem_append_right _ List.mem_cons_self
    · exact List.mem_append_left _ (accounts.accepted key other found)
  · intro key waiting
    rcases Std.TreeMap.mem_insert.1 waiting with same | before
    · rw [Std.LawfulEqOrd.compare_eq_iff_eq] at same
      exact same ▸ unwritten
    · exact accounts.apart key before
  · exact accounts.noted
  · intro whole other mem
    dsimp only
    rw [getElem?_insert_own]
    rcases List.mem_append.1 mem with before | new
    · refine (accounts.kept whole other before).imp_right fun waits ↦ ?_
      rw [if_neg, waits]
      intro same
      rw [← same, Std.TreeMap.getElem?_eq_none unheld] at waits
      cases waits
    · rw [List.mem_singleton.1 new, if_pos rfl]
      exact .inr rfl
  · intro lossy
    obtain ⟨exhausted, other, mem, undelivered⟩ := accounts.lost lossy
    exact ⟨exhausted, other, List.mem_append_left _ mem, undelivered⟩
  · exact accounts.text

theorem deferEntry (accounts : Accounts draft ledger) (entry : Entry) :
    Accounts ((Draft.deferEntry entry).run draft).2 (ledger.record draft (.deferEntry entry)) := by
  rw [Ledger.record]
  cases admitted : draft.admission entry with
  | error fault => simpa [Draft.deferEntry, admitted] using accounts
  | ok done =>
    obtain ⟨opened, unwritten, unheld⟩ := draft.of_admission admitted
    simpa [Draft.deferEntry, admitted] using accounts.accept opened unwritten unheld

theorem comment (accounts : Accounts draft ledger) (text : String) :
    Accounts ((Draft.comment text).run draft).2 ledger := by
  have writes := draft.writes_comment text
  have written : ((Draft.comment text).run draft).2.written = draft.written := by rw [writes.state]
  apply accounts.extend writes.extension
  · rw [writes.state]
  · rw [writes.state]
  · exact fun key noted ↦ written ▸ noted
  · exact fun key waiting ↦ written ▸ accounts.apart key waiting

theorem call (accounts : Accounts draft ledger) (call : Call) :
    Accounts (call.step.run draft).2 (ledger.record draft call) := by
  cases call with
  | startFile origin => exact accounts.startFile origin
  | writeEntry entry => exact accounts.writeEntry entry
  | deferEntry entry => exact accounts.deferEntry entry
  | flush => exact accounts.flush
  | endFile => exact accounts.endFile
  | comment text => exact accounts.comment text

theorem performAll (accounts : Accounts draft ledger) (calls : List Call) :
    Accounts (draft.performAll calls).2 (ledger.recordAll draft calls) := by
  induction calls generalizing draft ledger with
  | nil => exact accounts
  | cons call calls ih => exact ih (accounts.call call)

/-- A draft that is begun has accepted nothing. -/
theorem start (sink : Sink) (locale : String) (generated : Instant) :
    Accounts (Draft.start sink locale generated).2
      { start := (Draft.start sink locale generated).2.text } := by
  apply fresh
  · have writes := Draft.writes_items { page := { sink := sink } } [.declaration,
      .start rootElement [("GeneratedUtc", generated.text), ("Locale", locale)]]
    rw [Draft.start, writes.state]
  · exact ⟨"", String.append_empty.symm⟩

/-- Nothing is lost on a sink that still takes something. -/
theorem whole (accounts : Accounts draft ledger) (taking : ¬ draft.page.sink.Exhausted) :
    ledger.refused = false := by
  cases lossy : ledger.refused with
  | false => rfl
  | true => exact absurd (accounts.lost lossy).1 taking

theorem complete_iff (accounts : Accounts draft ledger) (nothing : draft.deferred = ∅) :
    ledger.Complete draft.text ↔ ledger.refused = false := by
  constructor
  · rintro ⟨all, -⟩
    cases lossy : ledger.refused with
    | false => rfl
    | true =>
      obtain ⟨-, entry, mem, undelivered⟩ := accounts.lost lossy
      exact absurd (all entry mem) undelivered
  · exact fun whole ↦ ⟨accounts.complete nothing whole, accounts.text⟩

theorem complete_of_endFile (accounts : Accounts draft ledger)
    (ends : (Draft.endFile.run draft).1 = .ok ()) :
    (ledger.flushed draft).Complete (Draft.endFile.run draft).2.text := by
  rcases draft.endFile_run with ⟨fails, -⟩ | ⟨-, -, nothing, -, taking⟩
  · exact absurd ends fails
  · exact (accounts.endFile.complete_iff nothing).2 (accounts.flush.whole (taking ends))

theorem complete_of_finish (accounts : Accounts draft ledger)
    (finishes : (Draft.finish.run draft).1 = .ok ()) :
    (ledger.flushed draft).Complete (Draft.finish.run draft).2.text := by
  obtain ⟨ends, taking, extends_⟩ := draft.finish_run finishes
  have ended := accounts.endOpenFile
  have nothing := ended.attached (draft.current_endOpenFile ends)
  exact ⟨ended.complete nothing (ended.whole taking), ended.text_extended extends_⟩

end Accounts

/-- Whatever was called, on a sink that may begin to refuse at any point: as long as no flush of a section
failed, every entry that was accepted there is on the sink or still put off. Behind a flush that succeeds
all of them are on the sink exactly if none failed before; behind the end of a section or a document they
always are. A flush that fails loses an entry, whose key counts as new, and the next one succeeds. -/
theorem deferred_entries_delivered_iff_no_flush_failed (sink : Sink) (locale : String)
    (generated : Instant) (calls : List Call) :
    let begun := (Draft.start sink locale generated).2
    let draft := (begun.performAll calls).2
    let ledger := ({ start := begun.text } : Ledger).recordAll begun calls
    (ledger.refused = false → ∀ entry ∈ ledger.accepted,
        entry ∈ ledger.delivered ∨ draft.deferred[entry.key]? = some entry) ∧
      ((Draft.flush.run draft).1 = .ok () →
        ((ledger.flushed draft).Complete (Draft.flush.run draft).2.text ↔ ledger.refused = false)) ∧
      ((Draft.endFile.run draft).1 = .ok () →
        (ledger.flushed draft).Complete (Draft.endFile.run draft).2.text) ∧
      ((Draft.finish.run draft).1 = .ok () →
        (ledger.flushed draft).Complete (Draft.finish.run draft).2.text) ∧
      ((Draft.flush.run draft).1 ≠ .ok () →
        ∃ entry ∈ ledger.accepted, entry ∉ (ledger.flushed draft).delivered ∧
          (Draft.flush.run draft).2.accepted? entry.key = none ∧
          (Draft.flush.run (Draft.flush.run draft).2).1 = .ok ()) := by
  intro begun draft ledger
  have accounts : Accounts draft ledger := (Accounts.start sink locale generated).performAll calls
  obtain ⟨written, state, -⟩ := draft.run_flush_eq
  have nothing : (Draft.flush.run draft).2.deferred = ∅ := by rw [state]
  refine ⟨accounts.kept, fun succeeds ↦ ?_, accounts.complete_of_endFile, accounts.complete_of_finish,
    fun fails ↦ ?_⟩
  · rw [accounts.flush.complete_iff nothing, Accounts.refused_flushed]
    exact and_iff_left succeeds
  · obtain ⟨entry, mem, undelivered, forgotten⟩ := accounts.left_out fails
    refine ⟨entry, mem, undelivered, forgotten, ?_⟩
    rw [(Draft.flush_of_nothing nothing).2]

/-- Two entries that are put off come to a sink that refuses nothing. -/
theorem deferred_entries_delivered_menu :
    let opening : Entry := { kind := .literal, key := "open", text := "", hash := "1" }
    let close : Entry :=
      { kind := .template, key := "close", text := "a]]>b", hash := "0", comment := some "shown" }
    let begun := (Draft.start {} "en" ⟨19844, 43200, 0⟩).2
    let calls : List Call :=
      [.startFile ⟨"menu.rs", none, none⟩, .deferEntry opening, .deferEntry close]
    let draft := (begun.performAll calls).2
    let ledger := ({ start := begun.text } : Ledger).recordAll begun calls
    ledger.accepted = [opening, close] ∧ ledger.refused = false ∧
      (Draft.flush.run draft).1 = .ok () ∧
      (ledger.flushed draft).Complete (Draft.flush.run draft).2.text ∧
      (Draft.endFile.run draft).1 = .ok () ∧
      (ledger.flushed draft).Complete (Draft.endFile.run draft).2.text ∧
      (Draft.finish.run draft).1 = .ok () ∧
      (ledger.flushed draft).Complete (Draft.finish.run draft).2.text := by
  intro opening close begun calls draft ledger
  have accepted : ledger.accepted = [opening, close] := by decide +kernel
  have whole : ledger.refused = false := by decide +kernel
  have flushes : (Draft.flush.run draft).1 = .ok () := eq_ok_of_toOption (by decide +kernel)
  have ends : (Draft.endFile.run draft).1 = .ok () := eq_ok_of_toOption (by decide +kernel)
  have finishes : (Draft.finish.run draft).1 = .ok () := eq_ok_of_toOption (by decide +kernel)
  obtain ⟨-, complete, ended, finished, -⟩ :=
    deferred_entries_delivered_iff_no_flush_failed {} "en" ⟨19844, 43200, 0⟩ calls
  exact ⟨accepted, whole, flushes, (complete flushes).2 whole, ends, ended ends, finishes,
    finished finishes⟩

/-- The sink refuses the entry that was put off. The next flush succeeds, but nothing stands behind the
beginning of the section, and the key counts as new. -/
theorem second_flush_succeeds_without_entry :
    let entry : Entry := { kind := .template, key := "x", text := "1", hash := "0" }
    let begun := (Draft.start { patience := some 17, refusal := "disk full" } "en" ⟨19844, 43200, 0⟩).2
    let calls : List Call := [.startFile ⟨"a.rs", none, none⟩, .deferEntry entry, .flush]
    let draft := (begun.performAll calls).2
    let ledger := ({ start := begun.text } : Ledger).recordAll begun calls
    (begun.performAll calls).1.map Except.toOption = [some (), some (), none] ∧
      (Draft.flush.run draft).1 = .ok () ∧
      (ledger.flushed draft).accepted = [entry] ∧
      (Draft.flush.run draft).2.text =
        begun.text ++ "\n\t<!-- Start of file a.rs -->\n\t<File SourcePath=\"a.rs\">" ∧
      ¬ (ledger.flushed draft).Complete (Draft.flush.run draft).2.text ∧
      draft.accepted? entry.key = none := by
  intro entry begun calls draft ledger
  refine ⟨by decide +kernel, eq_ok_of_toOption (by decide +kernel), by decide +kernel,
    by decide +kernel, ?_, by decide +kernel⟩
  have accepted : entry ∈ (ledger.flushed draft).accepted := by decide +kernel
  have undelivered : entry ∉ (ledger.flushed draft).delivered := by decide +kernel
  exact fun complete ↦ undelivered (complete.1 entry accepted)

end Phrasebook.Document
