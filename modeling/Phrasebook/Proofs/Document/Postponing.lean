import Phrasebook.Proofs.Document.Interchange

/-!
# What entries that are put off come to

A flush writes what writing each entry at once, in the order of the keys, writes, also on a sink that
begins to refuse: a flush stops at the first entry that is refused, and the entries behind it would be
refused as well. Together with the exchange of calls this makes the output of a section a function of
what was written at once and of which entries were put off between two flushes.
-/

namespace Phrasebook.Markup

/-! ## Sinks that take nothing more -/

namespace Sink

variable {sink : Sink}

theorem write_of_exhausted (exhausted : sink.Exhausted) (s : String) : (sink.write s).2 = sink := by
  have patience : sink.patience = some 0 := exhausted
  rw [write, patience]
  split
  · rfl
  · rfl

theorem writeAll_of_exhausted (exhausted : sink.Exhausted) (pieces : List String) :
    (sink.writeAll pieces).2 = sink := by
  induction pieces with
  | nil => rfl
  | cons s pieces ih =>
    have same := write_of_exhausted exhausted s
    rw [writeAll]
    split
    · next after taken =>
      rw [taken] at same
      exact same ▸ ih
    · next after refused =>
      rw [refused] at same
      exact same

end Sink

theorem Page.sink_put_of_exhausted {page : Page} (exhausted : page.sink.Exhausted) (item : Item) :
    (page.put item).sink = page.sink :=
  Sink.writeAll_of_exhausted exhausted _

end Phrasebook.Markup

namespace Phrasebook.Document

open Phrasebook.Calendar Phrasebook.Markup

namespace Draft

variable {draft : Draft} {origin : Origin}

theorem sink_writeItems_of_exhausted (exhausted : draft.page.sink.Exhausted) (items : List Item) :
    ((writeItems items).run draft).2.page.sink = draft.page.sink := by
  induction items generalizing draft with
  | nil => rfl
  | cons item items ih =>
    have same := Page.sink_put_of_exhausted exhausted item
    have first := run_writeItem_eq draft item
    rw [writeItems]
    cases accepted : (draft.page.write item).1 with
    | false => simp [first, accepted, same]
    | true =>
      have exhausted_still : (draft.page.put item).sink.Exhausted := same ▸ exhausted
      have rest := @ih { draft with page := draft.page.put item } exhausted_still
      simp [first, accepted, rest, same]

theorem sink_writeEntry_of_exhausted (exhausted : draft.page.sink.Exhausted) (entry : Entry) :
    ((writeEntry entry).run draft).2.page.sink = draft.page.sink := by
  have emits := sink_writeItems_of_exhausted exhausted entry.spelling
  rw [← emit_eq] at emits
  cases admitted : draft.admission entry with
  | error fault => simp [writeEntry, admitted]
  | ok done =>
    cases emitted : ((emit entry).run draft).1 with
    | error fault => simp [writeEntry, admitted, emitted, emits]
    | ok done => simp [writeEntry, admitted, emitted, emits]

theorem sink_performAll_of_exhausted (exhausted : draft.page.sink.Exhausted) (entries : List Entry) :
    (draft.performAll (entries.map .writeEntry)).2.page.sink = draft.page.sink := by
  induction entries generalizing draft with
  | nil => rfl
  | cons entry entries ih =>
    have same := sink_writeEntry_of_exhausted exhausted entry
    exact (ih (same ▸ exhausted)).trans same

/-! ## Entries that are written -/

theorem admission_eq_ok (opened : draft.current = some origin) {entry : Entry}
    (new : draft.accepted? entry.key = none) : draft.admission entry = .ok () := by
  rw [admission, opened, new]

/-- Entries with new keys are written one after the other as if each were written at once. -/
theorem emitAll_like_writing (opened : draft.current = some origin) {entries : List Entry}
    (new : ∀ entry ∈ entries, draft.accepted? entry.key = none)
    (distinct : (entries.map Entry.key).Nodup) :
    ((emitAll entries).run draft).2.text = (draft.performAll (entries.map .writeEntry)).2.text ∧
      (((emitAll entries).run draft).1 = .ok () →
        ((emitAll entries).run draft).2 = (draft.performAll (entries.map .writeEntry)).2) := by
  induction entries generalizing draft with
  | nil => exact ⟨rfl, fun _ ↦ rfl⟩
  | cons entry entries ih =>
    obtain ⟨new_first, new_others⟩ := List.forall_mem_cons.1 new
    rw [List.map_cons, List.nodup_cons] at distinct
    have admitted := admission_eq_ok opened new_first
    have writes := draft.writes_emit entry
    rw [emitAll, List.map_cons, performAll, Call.step]
    generalize emitted : (emit entry).run draft = outcome at writes
    cases writes with
    | @cut fault page refused =>
      have written : (writeEntry entry).run draft = (.error fault, { draft with page := page }) := by
        simp [writeEntry, admitted, emitted]
      rw [run_bind_of_error emitted, written]
      refine ⟨congrArg Sink.text (sink_performAll_of_exhausted refused.spent entries).symm,
        fun succeeds ↦ ?_⟩
      cases succeeds
    | @full page taken =>
      have written : (writeEntry entry).run draft =
          (.ok (), Draft.noted { draft with page := page } entry) := by
        simp [writeEntry, admitted, emitted]
      have stays : Call.StaysIn origin (.writeEntry entry) := trivial
      have leaves := leaves_call opened stays
      rw [Call.step, written] at leaves
      rw [run_bind_of_ok emitted, run_bind_of_ok (run_note _ entry), written]
      refine ih leaves.1 (fun other mem ↦ ?_) distinct.2
      rw [leaves.2 other.key fun first same ↦ ?_]
      · exact new_others other mem
      · cases same
        exact fun equal ↦ distinct.1 (equal ▸ List.mem_map_of_mem mem)

/-! ## Steps that flush -/

/-- The steps that flush the open section. -/
inductive Flushing (draft : Draft) : DraftM Unit → Prop
  | flush : Flushing draft flush
  | endFile : Flushing draft endFile
  | startFile {origin : Origin} (other : draft.current ≠ some origin) :
    Flushing draft (startFile origin)
  | finish : Flushing draft finish

/-- The step flushes the draft and does nothing else before, and nothing else at all if the flush
fails. -/
def FlushesFirst (draft : Draft) (step : DraftM Unit) : Prop :=
  step.run draft =
    match flush.run draft with
    | (.ok _, flushed) => step.run flushed
    | (.error fault, flushed) => (.error fault, flushed)

/-- What begins a section where none is open. -/
def beginFile (origin : Origin) : DraftM Unit := do
  modify fun draft => { draft with written := ∅, deferred := ∅ }
  comment ("Start of file " ++ fileName origin.path)
  writeItem (.start fileElement origin.elementAttributes)
  modify fun draft => { draft with current := some origin }

theorem run_startFile_of_ne (other : draft.current ≠ some origin) :
    (startFile origin).run draft = (endOpenFile >>= fun _ ↦ beginFile origin).run draft := by
  rw [startFile, run_get_bind, if_pos other]
  rfl

theorem FlushesFirst.bind {step : DraftM Unit} (first : draft.FlushesFirst step)
    (next : Unit → DraftM Unit) : draft.FlushesFirst (step >>= next) := by
  rw [FlushesFirst] at first ⊢
  generalize flush.run draft = outcome at first ⊢
  obtain ⟨result, flushed⟩ := outcome
  cases result with
  | error fault => exact run_bind_of_error first next
  | ok done => exact run_bind_congr first next

theorem flushesFirst_flush (draft : Draft) : draft.FlushesFirst flush := by
  have emptied := draft.deferred_flush
  rw [FlushesFirst]
  generalize flush.run draft = outcome at emptied
  obtain ⟨result, flushed⟩ := outcome
  cases result with
  | error fault => rfl
  | ok done => exact (flush_of_nothing emptied).2.symm

theorem flushesFirst_endOpenFile (attached : draft.current = none → draft.deferred = ∅) :
    draft.FlushesFirst endOpenFile := by
  by_cases closed : draft.current = none
  · rw [FlushesFirst, (flush_of_nothing (attached closed)).2]
  · have current := draft.current_flush
    have ends : draft.FlushesFirst endFile := draft.flushesFirst_flush.bind _
    rw [FlushesFirst] at ends ⊢
    rw [draft.endOpenFile_of_ne_none closed, ends]
    generalize flush.run draft = outcome at current ⊢
    obtain ⟨result, flushed⟩ := outcome
    cases result with
    | error fault => rfl
    | ok done => exact (flushed.endOpenFile_of_ne_none (current ▸ closed)).symm

/-- Whatever flushes does so before anything else. -/
theorem Flushing.flushesFirst {step : DraftM Unit} (flushing : draft.Flushing step)
    (attached : draft.current = none → draft.deferred = ∅) : draft.FlushesFirst step := by
  cases flushing with
  | flush => exact draft.flushesFirst_flush
  | endFile => exact draft.flushesFirst_flush.bind _
  | finish => exact (flushesFirst_endOpenFile attached).bind _
  | @startFile origin other =>
    have current := draft.current_flush
    have ends := (flushesFirst_endOpenFile attached).bind fun _ ↦ beginFile origin
    rw [FlushesFirst] at ends ⊢
    rw [run_startFile_of_ne other, ends]
    generalize Draft.flush.run draft = outcome at current ⊢
    obtain ⟨result, flushed⟩ := outcome
    cases result with
    | error fault => rfl
    | ok done => exact (run_startFile_of_ne (current ▸ other)).symm

/-! ## What is flushed -/

/-- How a draft flushes: it writes what writing its entries at once in the order of their keys writes,
and whatever ends the section flushes it first. -/
structure FlushesLikeWriting (draft : Draft) : Prop where
  ordered : sortedByKey draft.deferred.values = draft.deferred.values
  distinct : (draft.deferred.values.map Entry.key).Nodup
  text : (flush.run draft).2.text =
    (performAll { draft with deferred := ∅ } (draft.deferred.values.map .writeEntry)).2.text
  whole : (flush.run draft).1 = .ok () → (flush.run draft).2 =
    (performAll { draft with deferred := ∅ } (draft.deferred.values.map .writeEntry)).2
  first : ∀ step, draft.Flushing step → draft.FlushesFirst step

end Draft

theorem Keyed.indexes {table : Std.TreeMap String Entry} (keyed : Keyed table) :
    Indexes table id table.values := by
  intro key
  rw [Option.map_id]
  refine Option.ext fun entry ↦ ?_
  rw [id, find?_key_eq_some_iff keyed.nodup_values, keyed.mem_values]
  constructor
  · intro held
    have same := keyed key entry held
    exact ⟨same.symm ▸ held, same⟩
  · rintro ⟨held, rfl⟩
    exact held

/-- A flush writes what writing the entries in the order of their keys would. -/
theorem Accounts.flushesLikeWriting {draft : Draft} {ledger : Ledger}
    (accounts : Accounts draft ledger) : draft.FlushesLikeWriting := by
  have distinct := accounts.keyed.nodup_values
  have writing : (Draft.flush.run draft).2.text =
        (Draft.performAll { draft with deferred := ∅ } (draft.deferred.values.map .writeEntry)).2.text ∧
      ((Draft.flush.run draft).1 = .ok () → (Draft.flush.run draft).2 =
        (Draft.performAll { draft with deferred := ∅ } (draft.deferred.values.map .writeEntry)).2) := by
    by_cases closed : draft.current = none
    · have nothing := accounts.attached closed
      have same : { draft with deferred := ∅ } = draft := by rw [← nothing]
      rw [(Draft.flush_of_nothing nothing).2, same, nothing]
      exact ⟨rfl, fun _ ↦ rfl⟩
    · obtain ⟨origin, opened⟩ := Option.ne_none_iff_exists'.1 closed
      have new (entry : Entry) (mem : entry ∈ draft.deferred.values) :
          Draft.accepted? { draft with deferred := ∅ } entry.key = none := by
        rw [Draft.accepted?_eq_none_iff]
        refine ⟨accounts.apart entry.key ?_, Std.TreeMap.not_mem_emptyc⟩
        rw [← Std.TreeMap.isSome_getElem?_iff_mem, accounts.keyed.mem_values.1 mem]
        rfl
      exact @Draft.emitAll_like_writing { draft with deferred := ∅ } origin opened
        draft.deferred.values new distinct
  exact ⟨(accounts.keyed.indexes.values distinct).symm, distinct, writing.1, writing.2,
    fun _ flushing ↦ flushing.flushesFirst accounts.attached⟩

/-! ## Calls between two flushes -/

namespace Draft

variable {draft : Draft} {origin : Origin}

theorem performAll_append (draft : Draft) (calls more : List Call) :
    (draft.performAll (calls ++ more)).2 = ((draft.performAll calls).2.performAll more).2 := by
  induction calls generalizing draft with
  | nil => rfl
  | cons call calls ih => exact ih (call.step.run draft).2

theorem leaves_performAll {calls : List Call} (opened : draft.current = some origin)
    (stays : ∀ call ∈ calls, call.StaysIn origin) :
    (draft.performAll calls).2.current = some origin ∧
      ∀ key, (∀ entry ∈ calls.filterMap Call.entry?, entry.key ≠ key) →
        (draft.performAll calls).2.accepted? key = draft.accepted? key := by
  induction calls generalizing draft with
  | nil => exact ⟨opened, fun _ _ ↦ rfl⟩
  | cons call calls ih =>
    obtain ⟨now, later⟩ := List.forall_mem_cons.1 stays
    obtain ⟨current, known⟩ := leaves_call opened now
    obtain ⟨current_last, known_last⟩ := ih current later
    refine ⟨current_last, fun key apart ↦ (known_last key fun entry mem ↦ ?_).trans
      (known key fun entry has ↦ ?_)⟩
    · obtain ⟨other, held, has⟩ := List.mem_filterMap.1 mem
      exact apart entry (List.mem_filterMap.2 ⟨other, List.mem_cons_of_mem _ held, has⟩)
    · exact apart entry (List.mem_filterMap.2 ⟨call, List.mem_cons_self, has⟩)

theorem deferred_performAll {calls : List Call} (opened : draft.current = some origin)
    (stays : ∀ call ∈ calls, call.StaysIn origin) (immediate : ∀ call ∈ calls, call.defers = false) :
    (draft.performAll calls).2.deferred = draft.deferred := by
  induction calls generalizing draft with
  | nil => rfl
  | cons call calls ih =>
    obtain ⟨now, later⟩ := List.forall_mem_cons.1 stays
    obtain ⟨immediate_now, immediate_later⟩ := List.forall_mem_cons.1 immediate
    exact (ih (leaves_call opened now).1 later immediate_later).trans
      (deferred_call opened now immediate_now)

/-- Entries with new keys that are put off one after the other. -/
theorem performAll_deferEntry (opened : draft.current = some origin) {entries : List Entry}
    (new : ∀ entry ∈ entries, draft.accepted? entry.key = none)
    (distinct : (entries.map Entry.key).Nodup) :
    (draft.performAll (entries.map .deferEntry)).2 =
      { draft with
        deferred := entries.foldl (fun table entry ↦ table.insert entry.key entry) draft.deferred } := by
  induction entries generalizing draft with
  | nil => rfl
  | cons entry entries ih =>
    obtain ⟨new_first, new_others⟩ := List.forall_mem_cons.1 new
    rw [List.map_cons, List.nodup_cons] at distinct
    have put_off : (deferEntry entry).run draft =
        (.ok (), { draft with deferred := draft.deferred.insert entry.key entry }) := by
      rw [run_deferEntry_eq, putOff, admission_eq_ok opened new_first]
    rw [List.map_cons, performAll, Call.step, put_off]
    refine @ih { draft with deferred := draft.deferred.insert entry.key entry } opened
      (fun other mem ↦ ?_) distinct.2
    have apart : entry.key ≠ other.key := fun same ↦ distinct.1 (same ▸ List.mem_map_of_mem mem)
    have known := new_others other mem
    rw [accepted?] at known ⊢
    rwa [getElem?_insert_own, if_neg apart]

/-- Calls behind those that put something off, and the entries that they put off. -/
theorem alike_postponed {calls : List Call} (stretch : Call.Stretch origin calls)
    (opened : draft.current = some origin) :
    (draft.performAll calls).2.Alike
      ((draft.performAll (calls.filter (!·.defers))).2.performAll
        ((calls.filterMap Call.deferred?).map .deferEntry)).2 := by
  rw [← performAll_append]
  exact .of_exchanged ((Call.shuffled_postponed calls).exchanged stretch.distinct) opened stretch.stays

/-- A stretch in which nothing was put off before is flushed: it writes what it writes at once, and then
its other entries in the order of their keys. -/
theorem text_flushed_stretch {calls : List Call} (stretch : Call.Stretch origin calls)
    (opened : draft.current = some origin) (nothing : draft.deferred = ∅)
    (new : ∀ entry ∈ calls.filterMap Call.deferred?, draft.accepted? entry.key = none) :
    (draft.performAll (calls ++ [.flush])).2.text =
      (draft.performAll (calls.filter (!·.defers) ++
        (sortedByKey (calls.filterMap Call.deferred?)).map .writeEntry)).2.text := by
  have stays : ∀ call ∈ calls.filter (!·.defers), call.StaysIn origin :=
    fun call mem ↦ stretch.stays call (List.mem_filter.1 mem).1
  have immediate : ∀ call ∈ calls.filter (!·.defers), call.defers = false :=
    fun call mem ↦ by simpa using (List.mem_filter.1 mem).2
  have alike := alike_postponed stretch opened
  obtain ⟨current, known⟩ := leaves_performAll opened stays
  have emptied := (deferred_performAll opened stays immediate).trans nothing
  have parts := stretch.parts
  rw [performAll_append, performAll_append]
  generalize (draft.performAll (calls.filter (!·.defers))).2 = written
    at alike current known emptied ⊢
  generalize calls.filterMap Call.deferred? = postponed at new alike parts ⊢
  rw [List.map_append, List.nodup_append] at parts
  obtain ⟨-, distinct, apart⟩ := parts
  have new_still : ∀ entry ∈ postponed, written.accepted? entry.key = none := by
    intro entry mem
    rw [known entry.key fun other held ↦
      apart _ (List.mem_map_of_mem held) _ (List.mem_map_of_mem mem)]
    exact new entry mem
  rw [performAll_deferEntry current new_still distinct, emptied] at alike
  have sorted := sortedByKey_perm postponed
  have values : (postponed.foldl (fun table entry ↦ table.insert entry.key entry)
      (∅ : Std.TreeMap String Entry)).values = sortedByKey postponed :=
    ((Indexes.empty id).insertAll distinct).values distinct
  have writing := emitAll_like_writing current
    (fun entry mem ↦ new_still entry (sorted.mem_iff.1 mem))
    ((sorted.map Entry.key).nodup_iff.2 distinct)
  have same : { written with deferred := ∅ } = written := by rw [← emptied]
  calc (flush.run (draft.performAll calls).2).2.text
    _ = ((emitAll (postponed.foldl (fun table entry ↦ table.insert entry.key entry)
          (∅ : Std.TreeMap String Entry)).values).run { written with deferred := ∅ }).2.text :=
      congrArg (·.2.text) alike.run_flush
    _ = ((emitAll (sortedByKey postponed)).run written).2.text := by rw [values, same]
    _ = (written.performAll ((sortedByKey postponed).map .writeEntry)).2.text := writing.1

/-- A section begins with nothing put off. -/
theorem deferred_startFile (closed : draft.current = none) :
    (draft.performAll [.startFile origin]).2.deferred = ∅ := by
  have other : draft.current ≠ some origin := closed ▸ (Option.some_ne_none origin).symm
  rcases draft.startFile_run other with ⟨fault, fails, -⟩ | ⟨-, nothing, -⟩
  · rw [draft.endOpenFile_of_none closed] at fails
    cases fails
  · exact nothing

/-! ## Sections in another order -/

/-- Two drafts write the same: calls answer and write the same in both, and so does the end. -/
structure SameOutput (first second : Draft) : Prop where
  later : ∀ calls, (first.performAll calls).1 = (second.performAll calls).1 ∧
    (first.performAll calls).2.text = (second.performAll calls).2.text
  finished : ∀ calls,
    (finish.run (first.performAll calls).2).1 = (finish.run (second.performAll calls).2).1 ∧
    (finish.run (first.performAll calls).2).2.text = (finish.run (second.performAll calls).2).2.text

theorem Alike.text {first second : Draft} (alike : first.Alike second) : first.text = second.text :=
  congrArg (·.sink.text) alike.page

theorem Alike.sameOutput {first second : Draft} (alike : first.Alike second) :
    first.SameOutput second where
  later calls := by
    obtain ⟨answers, last⟩ := alike.performAll calls
    exact ⟨answers, last.text⟩
  finished calls := by
    obtain ⟨answer, last⟩ := (alike.performAll calls).2.finish
    exact ⟨answer, last.text⟩

/-- Calls of a section in another order lead to drafts that are alike. -/
theorem Alike.of_reordered {calls others : List Call} (reordered : Call.Reordered origin calls others)
    (opened : draft.current = some origin) :
    (draft.performAll calls).2.Alike (draft.performAll others).2 := by
  induction reordered generalizing draft with
  | stretch stretch shuffled =>
    exact .of_exchanged (shuffled.exchanged stretch.distinct) opened stretch.stays
  | @flush calls others rest more stretch shuffled _ ih =>
    have alike := of_exchanged (shuffled.exchanged stretch.distinct) opened stretch.stays
    have current := (leaves_performAll opened stretch.stays).1
    have further := ih ((current_flush _).trans current)
    rw [performAll_append, performAll_append, Draft.performAll, Draft.performAll, Call.step]
    rw [alike.run_flush] at further ⊢
    exact further

end Draft

/-- The output does not depend on when entries are put off. Whatever was called before, on a sink that
may begin to refuse at any point: the calls in a section can be put into another order, between two
flushes and without moving one that puts nothing off past another, and all that is written then and later
is the same. A flush writes what writing its entries at once in the order of their keys writes, and
whatever ends a section flushes it first. So a section in which nothing was put off before writes what it
writes at once, and then its other entries in the order of their keys. -/
theorem deferred_output_ignores_call_order (sink : Sink) (locale : String) (generated : Instant)
    (before : List Call) :
    let draft := ((Draft.start sink locale generated).2.performAll before).2
    draft.FlushesLikeWriting ∧
      ∀ origin, draft.current = some origin →
        (∀ calls others, Call.Reordered origin calls others →
          (draft.performAll calls).2.SameOutput (draft.performAll others).2) ∧
        ∀ calls, Call.Stretch origin calls → draft.deferred = ∅ →
          (∀ entry ∈ calls.filterMap Call.deferred?, draft.accepted? entry.key = none) →
          (draft.performAll (calls ++ [.flush])).2.text =
            (draft.performAll (calls.filter (!·.defers) ++
              (sortedByKey (calls.filterMap Call.deferred?)).map .writeEntry)).2.text := by
  intro draft
  have accounts := (Accounts.start sink locale generated).performAll before
  refine ⟨accounts.flushesLikeWriting, fun origin opened ↦ ⟨fun calls others reordered ↦ ?_,
    fun calls stretch nothing new ↦ Draft.text_flushed_stretch stretch opened nothing new⟩⟩
  exact (Draft.Alike.of_reordered reordered opened).sameOutput

/-- Two entries are put off around one that is written, in either order. -/
theorem deferred_output_ignores_call_order_menu :
    let opening : Entry := { kind := .literal, key := "open", text := "Open", hash := "0" }
    let close : Entry := { kind := .literal, key := "close", text := "Close", hash := "1" }
    let title : Entry := { kind := .literal, key := "title", text := "Menu", hash := "2" }
    let origin : Origin := ⟨"menu.rs", none, none⟩
    let draft := ((Draft.start {} "en" ⟨19844, 43200, 0⟩).2.performAll [.startFile origin]).2
    let calls : List Call := [.deferEntry close, .writeEntry title, .deferEntry opening]
    let others : List Call := [.deferEntry opening, .deferEntry close, .writeEntry title]
    draft.current = some origin ∧ Call.Reordered origin calls others ∧
      (draft.performAll calls).2.SameOutput (draft.performAll others).2 ∧
      (draft.performAll (calls ++ [.flush])).2.text =
        (draft.performAll [.writeEntry title, .writeEntry close, .writeEntry opening]).2.text := by
  intro opening close title origin draft calls others
  have opened : draft.current = some origin := by decide +kernel
  have stretch : Call.Stretch origin calls := by
    refine ⟨fun call mem ↦ ?_, by decide +kernel⟩
    simp only [calls, List.mem_cons, List.not_mem_nil, or_false] at mem
    rcases mem with rfl | rfl | rfl
    · trivial
    · trivial
    · trivial
  have shuffled : Call.Shuffled calls others := ⟨by decide +kernel, by decide +kernel⟩
  have reordered := Call.Reordered.stretch stretch shuffled
  have nothing : draft.deferred = ∅ :=
    @Draft.deferred_startFile (Draft.start {} "en" ⟨19844, 43200, 0⟩).2 origin (by decide +kernel)
  have new : ∀ entry ∈ calls.filterMap Call.deferred?, draft.accepted? entry.key = none := by
    decide +kernel
  have sorted : sortedByKey (calls.filterMap Call.deferred?) = [close, opening] :=
    List.mergeSort_of_pairwise (by decide +kernel)
  obtain ⟨-, sections⟩ :=
    deferred_output_ignores_call_order {} "en" ⟨19844, 43200, 0⟩ [.startFile origin]
  obtain ⟨same, flushed⟩ := sections origin opened
  have text := flushed calls stretch nothing new
  rw [sorted] at text
  exact ⟨opened, reordered, same calls others reordered, text⟩

end Phrasebook.Document
