import Phrasebook.Proofs.Document.Ledger
import Phrasebook.Proofs.Document.Reordering
import Phrasebook.Proofs.Document.Uniqueness

/-!
# Drafts that differ in the shape of a table

What two neighbouring calls leave behind in either order, one of which puts an entry off, differs in the
shape of a table alone. Nothing that is done to a draft can tell two tables apart that hold the same: steps
that write do not look at what is put off, entries are looked up by their keys, and a flush goes through
the entries in the order of their keys.
-/

namespace Phrasebook.Document

open Phrasebook.Calendar Phrasebook.Markup

namespace Draft

/-! ## Steps that write -/

/-- The step neither looks at the entries that are put off nor changes them. -/
def Indifferent (step : DraftM Unit) : Prop :=
  ∀ (draft : Draft) (table : Std.TreeMap String Entry), step.run { draft with deferred := table } =
    ((step.run draft).1, { (step.run draft).2 with deferred := table })

theorem Indifferent.bind {step next : DraftM Unit} (first : Indifferent step)
    (rest : Indifferent next) : Indifferent (step >>= fun _ ↦ next) := by
  intro draft table
  have framed := first draft table
  generalize ran : step.run draft = outcome at framed
  obtain ⟨result, after⟩ := outcome
  cases result with
  | error fault => simp [framed, ran]
  | ok done => simp [framed, ran, rest after table]

theorem indifferent_writeItem (item : Item) : Indifferent (writeItem item) := by
  intro draft table
  rw [run_writeItem_eq, run_writeItem_eq]

theorem indifferent_writeItems (items : List Item) : Indifferent (writeItems items) := by
  induction items with
  | nil => exact fun _ _ ↦ rfl
  | cons item items ih => exact (indifferent_writeItem item).bind ih

theorem indifferent_comment (text : String) : Indifferent (comment text) := indifferent_writeItem _

theorem indifferent_emit (entry : Entry) : Indifferent (emit entry) := by
  rw [emit_eq]
  exact indifferent_writeItems entry.spelling

theorem indifferent_note (entry : Entry) : Indifferent (note entry) := fun _ _ ↦ rfl

theorem indifferent_writePlain (text : String) : Indifferent (writePlain text) := by
  intro draft table
  cases accepted : (draft.page.sink.write text).1 with
  | true => simp [writePlain, accepted]
  | false => simp [writePlain, accepted]

/-! ## Entries that are admitted -/

theorem admission_congr {draft other : Draft} {entry : Entry}
    (current : draft.current = other.current)
    (accepted : draft.accepted? entry.key = other.accepted? entry.key) :
    draft.admission entry = other.admission entry := by
  rw [admission, admission, current, accepted]

/-- The draft with an entry put off, if it is admitted. -/
def putOff (draft : Draft) (entry : Entry) : Draft :=
  match draft.admission entry with
  | .ok _ => { draft with deferred := draft.deferred.insert entry.key entry }
  | .error _ => draft

theorem run_deferEntry_eq (draft : Draft) (entry : Entry) :
    (deferEntry entry).run draft = (draft.admission entry, draft.putOff entry) := by
  rw [putOff]
  cases admitted : draft.admission entry with
  | error fault => simp [deferEntry, admitted]
  | ok done => simp [deferEntry, admitted]

theorem putOff_eq (draft : Draft) (entry : Entry) :
    ∃ table, draft.putOff entry = { draft with deferred := table } ∧
      ∀ key, entry.key ≠ key → table[key]? = draft.deferred[key]? := by
  rw [putOff]
  split
  · refine ⟨_, rfl, fun key other ↦ ?_⟩
    rw [getElem?_insert_own, if_neg other]
  · exact ⟨draft.deferred, rfl, fun _ _ ↦ rfl⟩

theorem run_writeEntry_framed {draft : Draft} {table : Std.TreeMap String Entry} {entry : Entry}
    (same : table[entry.key]? = draft.deferred[entry.key]?) :
    (writeEntry entry).run { draft with deferred := table } =
      (((writeEntry entry).run draft).1,
        { ((writeEntry entry).run draft).2 with deferred := table }) := by
  have admits : admission { draft with deferred := table } entry = draft.admission entry :=
    admission_congr rfl (by rw [accepted?, accepted?, same])
  cases admitted : draft.admission entry with
  | error fault => simp [writeEntry, admits, admitted]
  | ok done =>
    have written := (indifferent_emit entry).bind (indifferent_note entry) draft table
    simpa [writeEntry, admits, admitted] using written

/-! ## Drafts that differ in the shape of a table -/

/-- Two drafts that hold the same, though not necessarily in tables of the same shape. -/
structure Alike (first second : Draft) : Prop where
  page : first.page = second.page
  current : first.current = second.current
  written : first.written = second.written
  deferred : first.deferred.Equiv second.deferred

namespace Alike

variable {first second third : Draft}

theorem refl (draft : Draft) : draft.Alike draft := ⟨rfl, rfl, rfl, .rfl⟩

theorem of_eq (same : first = second) : first.Alike second := same ▸ .refl first

theorem symm (alike : first.Alike second) : second.Alike first :=
  ⟨alike.page.symm, alike.current.symm, alike.written.symm, alike.deferred.symm⟩

theorem trans (alike : first.Alike second) (other : second.Alike third) : first.Alike third :=
  ⟨alike.page.trans other.page, alike.current.trans other.current, alike.written.trans other.written,
    alike.deferred.trans other.deferred⟩

theorem eq_with (alike : first.Alike second) :
    second = { first with deferred := second.deferred } := by
  obtain ⟨page, current, written, -⟩ := alike
  rw [page, current, written]

theorem with_table (draft : Draft) {table other : Std.TreeMap String Entry}
    (same : table.Equiv other) :
    Alike { draft with deferred := table } { draft with deferred := other } := ⟨rfl, rfl, rfl, same⟩

theorem emptied (alike : first.Alike second) :
    { first with deferred := ∅ } = { second with deferred := ∅ } := by
  rw [alike.page, alike.current, alike.written]

theorem accepted? (alike : first.Alike second) (key : String) :
    first.accepted? key = second.accepted? key := by
  rw [Draft.accepted?, Draft.accepted?, alike.written, alike.deferred.getElem?_eq]

theorem admission (alike : first.Alike second) (entry : Entry) :
    first.admission entry = second.admission entry :=
  admission_congr alike.current (alike.accepted? entry.key)

theorem indifferent (alike : first.Alike second) {step : DraftM Unit} (indifferent : Indifferent step) :
    (step.run first).1 = (step.run second).1 ∧ (step.run first).2.Alike (step.run second).2 := by
  rw [alike.eq_with, indifferent first second.deferred]
  refine ⟨rfl, ?_⟩
  have own : (step.run first).2 = { (step.run first).2 with deferred := first.deferred } :=
    congrArg Prod.snd (indifferent first first.deferred)
  rw [own]
  exact .with_table _ alike.deferred

theorem writeEntry (alike : first.Alike second) (entry : Entry) :
    ((Draft.writeEntry entry).run first).1 = ((Draft.writeEntry entry).run second).1 ∧
      ((Draft.writeEntry entry).run first).2.Alike ((Draft.writeEntry entry).run second).2 := by
  rw [alike.eq_with, run_writeEntry_framed alike.deferred.symm.getElem?_eq]
  refine ⟨rfl, ?_⟩
  have own : ((Draft.writeEntry entry).run first).2 =
      { ((Draft.writeEntry entry).run first).2 with deferred := first.deferred } :=
    congrArg Prod.snd (@run_writeEntry_framed first first.deferred entry rfl)
  rw [own]
  exact .with_table _ alike.deferred

theorem putOff (alike : first.Alike second) (entry : Entry) :
    (first.putOff entry).Alike (second.putOff entry) := by
  rw [Draft.putOff, Draft.putOff, alike.admission]
  split
  · exact ⟨alike.page, alike.current, alike.written, alike.deferred.insert _ _⟩
  · exact alike

/-- What is flushed leaves nothing of the table. -/
theorem run_flush (alike : first.Alike second) : Draft.flush.run first = Draft.flush.run second := by
  rw [Draft.flush_eq_emitAll, Draft.flush_eq_emitAll, alike.emptied, alike.deferred.values_eq]

theorem run_endFile (alike : first.Alike second) :
    Draft.endFile.run first = Draft.endFile.run second := run_bind_congr alike.run_flush _

/-- What ends the open section leaves nothing of the table, unless none is open. -/
theorem run_endOpenFile (alike : first.Alike second) :
    Draft.endOpenFile.run first = Draft.endOpenFile.run second ∨
      Draft.endOpenFile.run first = (.ok (), first) ∧
        Draft.endOpenFile.run second = (.ok (), second) := by
  by_cases closed : first.current = none
  · exact .inr ⟨first.endOpenFile_of_none closed, second.endOpenFile_of_none (alike.current ▸ closed)⟩
  · left
    rw [first.endOpenFile_of_ne_none closed, second.endOpenFile_of_ne_none (alike.current ▸ closed)]
    exact alike.run_endFile

theorem startFile (alike : first.Alike second) (origin : Origin) :
    ((Draft.startFile origin).run first).1 = ((Draft.startFile origin).run second).1 ∧
      ((Draft.startFile origin).run first).2.Alike ((Draft.startFile origin).run second).2 := by
  rw [Draft.startFile, run_get_bind, run_get_bind, ← alike.current]
  by_cases same : first.current = some origin
  · rw [if_neg (not_not_intro same)]
    exact ⟨rfl, alike⟩
  · rw [if_pos same]
    rcases alike.run_endOpenFile with equal | ⟨ended, ended'⟩
    · rw [run_bind_congr equal]
      exact ⟨rfl, .refl _⟩
    · have cleared : { first with written := ∅, deferred := ∅ } =
          ({ second with written := ∅, deferred := ∅ } : Draft) := by
        rw [alike.page, alike.current]
      rw [run_bind_of_ok ended, run_bind_of_ok ended', run_modify_bind, run_modify_bind, cleared]
      exact ⟨rfl, .refl _⟩

/-- Drafts that are alike answer a call alike and stay alike. -/
theorem call (alike : first.Alike second) (call : Call) :
    (call.step.run first).1 = (call.step.run second).1 ∧
      (call.step.run first).2.Alike (call.step.run second).2 := by
  cases call with
  | startFile origin => exact alike.startFile origin
  | writeEntry entry => exact alike.writeEntry entry
  | deferEntry entry =>
    rw [Call.step, run_deferEntry_eq, run_deferEntry_eq]
    exact ⟨alike.admission entry, alike.putOff entry⟩
  | flush => exact ⟨congrArg Prod.fst alike.run_flush, .of_eq (congrArg Prod.snd alike.run_flush)⟩
  | endFile => exact ⟨congrArg Prod.fst alike.run_endFile, .of_eq (congrArg Prod.snd alike.run_endFile)⟩
  | comment text => exact alike.indifferent (indifferent_comment text)

theorem performAll (alike : first.Alike second) (calls : List Call) :
    (first.performAll calls).1 = (second.performAll calls).1 ∧
      (first.performAll calls).2.Alike (second.performAll calls).2 := by
  induction calls generalizing first second with
  | nil => exact ⟨rfl, alike⟩
  | cons call calls ih =>
    obtain ⟨answer, next⟩ := alike.call call
    obtain ⟨answers, last⟩ := ih next
    exact ⟨congrArg₂ List.cons answer answers, last⟩

theorem finish (alike : first.Alike second) :
    (Draft.finish.run first).1 = (Draft.finish.run second).1 ∧
      (Draft.finish.run first).2.Alike (Draft.finish.run second).2 := by
  rw [Draft.finish]
  rcases alike.run_endOpenFile with equal | ⟨ended, ended'⟩
  · rw [run_bind_congr equal]
    exact ⟨rfl, .refl _⟩
  · rw [run_bind_of_ok ended, run_bind_of_ok ended']
    exact alike.indifferent ((indifferent_writeItem _).bind (indifferent_writePlain _))

end Alike

/-! ## Neighbours that change places -/

variable {draft : Draft} {origin : Origin} {call : Call}

/-- What a call in a section leaves as it was: the open section, and what is known of other keys. -/
theorem leaves_call (opened : draft.current = some origin) (stays : call.StaysIn origin) :
    (call.step.run draft).2.current = some origin ∧
      ∀ key, (∀ entry ∈ call.entry?, entry.key ≠ key) →
        (call.step.run draft).2.accepted? key = draft.accepted? key := by
  cases call with
  | startFile other =>
    have same : other = origin := stays
    rw [Call.step, draft.startFile_of_open (same ▸ opened)]
    exact ⟨opened, fun _ _ ↦ rfl⟩
  | flush | endFile => exact stays.elim
  | deferEntry entry =>
    obtain ⟨table, state, others⟩ := draft.putOff_eq entry
    rw [Call.step, run_deferEntry_eq, state]
    refine ⟨opened, fun key apart ↦ ?_⟩
    rw [accepted?, accepted?, others key (apart entry rfl)]
  | comment text =>
    rw [Call.step, (draft.writes_comment text).state]
    exact ⟨opened, fun _ _ ↦ rfl⟩
  | writeEntry entry =>
    rw [Call.step]
    cases admitted : draft.admission entry with
    | error fault => simp [writeEntry, admitted, opened]
    | ok done =>
      have checked := (draft.run_checkUnique_eq entry).trans (by rw [admitted])
      rw [writeEntry, run_bind_of_ok checked]
      rcases (draft.writes_emit entry).bind _ with ⟨fault, page, -, ran⟩ | ⟨page, -, ran⟩
      · rw [ran]
        exact ⟨opened, fun _ _ ↦ rfl⟩
      · rw [ran]
        refine ⟨opened, fun key apart ↦ ?_⟩
        have unnoted : (draft.written.insert entry.key entry.text)[key]? = draft.written[key]? := by
          rw [Std.TreeMap.getElem?_insert, if_neg]
          exact fun same ↦ apart entry rfl (Std.LawfulEqOrd.compare_eq_iff_eq.1 same)
        exact congrArg (· <|> (draft.deferred[key]?.map Entry.text)) unnoted

/-- A call in a section that puts nothing off looks at what is put off under its own key alone. -/
theorem run_call_framed (opened : draft.current = some origin) (stays : call.StaysIn origin)
    (immediate : call.defers = false) {table : Std.TreeMap String Entry}
    (same : ∀ entry ∈ call.entry?, table[entry.key]? = draft.deferred[entry.key]?) :
    call.step.run { draft with deferred := table } =
      ((call.step.run draft).1, { (call.step.run draft).2 with deferred := table }) := by
  cases call with
  | startFile other =>
    have same : other = origin := stays
    rw [Call.step, draft.startFile_of_open (same ▸ opened), startFile_of_open _ (same ▸ opened)]
  | flush | endFile => exact stays.elim
  | deferEntry entry => cases immediate
  | comment text => exact indifferent_comment text draft table
  | writeEntry entry => exact run_writeEntry_framed (same entry rfl)

theorem deferred_call (opened : draft.current = some origin) (stays : call.StaysIn origin)
    (immediate : call.defers = false) : (call.step.run draft).2.deferred = draft.deferred :=
  congrArg (fun outcome ↦ outcome.2.deferred)
    (@run_call_framed draft origin call opened stays immediate draft.deferred fun _ _ ↦ rfl)

theorem admission_putOff (draft : Draft) {entry other : Entry} (apart : entry.key ≠ other.key) :
    (draft.putOff entry).admission other = draft.admission other := by
  obtain ⟨table, state, others⟩ := draft.putOff_eq entry
  rw [state]
  refine admission_congr rfl ?_
  rw [accepted?, accepted?, others _ apart]

/-- Entries with different keys are put off in either order. -/
theorem putOff_comm (draft : Draft) {entry other : Entry} (apart : entry.key ≠ other.key) :
    ((draft.putOff entry).putOff other).Alike ((draft.putOff other).putOff entry) := by
  have admits := draft.admission_putOff apart
  have admits' := draft.admission_putOff apart.symm
  rw [putOff, putOff.eq_def (draft.putOff other), admits, admits']
  cases first : draft.admission entry with
  | error fault =>
    cases second : draft.admission other with
    | error fault =>
      rw [putOff, putOff, first, second]
      exact .refl draft
    | ok done =>
      rw [putOff, putOff, first, second]
      exact .refl _
  | ok done =>
    cases second : draft.admission other with
    | error fault =>
      rw [putOff, putOff, first, second]
      exact .refl _
    | ok done =>
      rw [putOff, putOff, first, second]
      refine .with_table draft (.of_forall_constGet?_eq fun key ↦ ?_)
      simp only [getElem?_insert_own]
      by_cases here : other.key = key
      · rw [if_pos here, if_neg (here ▸ apart), if_pos here]
      · rw [if_neg here, if_neg here]

/-- An entry can as well be put off behind another call as in front of it. -/
theorem call_putOff (opened : draft.current = some origin) (stays : call.StaysIn origin)
    {entry : Entry} (apart : ∀ other ∈ call.entry?, other.key ≠ entry.key) :
    (call.step.run (draft.putOff entry)).2.Alike ((call.step.run draft).2.putOff entry) := by
  cases immediate : call.defers with
  | true =>
    obtain ⟨other, rfl⟩ := Call.exists_of_defers immediate
    rw [Call.step, run_deferEntry_eq, run_deferEntry_eq]
    exact draft.putOff_comm (apart other rfl).symm
  | false =>
    obtain ⟨current, accepted⟩ := leaves_call opened stays
    have admission : (call.step.run draft).2.admission entry = draft.admission entry :=
      admission_congr (current.trans opened.symm) (accepted entry.key apart)
    obtain ⟨table, state, others⟩ := draft.putOff_eq entry
    have framed := run_call_framed opened stays immediate fun other has ↦
      others other.key (apart other has).symm
    have deferred := deferred_call opened stays immediate
    rw [putOff] at state
    rw [putOff, putOff, admission, deferred]
    cases admitted : draft.admission entry with
    | error fault => exact .refl _
    | ok done =>
      rw [admitted] at state
      have held : draft.deferred.insert entry.key entry = table := congrArg Draft.deferred state
      dsimp only
      rw [held, framed]
      exact .refl _

/-- An entry that is put off changes places with an independent call. -/
theorem alike_of_defers {first second : Call} (opened : draft.current = some origin)
    (stays : second.StaysIn origin) (independent : first.Independent second)
    (defers : first.defers = true) :
    (second.step.run (first.step.run draft).2).2.Alike
      (first.step.run (second.step.run draft).2).2 := by
  obtain ⟨entry, rfl⟩ := Call.exists_of_defers defers
  have moved := call_putOff opened stays fun other has ↦ (independent.apart entry rfl other has).symm
  rw [Call.step, run_deferEntry_eq, run_deferEntry_eq]
  exact moved

/-- Calls in a section leave the same behind when neighbours that are independent change places. -/
theorem Alike.of_exchanged {calls others : List Call} (exchanged : Call.Exchanged calls others)
    (opened : draft.current = some origin) (stays : ∀ call ∈ calls, call.StaysIn origin) :
    (draft.performAll calls).2.Alike (draft.performAll others).2 := by
  induction exchanged generalizing draft with
  | refl calls => exact .refl _
  | cons call rest ih =>
    obtain ⟨now, later⟩ := List.forall_mem_cons.1 stays
    exact ih (leaves_call opened now).1 later
  | trans exchanged _ ih ih' =>
    have still := fun call mem ↦ stays call (exchanged.perm.mem_iff.2 mem)
    exact (ih opened stays).trans (ih' opened still)
  | @swap first second independent rest =>
    have here := stays first List.mem_cons_self
    have there := stays second (List.mem_cons_of_mem _ List.mem_cons_self)
    have alike : (second.step.run (first.step.run draft).2).2.Alike
        (first.step.run (second.step.run draft).2).2 := by
      rcases independent.defers with defers | defers
      · exact alike_of_defers opened there independent defers
      · exact (alike_of_defers opened here independent.symm defers).symm
    exact (alike.performAll rest).2

end Draft

end Phrasebook.Document
