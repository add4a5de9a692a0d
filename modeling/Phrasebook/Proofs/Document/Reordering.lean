import Phrasebook.Proofs.Document.Outline

/-!
# Calls in another order

Two calls that have no key in common, one of which puts an entry off, can change places. Every order of a
stretch of calls with different keys comes about in this way, as long as those that put nothing off keep
the order they have among themselves.
-/

namespace Phrasebook.Document

namespace Call

def deferred? : Call → Option Entry
  | deferEntry entry => some entry
  | startFile _ | writeEntry _ | flush | endFile | comment _ => none

def entry? : Call → Option Entry
  | writeEntry entry | deferEntry entry => some entry
  | startFile _ | flush | endFile | comment _ => none

def defers (call : Call) : Bool := call.deferred?.isSome

theorem exists_of_defers {call : Call} (defers : call.defers = true) :
    ∃ entry, call = .deferEntry entry := by
  cases call with
  | deferEntry entry => exact ⟨entry, rfl⟩
  | startFile _ | writeEntry _ | flush | endFile | comment _ => cases defers

/-- The call neither flushes nor ends the section that is open. -/
def StaysIn (origin : Origin) : Call → Prop
  | startFile other => other = origin
  | flush | endFile => False
  | writeEntry _ | deferEntry _ | comment _ => True

/-- Two calls that can change places: one of them puts an entry off, and they have no key in common. -/
structure Independent (first second : Call) : Prop where
  defers : first.defers = true ∨ second.defers = true
  apart : ∀ entry ∈ first.entry?, ∀ other ∈ second.entry?, entry.key ≠ other.key

theorem Independent.symm {first second : Call} (independent : first.Independent second) :
    second.Independent first where
  defers := independent.defers.symm
  apart entry mem other mem' := (independent.apart other mem' entry mem).symm

/-- Calls that neither flush nor end the section that is open, and no two of which have a key in
common. -/
structure Stretch (origin : Origin) (calls : List Call) : Prop where
  stays : ∀ call ∈ calls, call.StaysIn origin
  distinct : ((calls.filterMap entry?).map Entry.key).Nodup

/-- The same calls in another order, with those that put nothing off in the order they had. -/
structure Shuffled (calls others : List Call) : Prop where
  perm : calls.Perm others
  immediate : calls.filter (!·.defers) = others.filter (!·.defers)

theorem filter_defers (calls : List Call) :
    calls.filter (·.defers) = (calls.filterMap deferred?).map .deferEntry := by
  induction calls with
  | nil => rfl
  | cons call calls ih =>
    cases call with
    | deferEntry entry => exact congrArg (Call.deferEntry entry :: ·) ih
    | startFile _ | writeEntry _ | flush | endFile | comment _ => exact ih

/-- Everything that a stretch puts off can be put off at its end. -/
theorem shuffled_postponed (calls : List Call) :
    Shuffled calls (calls.filter (!·.defers) ++ (calls.filterMap deferred?).map .deferEntry) := by
  rw [← filter_defers]
  constructor
  · have split := List.filter_append_perm (·.defers) calls
    exact split.symm.trans List.perm_append_comm
  · have none_left : (calls.filter (·.defers)).filter (!·.defers) = [] := by
      rw [List.filter_eq_nil_iff]
      intro call mem
      simp [(List.mem_filter.1 mem).2]
    rw [List.filter_append, none_left, List.append_nil, List.filter_filter]
    simp only [Bool.and_self]

/-- What a stretch writes and what it puts off have no key in common. -/
theorem Stretch.parts {origin : Origin} {calls : List Call} (stretch : Stretch origin calls) :
    (((calls.filter (!·.defers)).filterMap entry? ++ calls.filterMap deferred?).map
      Entry.key).Nodup := by
  have perm := (shuffled_postponed calls).perm.filterMap entry?
  have own : entry? ∘ deferEntry = some := rfl
  rw [List.filterMap_append, List.filterMap_map, own, List.filterMap_some] at perm
  exact (perm.map Entry.key).nodup_iff.1 stretch.distinct

/-- The calls in a section are put into another order: each stretch between two flushes in itself. -/
inductive Reordered (origin : Origin) : List Call → List Call → Prop
  | stretch {calls others : List Call} (stretch : Stretch origin calls)
    (shuffled : Shuffled calls others) : Reordered origin calls others
  | flush {calls others rest more : List Call} (stretch : Stretch origin calls)
    (shuffled : Shuffled calls others) (further : Reordered origin rest more) :
    Reordered origin (calls ++ .flush :: rest) (others ++ .flush :: more)

/-- Calls that come from others by exchanging neighbours. -/
inductive Exchanged : List Call → List Call → Prop
  | refl (calls : List Call) : Exchanged calls calls
  | cons (call : Call) {calls others : List Call} (rest : Exchanged calls others) :
    Exchanged (call :: calls) (call :: others)
  | swap {first second : Call} (independent : first.Independent second) (rest : List Call) :
    Exchanged (first :: second :: rest) (second :: first :: rest)
  | trans {calls middle others : List Call} (first : Exchanged calls middle)
    (second : Exchanged middle others) : Exchanged calls others

theorem Exchanged.perm {calls others : List Call} (exchanged : Exchanged calls others) :
    calls.Perm others := by
  induction exchanged with
  | refl calls => exact .refl calls
  | cons call _ ih => exact ih.cons call
  | @swap first second _ rest => exact .swap second first rest
  | trans _ _ ih ih' => exact ih.trans ih'

/-- A call moves in front of calls that it is independent of. -/
theorem Exchanged.front {call : Call} {front : List Call} (back : List Call)
    (independent : ∀ other ∈ front, call.Independent other) :
    Exchanged (call :: (front ++ back)) (front ++ call :: back) := by
  induction front with
  | nil => exact .refl _
  | cons first front ih =>
    obtain ⟨now, later⟩ := List.forall_mem_cons.1 independent
    exact (Exchanged.swap now _).trans ((ih later).cons first)

theorem key_mem_of_mem {calls : List Call} {call : Call} {entry : Entry} (mem : call ∈ calls)
    (has : entry ∈ call.entry?) : entry.key ∈ (calls.filterMap entry?).map Entry.key :=
  List.mem_map_of_mem (List.mem_filterMap.2 ⟨call, mem, has⟩)

/-- A call with a key of its own among others has no key in common with any of them. -/
theorem apart_of_distinct {call : Call} {calls : List Call}
    (distinct : (((call :: calls).filterMap entry?).map Entry.key).Nodup) {other : Call}
    (mem : other ∈ calls) :
    ∀ entry ∈ call.entry?, ∀ another ∈ other.entry?, entry.key ≠ another.key := by
  intro entry has another has' same
  rw [List.filterMap_cons_some has, List.map_cons, List.nodup_cons, same] at distinct
  exact distinct.1 (key_mem_of_mem mem has')

/-- Where the calls that put nothing off keep their order, the first of them moves only in front of
calls that put something off. -/
theorem Shuffled.front {call : Call} {calls front back : List Call}
    (shuffled : Shuffled (call :: calls) (front ++ call :: back)) (first : call ∉ front) :
    (∀ other ∈ front, call.defers = true ∨ other.defers = true) ∧ Shuffled calls (front ++ back) := by
  have perm : calls.Perm (front ++ back) := (shuffled.perm.trans List.perm_middle).cons_inv
  have immediate := shuffled.immediate
  rw [List.filter_append] at immediate
  cases defers : call.defers with
  | true =>
    rw [List.filter_cons_of_neg (by simp [defers]), List.filter_cons_of_neg (by simp [defers]),
      ← List.filter_append] at immediate
    exact ⟨fun _ _ ↦ .inl rfl, perm, immediate⟩
  | false =>
    rw [List.filter_cons_of_pos (by simp [defers]), List.filter_cons_of_pos (by simp [defers])]
      at immediate
    cases others : front.filter (!·.defers) with
    | nil =>
      rw [others] at immediate
      refine ⟨fun other mem ↦ .inr ?_, perm, ?_⟩
      · simpa using List.filter_eq_nil_iff.1 others other mem
      · rw [List.filter_append, others]
        exact (List.cons.inj immediate).2
    | cons other rest =>
      rw [others] at immediate
      have mem : other ∈ front.filter (!·.defers) := others ▸ List.mem_cons_self
      rw [← (List.cons.inj immediate).1] at mem
      exact absurd (List.mem_filter.1 mem).1 first

/-- Every order of calls with different keys comes about by exchanging neighbours. -/
theorem Shuffled.exchanged {calls others : List Call} (shuffled : Shuffled calls others)
    (distinct : ((calls.filterMap entry?).map Entry.key).Nodup) : Exchanged calls others := by
  induction calls generalizing others with
  | nil =>
    rw [List.nil_perm.1 shuffled.perm]
    exact .refl []
  | cons call calls ih =>
    have mem : call ∈ others := shuffled.perm.mem_iff.1 List.mem_cons_self
    obtain ⟨front, back, rfl, first⟩ := List.eq_append_cons_of_mem mem
    obtain ⟨defers, rest⟩ := shuffled.front first
    have moved := Exchanged.front back fun other held ↦ ⟨defers other held,
      apart_of_distinct distinct (rest.perm.mem_iff.2 (List.mem_append_left back held))⟩
    have others_distinct : ((calls.filterMap entry?).map Entry.key).Nodup :=
      distinct.sublist (((List.sublist_cons_self call calls).filterMap entry?).map Entry.key)
    exact ((ih rest others_distinct).cons call).trans moved

end Call

end Phrasebook.Document
