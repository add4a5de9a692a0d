import Mathlib.Logic.Relation
import Phrasebook.Proofs.Library.Lookup

/-!
# Fallbacks without cycles

A table may be given another as its fallback at any time, and the chains that went through it change
with it. Before that happens the chain of the proposed fallback is walked, and a table that would be
found there is refused. The walk ends because no chain comes back to where it was, and no chain ever
does because the walk looks at all of it: both are one invariant, that every chain comes to a table
without a fallback.
-/

namespace Phrasebook.Library

def Asks (library : Library) (id next : TableId) : Prop := (library.table id).fallback = some next

/-- Every chain of fallbacks comes to an end. -/
def Grounded (library : Library) : Prop := ∀ id, ∃ path, library.FallsBack id path

section

variable {library before after : Library} {id other next : TableId} {path rest : List TableId}

theorem FallsBack.tail (falls : library.FallsBack id path) (asks : library.Asks id next) :
    ∃ rest, path = id :: rest ∧ library.FallsBack next rest := by
  cases falls with
  | last none_left =>
    rw [Asks, none_left] at asks
    cases asks
  | @next _ further rest fallback falls =>
    rw [Asks, fallback] at asks
    cases asks
    exact ⟨rest, rfl, falls⟩

/-- Whoever is asked later has the shorter chain. -/
theorem Grounded.length_lt (grounded : library.Grounded)
    (asks : Relation.TransGen library.Asks id other) (falls : library.FallsBack id path)
    (later : library.FallsBack other rest) : rest.length < path.length := by
  induction asks generalizing rest with
  | single asks =>
    obtain ⟨tail, rfl, first⟩ := falls.tail asks
    rw [first.unique later]
    exact Nat.lt_succ_self _
  | @tail middle last _ asks ih =>
    obtain ⟨further, middle_falls⟩ := grounded middle
    obtain ⟨tail, rfl, second⟩ := middle_falls.tail asks
    rw [← second.unique later]
    exact Nat.lt_of_succ_lt (ih middle_falls)

theorem Grounded.acyclic (grounded : library.Grounded) (id : TableId) :
    ¬ Relation.TransGen library.Asks id id := by
  intro cycle
  obtain ⟨path, falls⟩ := grounded id
  exact Nat.lt_irrefl _ (grounded.length_lt cycle falls falls)

theorem grounded_of_bare (bare : ∀ id, (library.table id).fallback = none) : library.Grounded :=
  fun id ↦ ⟨[id], .last (bare id)⟩

/-! ## A fallback changes -/

/-- The fallbacks are the same, except for the one of a table. -/
def RewiredAt (id : TableId) (before after : Library) : Prop :=
  ∀ other, other ≠ id → (after.table other).fallback = (before.table other).fallback

/-- A chain that the table is not on is what it was. -/
theorem FallsBack.rewired (falls : before.FallsBack other path) (wired : RewiredAt id before after)
    (away : id ∉ path) : after.FallsBack other path := by
  induction falls with
  | @last other none_left =>
    have apart : other ≠ id := Ne.symm (List.ne_of_not_mem_cons away)
    exact .last ((wired other apart).trans none_left)
  | @next other next path fallback _ ih =>
    have apart : other ≠ id := Ne.symm (List.ne_of_not_mem_cons away)
    exact .next ((wired other apart).trans fallback) (ih (List.not_mem_of_not_mem_cons away))

/-- A chain that the table is on goes from there along the new chain of the table. -/
theorem Grounded.rewired (grounded : before.Grounded) (wired : RewiredAt id before after)
    (anew : ∃ path, after.FallsBack id path) : after.Grounded := by
  intro start
  obtain ⟨path, falls⟩ := grounded start
  induction falls with
  | @last other none_left =>
    by_cases same : other = id
    · rw [same]
      exact anew
    · exact ⟨[other], .last ((wired other same).trans none_left)⟩
  | @next other next path fallback _ ih =>
    by_cases same : other = id
    · rw [same]
      exact anew
    · obtain ⟨rest, falls⟩ := ih
      exact ⟨other :: rest, .next ((wired other same).trans fallback) falls⟩

theorem setFallback_run_none (id : TableId) (library : Library) :
    (setFallback id none).run library =
      (.ok (), modifyTable id (fun table ↦ { table with fallback := none }) library) := rfl

theorem setFallback_run_of_mem (falls : library.FallsBack next path) (mem : id ∈ path) :
    (setFallback id (some next)).run library =
      (.error (.fallbackCycle (library.table id).name (library.table next).name), library) := by
  simp [setFallback, falls.lookupPath_eq, mem]

theorem setFallback_run_of_not_mem (falls : library.FallsBack next path) (away : id ∉ path) :
    (setFallback id (some next)).run library =
      (.ok (), modifyTable id (fun table ↦ { table with fallback := some next }) library) := by
  simp [setFallback, falls.lookupPath_eq, away]

theorem fallback_modifyTable (known : id ∈ library.tables) (fallback : Option TableId)
    (other : TableId) :
    ((modifyTable id (fun table ↦ { table with fallback := fallback }) library).table
      other).fallback = if other = id then fallback else (library.table other).fallback := by
  by_cases same : other = id
  · simp [same, known]
  · simp [same]

theorem rewiredAt_modifyTable (id : TableId) (f : Table → Table) (library : Library) :
    RewiredAt id library (modifyTable id f library) :=
  fun other apart ↦ by simp [apart]

/-- No call turns a chain of fallbacks into a circle. -/
theorem Grounded.setFallback (grounded : library.Grounded) (id : TableId)
    (fallback : Option TableId) :
    ((Library.setFallback id fallback).run library).2.Grounded := by
  cases fallback with
  | none =>
    have wired := rewiredAt_modifyTable id (fun table ↦ { table with fallback := none }) library
    rw [setFallback_run_none]
    refine grounded.rewired wired ⟨[id], .last ?_⟩
    by_cases known : id ∈ library.tables
    · simp [known]
    · simp [known]
  | some next =>
    obtain ⟨path, falls⟩ := grounded next
    by_cases mem : id ∈ path
    · rw [setFallback_run_of_mem falls mem]
      exact grounded
    · have wired :=
        rewiredAt_modifyTable id (fun table ↦ { table with fallback := some next }) library
      rw [setFallback_run_of_not_mem falls mem]
      refine grounded.rewired wired ?_
      by_cases known : id ∈ library.tables
      · have asks := fallback_modifyTable known (some next) id
        rw [if_pos rfl] at asks
        exact ⟨id :: path, .next asks (falls.rewired wired mem)⟩
      · refine ⟨[id], .last ?_⟩
        simp [known]

theorem Grounded.adding (grounded : library.Grounded) (name : String) (relays : Bool) :
    (library.adding name relays).Grounded := by
  have wired : RewiredAt library.nextTable library (library.adding name relays) :=
    fun other apart ↦ by simp [apart]
  exact grounded.rewired wired ⟨[library.nextTable], .last (by simp)⟩

end

/-! ## Sequences of calls -/

inductive FallbackCall where
  /-- A table is made, without a fallback. -/
  | create (name : String) (relays : Bool)
  /-- A table is given a fallback, or its fallback is taken away. -/
  | setFallback (id : TableId) (fallback : Option TableId)

def FallbackCall.perform : FallbackCall → LibraryM Unit
  | .create name relays => do
    let _ ← addTable name relays
  | .setFallback id fallback => do
    let _ ← Library.setFallback id fallback

def afterCalls (library : Library) (calls : List FallbackCall) : Library :=
  calls.foldl (fun library call ↦ (call.perform.run library).2) library

theorem Grounded.call {library : Library} (grounded : library.Grounded) (call : FallbackCall) :
    (call.perform.run library).2.Grounded := by
  cases call with
  | create name relays => exact grounded.adding name relays
  | setFallback id fallback => exact grounded.setFallback id fallback

theorem Grounded.afterCalls {library : Library} (grounded : library.Grounded)
    (calls : List FallbackCall) : (library.afterCalls calls).Grounded := by
  induction calls generalizing library with
  | nil => exact grounded
  | cons call calls ih => exact ih (grounded.call call)

/-- What comes of setting a fallback: it is refused if and only if the table is on the chain of the
proposed one, and then nothing changes; otherwise only this fallback does. -/
structure SetsFallback (library : Library) (id : TableId) (fallback : Option TableId)
    (answer : Except TableError Unit) (after : Library) : Prop where
  refused : (∃ error, answer = .error error) ↔
    ∃ next path, fallback = some next ∧ library.FallsBack next path ∧ id ∈ path
  error : ∀ error, answer = .error error → after = library ∧ ∃ next, fallback = some next ∧
    error = .fallbackCycle (library.table id).name (library.table next).name
  accepted : answer = .ok () → id ∈ library.tables → ∀ other,
    (after.table other).fallback = if other = id then fallback else (library.table other).fallback

/-- Setting a fallback fails exactly if the table is on the chain of the proposed one. -/
theorem Grounded.setsFallback {library : Library} (grounded : library.Grounded) (id : TableId)
    (fallback : Option TableId) :
    library.SetsFallback id fallback ((Library.setFallback id fallback).run library).1
      ((Library.setFallback id fallback).run library).2 := by
  cases fallback with
  | none =>
    rw [setFallback_run_none]
    refine ⟨⟨?_, ?_⟩, fun _ refused ↦ (by cases refused), fun _ known ↦ fallback_modifyTable known none⟩
    · rintro ⟨_, refused⟩
      cases refused
    · rintro ⟨_, _, none_proposed, _⟩
      cases none_proposed
  | some next =>
    obtain ⟨path, falls⟩ := grounded next
    by_cases mem : id ∈ path
    · rw [setFallback_run_of_mem falls mem]
      refine ⟨⟨fun _ ↦ ⟨next, path, rfl, falls, mem⟩, fun _ ↦ ⟨_, rfl⟩⟩, fun error refused ↦ ?_,
        fun ok ↦ (by cases ok)⟩
      cases refused
      exact ⟨rfl, next, rfl, rfl⟩
    · rw [setFallback_run_of_not_mem falls mem]
      refine ⟨⟨?_, ?_⟩, fun _ refused ↦ (by cases refused),
        fun _ known ↦ fallback_modifyTable known (some next)⟩
      · rintro ⟨_, refused⟩
        cases refused
      · rintro ⟨other, chain, proposed, falls', on_chain⟩
        cases proposed
        rw [falls'.unique falls] at on_chain
        exact absurd on_chain mem

/-- However fallbacks are set and taken away, from tables without any on, no table comes to ask
itself. Every chain ends, so that the walk along it does and a lookup asks each of its tables; and
setting a fallback is refused exactly where the table is found on the chain of the proposed one. -/
theorem fallbacks_stay_acyclic {start : Library} (bare : ∀ id, (start.table id).fallback = none)
    (calls : List FallbackCall) :
    let library := start.afterCalls calls
    (∀ id, ¬ Relation.TransGen library.Asks id id) ∧
    (∀ id, ∃ path, library.FallsBack id path ∧
      ∀ fuel, library.tables.size ≤ fuel → library.chain fuel id = path) ∧
    ∀ id fallback, library.SetsFallback id fallback ((setFallback id fallback).run library).1
      ((setFallback id fallback).run library).2 := by
  intro library
  have grounded : library.Grounded := (grounded_of_bare bare).afterCalls calls
  refine ⟨grounded.acyclic, fun id ↦ ?_, grounded.setsFallback⟩
  obtain ⟨path, falls⟩ := grounded id
  refine ⟨path, falls, fun fuel enough ↦ falls.chain_eq ?_⟩
  exact Nat.le_trans falls.length_le (Nat.succ_le_succ enough)

/-- Three tables in a ring of which the last side is refused, until another is taken away. -/
theorem fallbacks_stay_acyclic_ring :
    let calls : List FallbackCall :=
      [.create "a" false, .create "b" false, .create "c" false, .setFallback 0 (some 1),
        .setFallback 1 (some 2), .setFallback 2 (some 0), .setFallback 1 none,
        .setFallback 2 (some 0)]
    let library := ({} : Library).afterCalls calls
    (∀ id, (({} : Library).table id).fallback = none) ∧
      (∀ id, ¬ Relation.TransGen library.Asks id id) ∧
      library.lookupPath 2 = [2, 0, 1] ∧
      ∃ error, ((setFallback 1 (some 2)).run library).1 = .error error := by
  intro calls library
  have bare : ∀ id, (({} : Library).table id).fallback = none := by simp
  obtain ⟨acyclic, chains, sets⟩ := fallbacks_stay_acyclic bare calls
  have chain : library.lookupPath 2 = [2, 0, 1] := by decide +kernel
  obtain ⟨path, falls, -⟩ := chains 2
  refine ⟨bare, acyclic, chain, (sets 1 (some 2)).refused.2 ⟨2, path, rfl, falls, ?_⟩⟩
  rw [← falls.lookupPath_eq, chain]
  decide

end Phrasebook.Library
