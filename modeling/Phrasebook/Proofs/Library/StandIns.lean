import Phrasebook.Proofs.Library.Sparing

/-!
# Stand-ins

A stand-in is made where an optional lookup ends: at the last table of a chain none of which has the
key. The observers of the misses add no entry to a table that is still to come, so where a lookup ends is
decided before it begins. Every other lookup spares the stand-ins.
-/

namespace Phrasebook.Library

/-- The table that is left to answer for a key that no table of a chain has. -/
def endAlong? (library : Library) (key : String) (path : List TableId) : Option TableId :=
  if ∀ id ∈ path, key ∉ (library.table id).entries then path.getLast? else none

/-- The table at which an optional lookup ends with a stand-in, if it comes to that. -/
def endsAt? (library : Library) (id : TableId) (key : String) : Option TableId :=
  if Text.isBlankText key then none else library.endAlong? key (library.lookupPath id)

section

variable {library : Library} {id last : TableId} {key : String} {path : List TableId}

theorem endAlong?_eq_some_iff : library.endAlong? key path = some last ↔
    (∀ other ∈ path, key ∉ (library.table other).entries) ∧ path.getLast? = some last := by
  rw [endAlong?, Option.ite_none_right_eq_some]

/-- What happens at a table that is not on a chain leaves its end where it was. -/
theorem endAlong?_of_sameBut {after : Library} (frame : SameBut id library after)
    (away : id ∉ path) : after.endAlong? key path = library.endAlong? key path := by
  refine Option.ext fun last ↦ ?_
  rw [endAlong?_eq_some_iff, endAlong?_eq_some_iff]
  refine and_congr_left fun _ ↦ forall₂_congr fun other mem ↦ ?_
  rw [frame.others other fun same ↦ away (same ▸ mem)]

/-- A chain ends where it ends from its second table on, if the first lacks the key. -/
theorem endAlong?_cons {next : TableId} (lacks : key ∉ (library.table id).entries) :
    library.endAlong? key (id :: next :: path) = library.endAlong? key (next :: path) := by
  refine Option.ext fun last ↦ ?_
  rw [endAlong?_eq_some_iff, endAlong?_eq_some_iff, List.getLast?_cons_cons, List.forall_mem_cons,
    and_iff_right lacks]

theorem endAlong?_singleton (lacks : key ∉ (library.table id).entries) :
    library.endAlong? key [id] = some id :=
  endAlong?_eq_some_iff.2 ⟨by simpa using lacks, rfl⟩

/-- An optional lookup ends with a stand-in of the last table, whatever the observers did before. -/
theorem getAlong_ends (distinct : path.Nodup) (ends : library.endAlong? key path = some last) :
    ∃ middle, Spares library middle ∧
      (getAlong key true path).run library =
        (.ok ((standIn last key).run middle).1, ((standIn last key).run middle).2) := by
  induction path generalizing library with
  | nil => cases (endAlong?_eq_some_iff.1 ends).2
  | cons id rest ih =>
    have lacks := (endAlong?_eq_some_iff.1 ends).1 id List.mem_cons_self
    obtain ⟨away, distinct⟩ := List.nodup_cons.1 distinct
    obtain ⟨spares, frame⟩ := afterMiss_spares id library key true
    cases rest with
    | nil =>
      cases (endAlong?_eq_some_iff.1 ends).2
      exact ⟨library.afterMiss id key true, spares, getAlong_last lacks true⟩
    | cons next rest =>
      rw [endAlong?_cons lacks, ← endAlong?_of_sameBut frame away] at ends
      obtain ⟨later, spared, ran⟩ := ih distinct ends
      exact ⟨later, spares.trans spared, (getAlong_cons lacks true next rest).trans ran⟩

/-- A lookup that is not optional, or that comes to a table with the key, spares the stand-ins. -/
theorem getAlong_spares {optional : Bool} (distinct : path.Nodup)
    (needless : optional = true → library.endAlong? key path = none) :
    Spares library ((getAlong key optional path).run library).2 := by
  induction path generalizing library with
  | nil => exact .refl library
  | cons id rest ih =>
    obtain ⟨away, distinct⟩ := List.nodup_cons.1 distinct
    rcases held_or_lacks (library.table id) key with ⟨shared, held⟩ | lacks
    · rw [getAlong_of_mem held]
      exact .refl library
    · obtain ⟨spares, frame⟩ := afterMiss_spares id library key optional
      cases rest with
      | nil =>
        cases optional with
        | false =>
          rw [getAlong_last lacks]
          exact spares
        | true => cases (needless rfl).symm.trans (endAlong?_singleton lacks)
      | cons next rest =>
        rw [getAlong_cons lacks]
        refine spares.trans (ih distinct fun optional ↦ ?_)
        rw [endAlong?_of_sameBut frame away, ← endAlong?_cons lacks]
        exact needless optional

/-- An optional lookup that does not end with a stand-in answers with what a table of the chain holds. -/
theorem getAlong_hits (distinct : path.Nodup) (some_table : path ≠ [])
    (needless : library.endAlong? key path = none) :
    ∃ other ∈ path, ∃ shared, (library.table other).entries[key]? = some shared ∧
      ((getAlong key true path).run library).1 = .ok shared := by
  induction path generalizing library with
  | nil => exact absurd rfl some_table
  | cons id rest ih =>
    obtain ⟨away, distinct⟩ := List.nodup_cons.1 distinct
    rcases held_or_lacks (library.table id) key with ⟨shared, held⟩ | lacks
    · exact ⟨id, List.mem_cons_self, shared, held, by rw [getAlong_of_mem held]⟩
    · obtain ⟨-, frame⟩ := afterMiss_spares id library key true
      cases rest with
      | nil => cases needless.symm.trans (endAlong?_singleton lacks)
      | cons next rest =>
        rw [endAlong?_cons lacks, ← endAlong?_of_sameBut frame away] at needless
        obtain ⟨other, mem, shared, found, answer⟩ := ih distinct (List.cons_ne_nil _ _) needless
        rw [frame.others other fun same ↦ away (same ▸ mem)] at found
        exact ⟨other, List.mem_cons_of_mem id mem, shared, found,
          by rw [getAlong_cons lacks, answer]⟩

/-- A lookup that ends at a table hands out the stand-in there and spares all others. -/
theorem find_ends (grounded : library.Grounded) (ends : library.endsAt? id key = some last) :
    ∃ middle, Spares library middle ∧
      (find id key true).run library =
        (.ok ((standIn last key).run middle).1, ((standIn last key).run middle).2) := by
  rw [endsAt?] at ends
  obtain ⟨path, falls⟩ := grounded id
  cases blank : Text.isBlankText key with
  | true =>
    rw [blank] at ends
    cases ends
  | false =>
    rw [blank, falls.lookupPath_eq] at ends
    obtain ⟨middle, spares, ran⟩ := getAlong_ends falls.nodup ends
    refine ⟨middle, spares, ?_⟩
    simp [find, blank, falls.lookupPath_eq, ran]

/-- A lookup that needs no stand-in spares all that there are. -/
theorem find_spares (grounded : library.Grounded) {optional : Bool}
    (needless : optional = true → library.endsAt? id key = none) :
    Spares library ((find id key optional).run library).2 := by
  obtain ⟨path, falls⟩ := grounded id
  rw [find]
  cases blank : Text.isBlankText key with
  | true => exact .refl library
  | false =>
    rw [endsAt?, blank, falls.lookupPath_eq] at needless
    have spares := getAlong_spares falls.nodup needless
    rw [← falls.lookupPath_eq] at spares
    exact spares

/-- An optional lookup is refused for a blank key, ends with a stand-in, or answers with what a table
of the chain holds. -/
theorem find_hits (grounded : library.Grounded) (sought : Text.isBlankText key = false)
    (needless : library.endsAt? id key = none) :
    ∃ other ∈ library.lookupPath id, ∃ shared,
      (library.table other).entries[key]? = some shared ∧
      ((find id key true).run library).1 = .ok shared := by
  obtain ⟨path, falls⟩ := grounded id
  have some_table : path ≠ [] := by cases falls <;> exact List.cons_ne_nil _ _
  rw [endsAt?, sought, falls.lookupPath_eq] at needless
  have hits := getAlong_hits falls.nodup some_table needless
  rw [← falls.lookupPath_eq] at hits
  rw [find, sought]
  exact hits

end

end Phrasebook.Library
