import Phrasebook.Proofs.Library.SmallSteps

/-!
# Calls on a table

Every call concerns one table only, and follows its glossary. So a table is a map under any sequence of
calls, and a call that fails leaves it exactly as it is.
-/

namespace Phrasebook

namespace TableCall

section

variable {id : TableId} {library : Library} {glossary : Glossary}

/-- A call answers and leaves behind what the glossary of the table says. -/
theorem step_follows (known : id ∈ library.tables) (follows : (library.table id).Follows glossary)
    (call : TableCall) :
    ((call.step id).run library).1.map Shared.phrase = (glossary.respond call).1 ∧
      (((call.step id).run library).2.table id).Follows (glossary.respond call).2 := by
  have inserts (phrase : Phrase) (overwrite : Bool) :=
    Library.insert_follows known follows phrase overwrite
  cases call with
  | add key text overwrite =>
    rw [step, run_bind, Library.add, Glossary.respond]
    cases Phrase.read .template key text with
    | error error => exact ⟨rfl, follows⟩
    | ok phrase => exact (inserts phrase overwrite).imp_left (congrArg TableAnswer.stored)
  | addRaw key text overwrite =>
    exact (inserts (.raw key text) overwrite).imp_left (congrArg TableAnswer.stored)
  | insert phrase overwrite =>
    exact (inserts phrase overwrite).imp_left (congrArg TableAnswer.stored)
  | clear => simpa [step, known, TableAnswer.map, Glossary.respond] using follows.cleared
  | populate content overwrite => exact Library.populate_follows known follows content overwrite
  | reload location content => exact Library.reload_follows known follows location content
  | setStatus status =>
    simp only [step, run_bind, Library.setStatus_run, run_pure, Library.table_modifyTable_self known]
    exact ⟨rfl, follows.name, rfl, follows.generation, follows.phrases, follows.named⟩

/-- What a call hands out is what the table has under its name. -/
theorem stored_of_step (known : id ∈ library.tables) {call : TableCall} {shared : Shared}
    (answered : ((call.step id).run library).1 = .stored (.ok shared)) :
    (((call.step id).run library).2.table id).entries[shared.phrase.name]? = some shared := by
  have inserts (phrase : Phrase) (overwrite : Bool)
      (accepted : ((Library.insert id phrase overwrite).run library).1 = .ok shared) :
      (((Library.insert id phrase overwrite).run library).2.table id).entries[
        shared.phrase.name]? = some shared := by
    obtain ⟨-, table⟩ := Library.insert_stored known (Prod.ext accepted rfl)
    rw [table]
    exact Std.TreeMap.getElem?_insert_self
  cases call with
  | add key text overwrite =>
    rw [step, run_bind, Library.add] at answered ⊢
    cases read : Phrase.read .template key text with
    | error error =>
      rw [read] at answered
      cases answered
    | ok phrase =>
      rw [read] at answered
      exact inserts phrase overwrite (TableAnswer.stored.inj answered)
  | addRaw key text overwrite =>
    exact inserts (.raw key text) overwrite (TableAnswer.stored.inj answered)
  | insert phrase overwrite => exact inserts phrase overwrite (TableAnswer.stored.inj answered)
  | clear | populate content overwrite | reload location content | setStatus status => cases answered

/-- A call that answers with an error leaves the table exactly as it is. -/
theorem unchanged_of_error {call : TableCall}
    (failed : ((call.step id).run library).1.isError = true) :
    ((call.step id).run library).2.table id = library.table id := by
  have inserts (phrase : Phrase) (overwrite : Bool)
      (refused : (TableAnswer.stored ((Library.insert id phrase overwrite).run library).1).isError =
        true) :
      ((Library.insert id phrase overwrite).run library).2.table id = library.table id := by
    cases outcome : ((Library.insert id phrase overwrite).run library).1 with
    | error error => exact Library.insert_refused (Prod.ext outcome rfl)
    | ok shared =>
      rw [outcome] at refused
      cases refused
  cases call with
  | add key text overwrite =>
    rw [step, run_bind, Library.add] at failed ⊢
    cases read : Phrase.read .template key text with
    | error error => rfl
    | ok phrase =>
      rw [read] at failed
      exact inserts phrase overwrite failed
  | addRaw key text overwrite => exact inserts (.raw key text) overwrite failed
  | insert phrase overwrite => exact inserts phrase overwrite failed
  | clear => cases failed
  | setStatus status => cases failed
  | populate content overwrite =>
    rw [step, run_bind] at failed ⊢
    cases read : Document.entriesOf content with
    | error fault =>
      obtain ⟨after, recorded, ran⟩ := Library.populate_of_fault read id overwrite library
      rw [ran]
      exact recorded.table id
    | ok entries =>
      obtain ⟨staged, after, -, -, ran⟩ := Library.populate_run read id overwrite library
      rw [ran] at failed
      cases failed
  | reload location content =>
    rw [step, run_bind] at failed ⊢
    cases read : Document.entriesOf content with
    | error fault =>
      obtain ⟨after, recorded, ran⟩ := Library.reload_of_fault read id location library
      rw [ran]
      exact recorded.table id
    | ok entries =>
      obtain ⟨staged, after, -, -, ran⟩ := Library.reload_run read id location library
      rw [ran] at failed
      cases failed

/-- Any calls answer and leave behind what the glossary of the table says. -/
theorem performAll_follows (known : id ∈ library.tables)
    (follows : (library.table id).Follows glossary) (calls : List TableCall) :
    ((performAll id calls).run library).1.map (TableAnswer.map Shared.phrase) =
        glossary.answers calls ∧
      id ∈ ((performAll id calls).run library).2.tables ∧
      (((performAll id calls).run library).2.table id).Follows (glossary.after calls) := by
  induction calls generalizing library glossary with
  | nil => exact ⟨rfl, known, follows⟩
  | cons call calls ih =>
    obtain ⟨answer, follows⟩ := step_follows known follows call
    have frame := (Library.respected_sameBut id).call library call
    obtain ⟨answers, known, follows⟩ := ih ((frame.known id).2 known) follows
    rw [performAll, run_bind, run_bind]
    exact ⟨List.cons_eq_cons.2 ⟨answer, answers⟩, known, follows⟩

end

end TableCall

/-- A new table is an empty map. -/
theorem Table.Follows.adding (library : Library) (name : String) (relays : Bool) :
    ((library.adding name relays).table library.nextTable).Follows { name := name } := by
  rw [Library.table_adding_self]
  refine ⟨rfl, rfl, rfl, fun key ↦ ?_, fun key shared held ↦ ?_⟩
  · simp [Table.phrase?]
  · simp at held

theorem ascending_keys (entries : Entries) : entries.keys.Pairwise (· < ·) :=
  entries.ordered_keys.imp fun less ↦ compareOfLessAndEq_eq_lt.1 less

/-- A table is a map. Whatever is called on a new table, it answers as its glossary, holds under every
key the phrase of that name which the glossary has, and shows the keys of the glossary in ascending
order. One more call hands out the very phrase that it stored, leaves the table exactly as it is if it
answers with an error, and counts if it replaced the entries as a whole. -/
theorem table_is_a_map (library : Library) (name : String) (relays : Bool) (calls : List TableCall) :
    let id := library.nextTable
    let ran := (TableCall.performAll id calls).run (library.adding name relays)
    let glossary := ({ name := name } : Glossary).after calls
    let table := ran.2.table id
    ran.1.map (TableAnswer.map Shared.phrase) = ({ name := name } : Glossary).answers calls ∧
      (∀ key, table.entries[key]?.map Shared.phrase = glossary.phrases key) ∧
      (∀ (key : String) (shared : Shared), table.entries[key]? = some shared →
        shared.phrase.name = key) ∧
      table.entries.keys.Pairwise (· < ·) ∧
      (∀ key, key ∈ table.entries.keys ↔ (glossary.phrases key).isSome) ∧
      (∀ key, table.entries.contains key = (glossary.phrases key).isSome) ∧
      table.entries.size = table.entries.keys.length ∧
      (table.entries.isEmpty = true ↔ ∀ key, glossary.phrases key = none) ∧
      table.generation = glossary.generation ∧
      ∀ call : TableCall,
        let next := (call.step id).run ran.2
        (∀ shared, next.1 = .stored (.ok shared) →
          (next.2.table id).entries[shared.phrase.name]? = some shared) ∧
        (next.1.isError = true → next.2.table id = table) ∧
        (next.2.table id).generation = table.generation + if call.replaces next.1 then 1 else 0 := by
  intro id ran glossary table
  obtain ⟨answers, known, follows⟩ := TableCall.performAll_follows
    (Library.mem_adding.2 (.inl rfl)) (.adding library name relays) calls
  have keys (key : String) : key ∈ table.entries.keys ↔ (glossary.phrases key).isSome = true := by
    rw [Std.TreeMap.mem_keys, ← Std.TreeMap.contains_iff_mem, follows.contains]
  refine ⟨answers, follows.phrases, follows.named, ascending_keys _, keys, follows.contains,
    Std.TreeMap.length_keys.symm, ?_, follows.generation, fun call ↦ ⟨fun shared ↦ ?_, ?_, ?_⟩⟩
  · rw [Std.TreeMap.isEmpty_iff_forall_not_mem]
    refine forall_congr' fun key ↦ ?_
    rw [← Std.TreeMap.mem_keys, keys, Option.isSome_iff_ne_none, not_not]
  · exact TableCall.stored_of_step known
  · exact TableCall.unchanged_of_error
  · obtain ⟨answer, behind⟩ := TableCall.step_follows known follows call
    rw [behind.generation, Glossary.generation_respond, ← answer, TableCall.replaces_map,
      follows.generation]

end Phrasebook
