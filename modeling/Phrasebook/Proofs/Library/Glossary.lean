import Mathlib.Logic.Function.Basic
import Phrasebook.Proofs.Library.Populating

/-!
# Tables as maps

A glossary is what a table is to those who use it: a map from keys to phrases, with the number of times
that it was replaced as a whole. Every call that changes a table answers as the glossary says and leaves
what the glossary says, so a table is its glossary after any calls.
-/

namespace Phrasebook

open Phrasebook.Document (Entry)

/-- A call that changes a table. -/
inductive TableCall where
  | add (key text : String) (overwrite : Bool)
  | addRaw (key text : String) (overwrite : Bool)
  | insert (phrase : Phrase) (overwrite : Bool)
  | clear
  | populate (content : Markup.Stream) (overwrite : Bool)
  | reload (location : String) (content : Markup.Stream)
  /-- Notes what is known about the resource of the table. -/
  | setStatus (status : Status)

/-- What a call answers, with what it hands out for a phrase that was stored. -/
inductive TableAnswer (α : Type) where
  | stored (outcome : Except EntryError α)
  | loaded (outcome : Except TableError LoadReport)
  | done

namespace TableAnswer

def map {α β : Type} (f : α → β) : TableAnswer α → TableAnswer β
  | stored outcome => stored (outcome.map f)
  | loaded outcome => loaded outcome
  | done => done

def isError {α : Type} : TableAnswer α → Bool
  | stored (.error _) => true
  | stored (.ok _) => false
  | loaded (.error _) => true
  | loaded (.ok _) => false
  | done => false

end TableAnswer

namespace TableCall

def step (id : TableId) : TableCall → LibraryM (TableAnswer Shared)
  | add key text overwrite => return .stored (← Library.add id key text overwrite)
  | addRaw key text overwrite => return .stored (← Library.addRaw id key text overwrite)
  | insert phrase overwrite => return .stored (← Library.insert id phrase overwrite)
  | clear => do
    Library.clear id
    return .done
  | populate content overwrite => return .loaded (← Library.populate id content overwrite)
  | reload location content => return .loaded (← Library.reload id location content)
  | setStatus status => do
    Library.setStatus id status
    return .done

/-- Calls one after the other, with what each of them answered. -/
def performAll (id : TableId) : List TableCall → LibraryM (List (TableAnswer Shared))
  | [] => return []
  | call :: calls => do
    let answer ← call.step id
    let answers ← performAll id calls
    return answer :: answers

def replaces {α : Type} : TableCall → TableAnswer α → Bool
  | clear, _ => true
  | reload _ _, .loaded (.ok _) => true
  | _, _ => false

end TableCall

theorem TableCall.replaces_map {α β : Type} (f : α → β) (call : TableCall) (answer : TableAnswer α) :
    call.replaces (answer.map f) = call.replaces answer := by
  cases answer with
  | stored outcome | done => cases call <;> rfl
  | loaded outcome => cases outcome <;> cases call <;> rfl

/-! ## Glossaries -/

structure Glossary where
  name : String
  location : Option String := none
  phrases : String → Option Phrase := fun _ ↦ none
  /-- How often the phrases were replaced as a whole. -/
  generation : Nat := 0

namespace Glossary

/-- A phrase comes under its own name. Unless `overwrite` is set, a key that is taken keeps its
phrase. -/
def offer (glossary : Glossary) (phrase : Phrase) (overwrite : Bool) :
    Except EntryError Phrase × Glossary :=
  if !overwrite && (glossary.phrases phrase.name).isSome then
    (.error (.duplicateKey glossary.name phrase.name), glossary)
  else
    (.ok phrase,
      { glossary with
        phrases := Function.update glossary.phrases phrase.name (some phrase) })

/-- Phrases come one after the other; the errors are those of the phrases that were left out. -/
def offerAll (glossary : Glossary) (overwrite : Bool) : List Phrase → List EntryError × Glossary
  | [] => ([], glossary)
  | phrase :: rest =>
    let (outcome, next) := glossary.offer phrase overwrite
    let (errors, last) := next.offerAll overwrite rest
    match outcome with
    | .ok _ => (errors, last)
    | .error error => (error :: errors, last)

/-- The phrases of entries come; entries without a phrase are left out as well. -/
def load (glossary : Glossary) (overwrite : Bool) (entries : List Entry) : LoadReport × Glossary :=
  let (phrases, errors) := Library.phrasesOf entries
  let (collisions, after) := glossary.offerAll overwrite phrases
  (⟨phrases.length - collisions.length, errors ++ collisions⟩, after)

def cleared (glossary : Glossary) : Glossary :=
  { glossary with phrases := fun _ ↦ none, generation := glossary.generation + 1 }

/-- What a call answers, and what it leaves behind. -/
def respond (glossary : Glossary) : TableCall → TableAnswer Phrase × Glossary
  | .add key text overwrite =>
    match Phrase.read .template key text with
    | .error error => (.stored (.error (.template error)), glossary)
    | .ok phrase => (glossary.offer phrase overwrite).map .stored id
  | .addRaw key text overwrite => (glossary.offer (.raw key text) overwrite).map .stored id
  | .insert phrase overwrite => (glossary.offer phrase overwrite).map .stored id
  | .clear => (.done, glossary.cleared)
  | .populate content overwrite =>
    match Document.entriesOf content with
    | .error fault =>
      (.loaded (.error (.document (glossary.location.getD glossary.name) fault)), glossary)
    | .ok entries => (glossary.load overwrite entries).map (.loaded ∘ .ok) id
  | .reload location content =>
    match Document.entriesOf content with
    | .error fault => (.loaded (.error (.document location fault)), glossary)
    | .ok entries => (glossary.cleared.load false entries).map (.loaded ∘ .ok) id
  | .setStatus status => (.done, { glossary with location := status.location })

def after (glossary : Glossary) (calls : List TableCall) : Glossary :=
  calls.foldl (fun glossary call ↦ (glossary.respond call).2) glossary

def answers (glossary : Glossary) : List TableCall → List (TableAnswer Phrase)
  | [] => []
  | call :: calls => (glossary.respond call).1 :: (glossary.respond call).2.answers calls

theorem generation_offer (glossary : Glossary) (phrase : Phrase) (overwrite : Bool) :
    (glossary.offer phrase overwrite).2.generation = glossary.generation := by
  rw [offer]
  split <;> rfl

theorem generation_offerAll (glossary : Glossary) (overwrite : Bool) (phrases : List Phrase) :
    (glossary.offerAll overwrite phrases).2.generation = glossary.generation := by
  induction phrases generalizing glossary with
  | nil => rfl
  | cons phrase rest ih =>
    have step := (ih (glossary.offer phrase overwrite).2).trans
      (glossary.generation_offer phrase overwrite)
    rw [offerAll]
    dsimp only
    split
    · exact step
    · exact step

/-- A glossary counts how often it was replaced. -/
theorem generation_respond (glossary : Glossary) (call : TableCall) :
    (glossary.respond call).2.generation =
      glossary.generation + if call.replaces (glossary.respond call).1 then 1 else 0 := by
  cases call with
  | add key text overwrite =>
    rw [respond]
    cases Phrase.read .template key text with
    | error error => rfl
    | ok phrase => exact glossary.generation_offer phrase overwrite
  | addRaw key text overwrite => exact glossary.generation_offer (.raw key text) overwrite
  | insert phrase overwrite => exact glossary.generation_offer phrase overwrite
  | clear => rfl
  | populate content overwrite =>
    rw [respond]
    cases Document.entriesOf content with
    | error fault => rfl
    | ok entries => exact glossary.generation_offerAll overwrite _
  | reload location content =>
    rw [respond]
    cases Document.entriesOf content with
    | error fault => rfl
    | ok entries => exact glossary.cleared.generation_offerAll false _
  | setStatus status => rfl

end Glossary

/-! ## Tables and their glossaries -/

/-- A table holds what a glossary says, every phrase under its own name. -/
structure Table.Follows (table : Table) (glossary : Glossary) : Prop where
  name : table.name = glossary.name
  location : table.status.location = glossary.location
  generation : table.generation = glossary.generation
  phrases : ∀ key, table.phrase? key = glossary.phrases key
  named : ∀ (key : String) (shared : Shared), table.entries[key]? = some shared →
    shared.phrase.name = key

namespace Table.Follows

variable {table : Table} {glossary : Glossary}

theorem contains (follows : table.Follows glossary) (key : String) :
    table.entries.contains key = (glossary.phrases key).isSome := by
  rw [← follows.phrases, Table.phrase?, Option.isSome_map, Std.TreeMap.isSome_getElem?_eq_contains]

theorem put (follows : table.Follows glossary) (shared : Shared) :
    { table with entries := table.entries.insert shared.phrase.name shared }.Follows
      { glossary with
        phrases := Function.update glossary.phrases shared.phrase.name (some shared.phrase) } where
  name := follows.name
  location := follows.location
  generation := follows.generation
  phrases key := by
    by_cases same : shared.phrase.name = key
    · subst same
      simp [Table.phrase?]
    · have kept : Function.update glossary.phrases shared.phrase.name (some shared.phrase) key =
          table.phrase? key :=
        (Function.update_of_ne (Ne.symm same) _ _).trans (follows.phrases key).symm
      refine Eq.trans ?_ kept.symm
      simp [Table.phrase?, Std.TreeMap.getElem?_insert, same]
  named key other held := by
    rw [Std.TreeMap.getElem?_insert] at held
    split at held
    · next same =>
      cases held
      exact Std.LawfulEqOrd.compare_eq_iff_eq.1 same
    · exact follows.named key other held

theorem cleared (follows : table.Follows glossary) : table.cleared.Follows glossary.cleared where
  name := follows.name
  location := follows.location
  generation := congrArg (· + 1) follows.generation
  phrases key := by simp [Table.phrase?, Table.cleared, Glossary.cleared]
  named key shared held := by simp [Table.cleared] at held

end Table.Follows

namespace Library

section

variable {id : TableId} {library : Library} {glossary : Glossary}
  (known : id ∈ library.tables)

theorem insert_refused {phrase : Phrase} {overwrite : Bool} {error : EntryError} {after : Library}
    (ran : (insert id phrase overwrite).run library = (.error error, after)) :
    after.table id = library.table id := by
  rw [insert_run] at ran
  split at ran
  · cases ran
    exact table_eq_of_tables_eq rfl id
  · cases ran

include known in
/-- A phrase that is accepted is stored with the identity that the call hands out. -/
theorem insert_stored {phrase : Phrase} {overwrite : Bool} {shared : Shared} {after : Library}
    (ran : (insert id phrase overwrite).run library = (.ok shared, after)) :
    shared.phrase = phrase ∧ after.table id =
      { library.table id with
        entries := (library.table id).entries.insert shared.phrase.name shared } := by
  rw [insert_run] at ran
  split at ran
  · cases ran
  · cases ran
    exact ⟨rfl, table_modifyTable_self known⟩

include known in
/-- A phrase that comes is answered by the table as by its glossary, and stored in both or in
neither. -/
theorem insert_follows (follows : (library.table id).Follows glossary) (phrase : Phrase)
    (overwrite : Bool) :
    ((insert id phrase overwrite).run library).1.map Shared.phrase =
        (glossary.offer phrase overwrite).1 ∧
      (((insert id phrase overwrite).run library).2.table id).Follows
        (glossary.offer phrase overwrite).2 := by
  rw [Glossary.offer, ← follows.contains, insert_run]
  split
  · exact ⟨by simp [Except.map, follows.name], follows⟩
  · have stored := follows.put ⟨library.nextIdentity, phrase⟩
    simpa [known, Except.map] using stored

include known in
theorem insertAll_follows (follows : (library.table id).Follows glossary) (overwrite : Bool)
    (phrases : List Phrase) :
    ((insertAll id overwrite phrases).run library).1 = (glossary.offerAll overwrite phrases).1 ∧
      (((insertAll id overwrite phrases).run library).2.table id).Follows
        (glossary.offerAll overwrite phrases).2 := by
  induction phrases generalizing library glossary with
  | nil => exact ⟨rfl, follows⟩
  | cons phrase rest ih =>
    have still := ((sameBut_insert id phrase overwrite library).known id).2 known
    obtain ⟨outcome, follows⟩ := insert_follows known follows phrase overwrite
    obtain ⟨errors, follows⟩ := ih still follows
    rw [insertAll_cons_run, Glossary.offerAll]
    dsimp only
    rw [errors, ← outcome]
    cases ((insert id phrase overwrite).run library).1 with
    | ok shared => exact ⟨rfl, follows⟩
    | error error => exact ⟨rfl, follows⟩

/-- What a document leads to that can be read, whether it is added to the table or replaces it. -/
theorem load_follows {entries : List Entry} {overwrite : Bool} {loaded : Nat} {after : Library}
    (follows : (library.table id).Follows glossary) (known : id ∈ library.tables)
    (logged : Recorded ((insertAll id overwrite (phrasesOf entries).1).run library).2 after)
    (counted : loaded = (phrasesOf entries).1.length -
      ((insertAll id overwrite (phrasesOf entries).1).run library).1.length) :
    ⟨loaded, (phrasesOf entries).2 ++
        ((insertAll id overwrite (phrasesOf entries).1).run library).1⟩ =
        (glossary.load overwrite entries).1 ∧
      (after.table id).Follows (glossary.load overwrite entries).2 := by
  obtain ⟨errors, follows⟩ := insertAll_follows known follows overwrite (phrasesOf entries).1
  rw [errors] at counted
  rw [counted, errors, logged.table]
  exact ⟨rfl, follows⟩

include known in
theorem populate_follows (follows : (library.table id).Follows glossary) (content : Markup.Stream)
    (overwrite : Bool) :
    .loaded ((populate id content overwrite).run library).1 =
        (glossary.respond (.populate content overwrite)).1 ∧
      (((populate id content overwrite).run library).2.table id).Follows
        (glossary.respond (.populate content overwrite)).2 := by
  rw [Glossary.respond]
  cases read : Document.entriesOf content with
  | error fault =>
    obtain ⟨after, recorded, ran⟩ := populate_of_fault read id overwrite library
    rw [ran, recorded.table, follows.location, follows.name]
    exact ⟨rfl, follows⟩
  | ok entries =>
    obtain ⟨staged, after, unread, logged, ran⟩ := populate_run read id overwrite library
    have still := ((unread.sameBut id).known id).2 known
    rw [← unread.table] at follows
    obtain ⟨report, follows⟩ := load_follows follows still logged rfl
    rw [ran]
    exact ⟨congrArg (TableAnswer.loaded ∘ Except.ok) report, follows⟩

include known in
theorem reload_follows (follows : (library.table id).Follows glossary) (location : String)
    (content : Markup.Stream) :
    .loaded ((reload id location content).run library).1 =
        (glossary.respond (.reload location content)).1 ∧
      (((reload id location content).run library).2.table id).Follows
        (glossary.respond (.reload location content)).2 := by
  rw [Glossary.respond]
  cases read : Document.entriesOf content with
  | error fault =>
    obtain ⟨after, recorded, ran⟩ := reload_of_fault read id location library
    rw [ran, recorded.table]
    exact ⟨rfl, follows⟩
  | ok entries =>
    obtain ⟨staged, after, unread, logged, ran⟩ := reload_run read id location library
    have still := ((unread.sameBut id).known id).2 known
    have emptied : (modifyTable id Table.cleared staged).table id = (library.table id).cleared := by
      rw [table_modifyTable_self still, unread.table]
    have cleared := follows.cleared
    rw [← emptied] at cleared
    have present := ((sameBut_modifyTable id Table.cleared staged).known id).2 still
    -- Nothing was there before, so what is there in the end are the phrases that were not left out.
    have complete := (added_insertAll id (phrasesOf entries).1 _ present).complete
    rw [emptied, Table.cleared, Std.TreeMap.size_emptyc, ← logged.table] at complete
    have counted : (after.table id).entries.size = (phrasesOf entries).1.length -
        ((insertAll id false (phrasesOf entries).1).run
          (modifyTable id Table.cleared staged)).1.length := by omega
    obtain ⟨report, follows⟩ := load_follows cleared present logged counted
    rw [ran]
    exact ⟨congrArg (TableAnswer.loaded ∘ Except.ok) report, follows⟩

end

end Library

end Phrasebook
