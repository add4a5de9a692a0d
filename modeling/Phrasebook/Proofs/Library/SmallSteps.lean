import Phrasebook.Proofs.Library.Glossary
import Phrasebook.Proofs.Library.Lookup

/-!
# Small steps

Whatever is called on a table, and whatever its observers do when they hear of a key that it lacks, is
made of a few small steps: something is noted, a phrase is put into the table, its entries are removed, its
status is set. What these steps respect, all that is made of them respects.
-/

namespace Phrasebook.Library

/-- A relation between a library and what becomes of it that every small step on a table respects. -/
structure Respected (id : TableId) (R : Library → Library → Prop) : Prop where
  refl : ∀ library, R library library
  trans : ∀ {before middle after : Library}, R before middle → R middle after → R before after
  noted : ∀ (library : Library) (notices : List Notice) (journal : Journal),
    R library { library with notices := notices, journal := journal }
  insert : ∀ (library : Library) (phrase : Phrase) (overwrite : Bool),
    R library ((insert id phrase overwrite).run library).2
  clear : ∀ library, R library ((clear id).run library).2
  setStatus : ∀ (library : Library) (status : Status), R library ((setStatus id status).run library).2

namespace Respected

variable {id : TableId} {R : Library → Library → Prop} (respected : Respected id R)

include respected

theorem recorded {before after : Library} (recorded : Recorded before after) : R before after := by
  obtain ⟨journal, rfl⟩ := recorded
  exact respected.noted before before.notices journal

/-! ## Calls -/

theorem insertAll (library : Library) (overwrite : Bool) (phrases : List Phrase) :
    R library ((insertAll id overwrite phrases).run library).2 := by
  induction phrases generalizing library with
  | nil => exact respected.refl library
  | cons phrase rest ih =>
    rw [insertAll_cons_run]
    exact respected.trans (respected.insert library phrase overwrite) (ih _)

theorem populate (library : Library) (content : Markup.Stream) (overwrite : Bool) :
    R library ((populate id content overwrite).run library).2 := by
  cases read : Document.entriesOf content with
  | error fault =>
    obtain ⟨after, recorded, ran⟩ := populate_of_fault read id overwrite library
    rw [ran]
    exact respected.recorded recorded
  | ok entries =>
    obtain ⟨staged, after, unread, logged, ran⟩ := populate_run read id overwrite library
    rw [ran]
    have filled := respected.insertAll staged overwrite (phrasesOf entries).1
    exact respected.trans (respected.trans (respected.recorded unread) filled)
      (respected.recorded logged)

theorem reload (library : Library) (location : String) (content : Markup.Stream) :
    R library ((reload id location content).run library).2 := by
  cases read : Document.entriesOf content with
  | error fault =>
    obtain ⟨after, recorded, ran⟩ := reload_of_fault read id location library
    rw [ran]
    exact respected.recorded recorded
  | ok entries =>
    obtain ⟨staged, after, unread, logged, ran⟩ := reload_run read id location library
    rw [ran]
    have cleared := respected.trans (respected.recorded unread) (respected.clear staged)
    have filled := respected.insertAll (modifyTable id Table.cleared staged) false
      (phrasesOf entries).1
    exact respected.trans (respected.trans cleared filled) (respected.recorded logged)

theorem call (library : Library) (call : TableCall) :
    R library ((call.step id).run library).2 := by
  cases call with
  | add key text overwrite =>
    rw [TableCall.step, run_bind, add]
    cases Phrase.read .template key text with
    | error error => exact respected.refl library
    | ok phrase => exact respected.insert library phrase overwrite
  | addRaw key text overwrite => exact respected.insert library (.raw key text) overwrite
  | insert phrase overwrite => exact respected.insert library phrase overwrite
  | clear => exact respected.clear library
  | populate content overwrite => exact respected.populate library content overwrite
  | reload location content => exact respected.reload library location content
  | setStatus status => exact respected.setStatus library status

/-! ## Observers -/

theorem notifyOne (library : Library) (key : String) (observer : Observer) :
    R library ((notifyOne id key observer).run library).2 := by
  obtain ⟨label, reaction⟩ := observer
  cases reaction with
  | note | probe | fail => exact respected.noted library _ _
  | supply text =>
    rw [Library.notifyOne_run_of_supply]
    exact respected.trans (respected.insert library (.raw key text) false) (respected.noted _ _ _)

theorem notifyAll (library : Library) (key : String) (observers : List Observer) :
    R library ((notifyAll id key observers).run library).2 := by
  induction observers generalizing library with
  | nil => exact respected.refl library
  | cons observer observers ih =>
    exact respected.trans (respected.notifyOne library key observer) (ih _)

end Respected

theorem respected_sameBut (id : TableId) : Respected id (SameBut id) where
  refl := .refl id
  trans := .trans
  noted _ _ _ := .of_tables_eq rfl rfl
  insert library phrase overwrite := sameBut_insert id phrase overwrite library
  clear library := sameBut_modifyTable id Table.cleared library
  setStatus library _ := sameBut_modifyTable id _ library

end Phrasebook.Library
