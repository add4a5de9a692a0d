import Phrasebook.Proofs.Library.Rendering

/-!
# The stock of a table

What a table has under a key was put there under its own name, with an identity that was given out for
it. Nothing else gets into a table, whatever is done: a step leaves what it finds, takes it away, or puts
a new definition in its place. A lookup finds all of it at the first table, without a miss, unless the key
is blank: such a key can be stored, but it is never looked up.
-/

namespace Phrasebook

namespace Library

/-- From one state to a later one, what a table has under a key was there before or came since, under its
own name and with an identity of its own. -/
structure Stocks (before after : Library) : Prop where
  grows : before.nextIdentity ≤ after.nextIdentity
  held : ∀ (id : TableId) (key : String) (shared : Shared),
    (after.table id).entries[key]? = some shared →
      (before.table id).entries[key]? = some shared ∨
        shared.phrase.name = key ∧ before.nextIdentity ≤ shared.identity ∧
          shared.identity < after.nextIdentity

namespace Stocks

variable {before middle after : Library}

theorem refl (library : Library) : Stocks library library :=
  ⟨Nat.le_refl _, fun _ _ _ held ↦ .inl held⟩

theorem trans (first : Stocks before middle) (second : Stocks middle after) :
    Stocks before after where
  grows := Nat.le_trans first.grows second.grows
  held id key shared held := by
    rcases second.held id key shared held with held | ⟨named, later, given⟩
    · rcases first.held id key shared held with held | ⟨named, later, given⟩
      · exact .inl held
      · exact .inr ⟨named, later, Nat.lt_of_lt_of_le given second.grows⟩
    · exact .inr ⟨named, Nat.le_trans first.grows later, given⟩

/-- Steps that put nothing into a table. -/
theorem of_held (grows : before.nextIdentity ≤ after.nextIdentity)
    (held : ∀ (id : TableId) (key : String) (shared : Shared),
      (after.table id).entries[key]? = some shared →
        (before.table id).entries[key]? = some shared) : Stocks before after where
  grows := grows
  held id key shared has := .inl (held id key shared has)

theorem of_tables_eq (tables : after.tables = before.tables)
    (grows : before.nextIdentity ≤ after.nextIdentity) : Stocks before after :=
  .of_held grows fun id key shared held ↦ by rwa [table_eq_of_tables_eq tables id] at held

end Stocks

/-! ## Changes of a table -/

section

variable (id : TableId) (library : Library)

theorem stocks_modifyTable {f : Table → Table}
    (held : ∀ (table : Table) (key : String) (shared : Shared),
      (f table).entries[key]? = some shared → table.entries[key]? = some shared) :
    Stocks library (modifyTable id f library) := by
  refine .of_held (Nat.le_refl _) fun other key shared has ↦ ?_
  rcases table_modifyTable_cases id other f library with same | changed
  · rwa [same] at has
  · rw [changed] at has
    exact held _ key shared has

theorem stocks_insert (phrase : Phrase) (overwrite : Bool) :
    Stocks library ((insert id phrase overwrite).run library).2 := by
  rw [insert_run]
  split
  · exact .of_tables_eq rfl (Nat.le_succ _)
  · refine ⟨Nat.le_succ _, fun other key shared has ↦ ?_⟩
    dsimp only at has
    rcases table_modifyTable_cases id other _ _ with same | changed
    · rw [same] at has
      exact .inl has
    · rw [changed, Std.TreeMap.getElem?_insert] at has
      split at has
      · next named =>
        cases has
        exact .inr ⟨Std.LawfulEqOrd.compare_eq_iff_eq.1 named, Nat.le_refl _, Nat.lt_succ_self _⟩
      · exact .inl has

theorem respected_stocks : Respected id Stocks where
  refl := .refl
  trans := .trans
  noted _ _ _ := .of_tables_eq rfl (Nat.le_refl _)
  insert := stocks_insert id
  clear library := stocks_modifyTable id library fun _ _ _ has ↦ by simp at has
  setStatus library _ := stocks_modifyTable id library fun _ _ _ has ↦ has

theorem stocks_standIn (key : String) (library : Library) :
    Stocks library ((standIn id key).run library).2 := by
  rcases standIn_run_cases id key library with ⟨shared, -, ran⟩ | ⟨-, ran⟩
  · rw [ran]
    exact .refl library
  · rw [ran]
    exact .of_tables_eq rfl (Nat.le_succ _)

/-! ## Deeds -/

theorem stocks_setFallback (fallback : Option TableId) :
    Stocks library ((setFallback id fallback).run library).2 := by
  have rewired : Stocks library
      (modifyTable id (fun table ↦ { table with fallback := fallback }) library) :=
    stocks_modifyTable id library fun _ _ _ has ↦ has
  cases fallback with
  | none => exact rewired
  | some next =>
    by_cases asked : id ∈ library.lookupPath next
    · simpa [setFallback, asked] using .refl library
    · simpa [setFallback, asked] using rewired

/-- No deed stores a phrase under a foreign name or with an identity that was given out before. -/
theorem stocks_perform (deed : Deed) : Stocks library (deed.perform.run library).2 := by
  cases deed with
  | find id key optional =>
    exact find_respected respected_stocks stocks_standIn id key optional library
  | change id call => exact (respected_stocks id).call library call
  | setFallback id fallback => exact stocks_setFallback id library fallback
  | observe id observer => exact stocks_modifyTable id library fun _ _ _ has ↦ has
  | listen observer => exact .of_tables_eq rfl (Nat.le_refl _)
  | create name relays =>
    have stocks : Stocks library (library.adding name relays) := by
      refine .of_held (Nat.le_refl _) fun other key shared has ↦ ?_
      by_cases same : other = library.nextTable
      · simp [same] at has
      · simpa [same] using has
    exact stocks
  | drop id =>
    have stocks : Stocks library (library.dropping id) := by
      refine .of_held (Nat.le_refl _) fun other key shared has ↦ ?_
      by_cases same : other = id
      · simp [same] at has
      · simpa [same] using has
    exact stocks

end

/-- What a table has under a key has the key as its name, and no identity was given out that is not below
the next one. -/
structure Stocked (library : Library) : Prop where
  named : ∀ (id : TableId) (key : String) (shared : Shared),
    (library.table id).entries[key]? = some shared → shared.phrase.name = key
  given : ∀ (id : TableId) (key : String) (shared : Shared),
    (library.table id).entries[key]? = some shared → shared.identity < library.nextIdentity

theorem stocks_afterDeeds (library : Library) (deeds : List Deed) :
    Stocks library (library.afterDeeds deeds) := by
  induction deeds generalizing library with
  | nil => exact .refl library
  | cons deed deeds ih => exact (stocks_perform library deed).trans (ih _)

/-- Every library that comes from an empty one is stocked. -/
theorem stocked_afterDeeds (deeds : List Deed) : (({} : Library).afterDeeds deeds).Stocked := by
  have stocks := stocks_afterDeeds {} deeds
  have blank (id : TableId) (key : String) (shared : Shared) :
      (({} : Library).table id).entries[key]? ≠ some shared := by simp
  constructor
  · intro id key shared held
    rcases stocks.held id key shared held with before | ⟨named, -⟩
    · exact absurd before (blank id key shared)
    · exact named
  · intro id key shared held
    rcases stocks.held id key shared held with before | ⟨-, -, given⟩
    · exact absurd before (blank id key shared)
    · exact given

/-! ## Looking up what is stored -/

/-- A lookup begins at the table that is asked. -/
theorem exists_lookupPath_eq (library : Library) (id : TableId) :
    ∃ rest, library.lookupPath id = id :: rest := by
  rw [lookupPath]
  cases library.tables.size with
  | zero => exact ⟨[], rfl⟩
  | succ fuel =>
    rw [chain]
    cases (library.table id).fallback with
    | none => exact ⟨[], rfl⟩
    | some next => exact ⟨library.chain fuel next, rfl⟩

/-- A lookup of what the table itself has ends there, and changes nothing. -/
theorem find_of_held {library : Library} {id : TableId} {key : String} {shared : Shared}
    (held : (library.table id).entries[key]? = some shared) (optional : Bool) :
    (find id key optional).run library =
      (if Text.isBlankText key then .error .blankKey else .ok shared, library) := by
  cases blank : Text.isBlankText key with
  | true => exact find_of_blank blank id optional library
  | false =>
    obtain ⟨rest, path⟩ := library.exists_lookupPath_eq id
    simp [find, blank, path, getAlong_of_mem held]

/-- Whatever was done to libraries and tables, every key that a table lists leads to the definition that
is stored under it, with whichever kind of lookup, unless it is blank. A key that is blank is listed too
if something was stored under it, and is refused by every lookup. Neither leaves a trace: nobody hears of
a miss, and the library is as it was. What a further call stores is found in the same way. -/
theorem stored_definitions_found_unless_blank (deeds : List Deed) (id : TableId) :
    let library := ({} : Library).afterDeeds deeds
    (∀ key ∈ (library.table id).entries.keys, ∃ shared,
      (library.table id).entries[key]? = some shared ∧ shared.phrase.name = key ∧
        ∀ optional, (find id key optional).run library =
          (if Text.isBlankText key then .error .blankKey else .ok shared, library)) ∧
    (id ∈ library.tables → ∀ (call : TableCall) (shared : Shared),
      let called := (call.step id).run library
      called.1 = .stored (.ok shared) →
        shared.phrase.name ∈ (called.2.table id).entries.keys ∧
          ∀ optional, (find id shared.phrase.name optional).run called.2 =
            (if Text.isBlankText shared.phrase.name then .error .blankKey else .ok shared,
              called.2)) := by
  intro library
  constructor
  · intro key listed
    obtain ⟨shared, held⟩ := exists_getElem?_of_mem (Std.TreeMap.mem_keys.1 listed)
    exact ⟨shared, held, (stocked_afterDeeds deeds).named id key shared held, find_of_held held⟩
  · intro known call shared called stored
    have held := TableCall.stored_of_step known stored
    have mem := Std.TreeMap.isSome_getElem?_iff_mem.1 (Option.isSome_of_eq_some held)
    exact ⟨Std.TreeMap.mem_keys.2 mem, find_of_held held⟩

/-- A table with a blank key and a plain one, and one key more. -/
theorem stored_definitions_found_unless_blank_menu :
    let library := ({} : Library).afterDeeds
      [.create "menu" false, .change 0 (.addRaw " " "nothing" false),
        .change 0 (.addRaw "soup" "hot" false), .observe 0 ⟨"first", .note⟩]
    let called := ((TableCall.addRaw "tea" "green" true).step 0).run library
    (library.table 0).entries.keys = [" ", "soup"] ∧
      (find 0 "soup" true).run library = (.ok ⟨1, .raw "soup" "hot"⟩, library) ∧
      (find 0 " " true).run library = (.error .blankKey, library) ∧
      (find 0 "tea" false).run called.2 = (.ok ⟨2, .raw "tea" "green"⟩, called.2) := by
  intro library called
  have keys : (library.table 0).entries.keys = [" ", "soup"] := by decide +kernel
  obtain ⟨listed, further⟩ := stored_definitions_found_unless_blank
    [.create "menu" false, .change 0 (.addRaw " " "nothing" false),
      .change 0 (.addRaw "soup" "hot" false), .observe 0 ⟨"first", .note⟩] 0
  obtain ⟨soup, held, -, found⟩ := listed "soup" (by decide +kernel)
  obtain ⟨blank, -, -, refused⟩ := listed " " (by decide +kernel)
  obtain ⟨-, tea⟩ := further (by decide +kernel) (.addRaw "tea" "green" true)
    ⟨2, .raw "tea" "green"⟩ rfl
  have same : (library.table 0).entries["soup"]? = some ⟨1, .raw "soup" "hot"⟩ := by decide +kernel
  obtain rfl : soup = ⟨1, .raw "soup" "hot"⟩ := Option.some.inj (held.symm.trans same)
  exact ⟨keys, found true, refused true, tea false⟩

/-- The empty key is stored and listed, and every lookup of it is refused. -/
theorem empty_key_listed_but_refused :
    let library := ({} : Library).afterDeeds
      [.create "menu" false, .change 0 (.addRaw "" "v" false)]
    (library.table 0).entries.keys = [""] ∧
      (library.table 0).entries[""]? = some ⟨0, .raw "" "v"⟩ ∧
      ∀ optional, (find 0 "" optional).run library = (.error .blankKey, library) := by
  refine ⟨by decide +kernel, by decide +kernel, fun optional ↦ ?_⟩
  exact find_of_blank (by decide) 0 optional _

end Library

end Phrasebook
