import Phrasebook.Proofs.Library.Normalizing

/-!
# What a table takes in

Every phrase that is put into a table gets an identity, the next one each time, whether it is taken or
not. So the definitions that a document comes to are numbered in the order of the document before any of
them is put into the table, and what becomes of them is told key by key: what the table had under a key
and the definitions of that key stand in line, the last of the line is kept if entries may be overwritten,
and otherwise the first is kept and the others are refused.
-/

namespace Phrasebook

open Phrasebook.Document (Entry)

/-- Phrases with identities one after the other. -/
def sharedFrom : Nat → List Phrase → List Shared
  | _, [] => []
  | next, phrase :: rest => ⟨next, phrase⟩ :: sharedFrom (next + 1) rest

def definitionsUnder (key : String) (definitions : List Shared) : List Shared :=
  definitions.filter (·.phrase.name = key)

theorem sharedFrom_append (next : Nat) (phrases more : List Phrase) :
    sharedFrom next (phrases ++ more) =
      sharedFrom next phrases ++ sharedFrom (next + phrases.length) more := by
  induction phrases generalizing next with
  | nil => rfl
  | cons phrase rest ih =>
    rw [List.cons_append, sharedFrom, ih, sharedFrom, List.cons_append, List.length_cons,
      Nat.add_assoc, Nat.add_comm 1]

theorem map_phrase_sharedFrom (next : Nat) (phrases : List Phrase) :
    (sharedFrom next phrases).map Shared.phrase = phrases := by
  induction phrases generalizing next with
  | nil => rfl
  | cons phrase rest ih => rw [sharedFrom, List.map_cons, ih]

theorem length_sharedFrom (next : Nat) (phrases : List Phrase) :
    (sharedFrom next phrases).length = phrases.length := by
  rw [← List.length_map Shared.phrase, map_phrase_sharedFrom]

theorem definitionsUnder_append (key : String) (definitions more : List Shared) :
    definitionsUnder key (definitions ++ more) =
      definitionsUnder key definitions ++ definitionsUnder key more := List.filter_append ..

theorem definitionsUnder_singleton (key : String) (shared : Shared) :
    definitionsUnder key [shared] = if shared.phrase.name = key then [shared] else [] := by
  rw [definitionsUnder, List.filter_singleton]
  by_cases same : shared.phrase.name = key <;> simp [same]

/-! ## Definitions in line -/

/-- What a table has under a key, and definitions of the key behind it. -/
def Table.lineAt (table : Table) (definitions : List Shared) (key : String) : List Shared :=
  table.entries[key]?.toList ++ definitionsUnder key definitions

def keptOf (overwrite : Bool) (line : List Shared) : Option Shared :=
  if overwrite then line.getLast? else line.head?

def refusedOf (overwrite : Bool) (line : List Shared) : List Shared :=
  if overwrite then [] else line.tail

theorem Table.lineAt_append (table : Table) (definitions more : List Shared) (key : String) :
    table.lineAt (definitions ++ more) key =
      table.lineAt definitions key ++ definitionsUnder key more := by
  rw [lineAt, lineAt, definitionsUnder_append, List.append_assoc]

section

variable (overwrite : Bool) (line more : List Shared)

/-- Who joins a line later stands behind the one that was kept. -/
theorem keptOf_append : keptOf overwrite ((keptOf overwrite line).toList ++ more) =
    keptOf overwrite (line ++ more) := by
  cases overwrite with
  | true =>
    rw [keptOf, keptOf, keptOf, if_pos rfl, if_pos rfl, if_pos rfl, List.getLast?_append,
      List.getLast?_append]
    cases line.getLast? <;> rfl
  | false => cases line <;> rfl

theorem refusedOf_append : refusedOf overwrite (line ++ more) =
    refusedOf overwrite line ++ refusedOf overwrite ((keptOf overwrite line).toList ++ more) := by
  cases overwrite with
  | true => rfl
  | false => cases line <;> rfl

/-- Nothing happens where nobody comes. -/
theorem keptOf_alone (held : Option Shared) :
    keptOf overwrite (held.toList ++ []) = held ∧ refusedOf overwrite (held.toList ++ []) = [] := by
  cases overwrite <;> cases held <;> exact ⟨rfl, rfl⟩

/-- A newcomer is kept if it may overwrite or the place is free. -/
theorem keptOf_newcomer {overwrite : Bool} {held : Option Shared}
    (free : overwrite = true ∨ held = none) (shared : Shared) :
    keptOf overwrite (held.toList ++ [shared]) = some shared ∧
      refusedOf overwrite (held.toList ++ [shared]) = [] := by
  rcases free with rfl | rfl
  · exact ⟨List.getLast?_concat, rfl⟩
  · cases overwrite <;> exact ⟨rfl, rfl⟩

end

namespace Library

/-- What becomes of phrases that are put into a table: some of their definitions are left out, and of
every key the table has and leaves out what the line at that key says. -/
structure TakenIn (id : TableId) (overwrite : Bool) (phrases : List Phrase) (before after : Library)
    (errors : List EntryError) : Prop where
  frame : SameBut id before after
  table : after.table id = { before.table id with entries := (after.table id).entries }
  next : after.nextIdentity = before.nextIdentity + phrases.length
  lines : ∃ left : List Shared, left.Sublist (sharedFrom before.nextIdentity phrases) ∧
    errors = left.map (fun shared ↦ .duplicateKey (before.table id).name shared.phrase.name) ∧
    ∀ key : String,
      let line := (before.table id).lineAt (sharedFrom before.nextIdentity phrases) key
      (after.table id).entries[key]? = keptOf overwrite line ∧
        definitionsUnder key left = refusedOf overwrite line

namespace TakenIn

variable {id : TableId} {overwrite : Bool} {phrases more : List Phrase}
  {before middle after : Library} {errors others : List EntryError}

theorem nil (library : Library) : TakenIn id overwrite [] library library [] where
  frame := .refl id library
  table := rfl
  next := rfl
  lines := ⟨[], .slnil, rfl, fun _ ↦ (keptOf_alone overwrite _).imp Eq.symm Eq.symm⟩

/-- Phrases that come in two goes are taken in like all of them in one. -/
theorem append (first : TakenIn id overwrite phrases before middle errors)
    (second : TakenIn id overwrite more middle after others) :
    TakenIn id overwrite (phrases ++ more) before after (errors ++ others) where
  frame := first.frame.trans second.frame
  table := by rw [second.table, first.table]
  next := by rw [second.next, first.next, List.length_append, Nat.add_assoc]
  lines := by
    obtain ⟨left, sublist, rfl, lines⟩ := first.lines
    obtain ⟨left', sublist', rfl, lines'⟩ := second.lines
    have name : (middle.table id).name = (before.table id).name := by rw [first.table]
    rw [sharedFrom_append, ← first.next]
    refine ⟨left ++ left', sublist.append sublist', by rw [List.map_append, name], fun key ↦ ?_⟩
    obtain ⟨held, under⟩ := lines key
    obtain ⟨held', under'⟩ := lines' key
    -- the second line has in front what was kept of the first one
    rw [Table.lineAt, held] at held' under'
    dsimp only
    rw [Table.lineAt_append]
    constructor
    · rw [held', keptOf_append]
    · rw [definitionsUnder_append, under, under', ← refusedOf_append]

/-- A phrase whose key is taken is left out. -/
theorem of_taken {phrase : Phrase} (frame : SameBut id before after)
    (table : after.table id = before.table id) (next : after.nextIdentity = before.nextIdentity + 1)
    (taken : phrase.name ∈ (before.table id).entries) :
    TakenIn id false [phrase] before after
      [.duplicateKey (before.table id).name phrase.name] where
  frame := frame
  table := by rw [table]
  next := next
  lines := by
    refine ⟨sharedFrom before.nextIdentity [phrase], .refl _, rfl, fun key ↦ ?_⟩
    rw [table, sharedFrom, sharedFrom, Table.lineAt, definitionsUnder_singleton]
    split
    · next same =>
      obtain ⟨shared, held⟩ := exists_getElem?_of_mem taken
      rw [← same, held]
      exact ⟨rfl, rfl⟩
    · exact (keptOf_alone false _).imp Eq.symm Eq.symm

/-- A phrase whose key is free, or may be overwritten, is what the table has under the key then. -/
theorem of_put {phrase : Phrase} (frame : SameBut id before after)
    (table : after.table id = { before.table id with
      entries := (before.table id).entries.insert phrase.name ⟨before.nextIdentity, phrase⟩ })
    (next : after.nextIdentity = before.nextIdentity + 1)
    (free : overwrite = true ∨ phrase.name ∉ (before.table id).entries) :
    TakenIn id overwrite [phrase] before after [] where
  frame := frame
  table := by rw [table]
  next := next
  lines := by
    refine ⟨[], List.nil_sublist _, rfl, fun key ↦ ?_⟩
    rw [table, sharedFrom, sharedFrom, Table.lineAt, definitionsUnder_singleton]
    dsimp only
    split
    · next same =>
      obtain ⟨newest, nobody⟩ :=
        keptOf_newcomer (free.imp_right Std.TreeMap.getElem?_eq_none) ⟨before.nextIdentity, phrase⟩
      rw [← same, newest, nobody]
      exact ⟨Std.TreeMap.getElem?_insert_self, rfl⟩
    · next apart =>
      obtain ⟨same, nobody⟩ := keptOf_alone overwrite (before.table id).entries[key]?
      rw [same, nobody, Std.TreeMap.getElem?_insert,
        if_neg fun same ↦ apart (Std.LawfulEqOrd.compare_eq_iff_eq.1 same)]
      exact ⟨rfl, rfl⟩

end TakenIn

theorem takenIn_insert (id : TableId) (phrase : Phrase) (overwrite : Bool) {library : Library}
    (known : id ∈ library.tables) :
    TakenIn id overwrite [phrase] library ((insert id phrase overwrite).run library).2
      (errorsOf ((insert id phrase overwrite).run library).1) := by
  have frame := sameBut_insert id phrase overwrite library
  by_cases refused : (!overwrite && (library.table id).entries.contains phrase.name) = true
  · obtain ⟨keeps, taken⟩ := Bool.and_eq_true_iff.1 refused
    obtain rfl : overwrite = false := by simpa using keeps
    rw [insert_run, if_pos refused] at frame ⊢
    exact .of_taken frame (table_eq_of_tables_eq rfl id) rfl taken
  · have free : overwrite = true ∨ phrase.name ∉ (library.table id).entries := by
      cases overwrite with
      | true => exact .inl rfl
      | false => exact .inr refused
    rw [insert_run, if_neg refused] at frame ⊢
    exact .of_put frame (table_modifyTable_self known) rfl free

theorem takenIn_insertAll (id : TableId) (phrases : List Phrase) (overwrite : Bool)
    {library : Library} (known : id ∈ library.tables) :
    TakenIn id overwrite phrases library ((insertAll id overwrite phrases).run library).2
      ((insertAll id overwrite phrases).run library).1 :=
  @insertAll_induction id overwrite (TakenIn id overwrite) .nil (fun _ _ _ _ _ _ _ ↦ .append)
    (fun phrase _ ↦ takenIn_insert id phrase overwrite) phrases library known

/-! ## Populating -/

/-- The phrases of a document with the identities that they get, in the order of the document. -/
def definitionsOf (next : Nat) (entries : List Entry) : List Shared :=
  sharedFrom next (entries.filterMap (·.phrase.toOption))

theorem phrases_phrasesOf (entries : List Entry) :
    (phrasesOf entries).1 = entries.filterMap (·.phrase.toOption) := by
  induction entries with
  | nil => rfl
  | cons entry entries ih =>
    rw [phrasesOf, List.filterMap_cons, ← ih]
    cases entry.phrase with
    | error error => rfl
    | ok phrase => rfl

theorem TakenIn.recorded {id : TableId} {overwrite : Bool} {phrases : List Phrase}
    {before staged filled after : Library} {errors : List EntryError}
    (unread : Recorded before staged) (taken : TakenIn id overwrite phrases staged filled errors)
    (logged : Recorded filled after) : TakenIn id overwrite phrases before after errors := by
  have frame := ((unread.sameBut id).trans taken.frame).trans (logged.sameBut id)
  obtain ⟨journal, rfl⟩ := unread
  obtain ⟨journal, rfl⟩ := logged
  exact ⟨frame, taken.table, taken.next, taken.lines⟩

/-- What populating a table from the entries of a document comes to, where `left` are the definitions
that are left out. -/
structure Populated (id : TableId) (overwrite : Bool) (entries : List Entry) (before after : Library)
    (report : LoadReport) (left : List Shared) : Prop where
  /-- Every entry is loaded or rejected. -/
  counted : report.loaded + report.rejected.length = entries.length
  /-- First come the entries without a phrase, then the definitions whose key was taken. -/
  rejected : report.rejected = entries.filterMap Document.Entry.error? ++
    left.map fun shared ↦ .duplicateKey (before.table id).name shared.phrase.name
  ordered : left.Sublist (definitionsOf before.nextIdentity entries)
  /-- Where entries may be overwritten, nothing is left out and the last definition of a key counts. -/
  overwritten : overwrite = true → left = [] ∧ ∀ key, (after.table id).entries[key]? =
    (definitionsUnder key (definitionsOf before.nextIdentity entries)).getLast?.or
      (before.table id).entries[key]?
  /-- Otherwise the table keeps what it has, and all definitions of the key are left out. -/
  held : overwrite = false → ∀ key shared, (before.table id).entries[key]? = some shared →
    (after.table id).entries[key]? = some shared ∧
      definitionsUnder key left = definitionsUnder key (definitionsOf before.nextIdentity entries)
  /-- Of a key that is new to the table the first definition counts, and the others are left out. -/
  new : overwrite = false → ∀ key, (before.table id).entries[key]? = none →
    (after.table id).entries[key]? =
        (definitionsUnder key (definitionsOf before.nextIdentity entries)).head? ∧
      definitionsUnder key left =
        (definitionsUnder key (definitionsOf before.nextIdentity entries)).tail
  others : ∀ key, key ∉ entries.map Entry.key →
    (after.table id).entries[key]? = (before.table id).entries[key]?
  table : after.table id = { before.table id with entries := (after.table id).entries }
  frame : SameBut id before after

theorem eq_nil_of_definitionsUnder {left : List Shared}
    (none_left : ∀ key, definitionsUnder key left = []) : left = [] := by
  refine List.eq_nil_iff_forall_not_mem.2 fun shared mem ↦ ?_
  have under : shared ∈ definitionsUnder shared.phrase.name left :=
    List.mem_filter.2 ⟨mem, decide_eq_true rfl⟩
  rw [none_left] at under
  exact List.not_mem_nil under

theorem definitionsUnder_eq_nil {key : String} {entries : List Entry}
    (absent : key ∉ entries.map Entry.key) (next : Nat) :
    definitionsUnder key (definitionsOf next entries) = [] := by
  refine List.filter_eq_nil_iff.2 fun shared mem named ↦ absent ?_
  have phrase : shared.phrase ∈ entries.filterMap (·.phrase.toOption) := by
    rw [← map_phrase_sharedFrom next (entries.filterMap (·.phrase.toOption))]
    exact List.mem_map_of_mem mem
  obtain ⟨entry, mem, read⟩ := List.mem_filterMap.1 phrase
  rw [← of_decide_eq_true named, entry.name_of_phrase_eq_ok (eq_ok_of_toOption read)]
  exact List.mem_map_of_mem mem

theorem TakenIn.populated {id : TableId} {overwrite : Bool} {entries : List Entry}
    {before after : Library} {errors : List EntryError}
    (taken : TakenIn id overwrite (phrasesOf entries).1 before after errors) :
    ∃ left, Populated id overwrite entries before after
      ⟨(phrasesOf entries).1.length - errors.length, (phrasesOf entries).2 ++ errors⟩ left := by
  obtain ⟨left, sublist, same, lines⟩ := taken.lines
  have all := length_phrasesOf entries
  have few := sublist.length_le
  rw [length_sharedFrom] at few
  have counted : errors.length = left.length := by rw [same, List.length_map]
  rw [phrases_phrasesOf, ← definitionsOf] at sublist lines
  refine ⟨left, ?counted, ?rejected, sublist, ?overwritten, ?held, ?new, ?others, taken.table,
    taken.frame⟩
  case counted =>
    dsimp only
    rw [List.length_append]
    omega
  case rejected => rw [errors_phrasesOf, same]
  case overwritten =>
    rintro rfl
    refine ⟨eq_nil_of_definitionsUnder fun key ↦ (lines key).2, fun key ↦ ?_⟩
    rw [(lines key).1, keptOf, if_pos rfl, Table.lineAt, List.getLast?_append]
    cases (before.table id).entries[key]? <;> rfl
  case held =>
    rintro rfl key shared has
    have line := lines key
    rwa [Table.lineAt, has] at line
  case new =>
    rintro rfl key has
    have line := lines key
    rwa [Table.lineAt, has] at line
  case others =>
    intro key absent
    rw [(lines key).1, Table.lineAt, definitionsUnder_eq_nil absent, (keptOf_alone overwrite _).1]

/-- A document that can be read accounts for all of its entries when it is loaded. -/
theorem populate_populated {content : Markup.Stream} {entries : List Entry}
    (read : Document.entriesOf content = .ok entries) (overwrite : Bool) {id : TableId}
    {library : Library} (known : id ∈ library.tables) :
    ∃ report after left, (populate id content overwrite).run library = (.ok report, after) ∧
      Populated id overwrite entries library after report left := by
  obtain ⟨staged, after, unread, logged, ran⟩ := populate_run read id overwrite library
  have taken := takenIn_insertAll id (phrasesOf entries).1 overwrite
    (((unread.sameBut id).known id).2 known)
  obtain ⟨left, populated⟩ := (taken.recorded unread logged).populated
  exact ⟨_, after, left, ran, populated⟩

/-- Populating a table accounts for every entry of the document. If the document cannot be read, that is
the answer and nothing changed but the journal. Otherwise every entry is loaded or rejected: first the
entries without a phrase are rejected, then the definitions that found their key taken, each in the order
of the document. Under every key of the document the last definition is kept if entries may be
overwritten, and otherwise what the table had or, of a new key, the first definition. -/
theorem population_accounts_for_every_entry (content : Markup.Stream) (overwrite : Bool)
    {id : TableId} {library : Library} (known : id ∈ library.tables) :
    (∀ fault, Document.entriesOf content = .error fault → ∃ after, Recorded library after ∧
      (populate id content overwrite).run library =
        (.error (.document ((library.table id).status.location.getD (library.table id).name) fault),
          after)) ∧
    ∀ entries, Document.entriesOf content = .ok entries → ∃ report after left,
      (populate id content overwrite).run library = (.ok report, after) ∧
        Populated id overwrite entries library after report left := by
  constructor
  · intro fault read
    exact populate_of_fault read id overwrite library
  · intro entries read
    exact populate_populated read overwrite known

/-- An entry without a phrase, a key that the table has, and a key that comes twice. -/
theorem population_accounts_for_every_entry_greetings :
    let content := Markup.Stream.ofBytes (["<StringTable><File SourcePath='hud.rs'>",
      "<String Name='odd'>\x7b</String><Literal Name='hi'>Hi</Literal>",
      "<Literal Name='bye'>Bye</Literal></File><File SourcePath='end.rs'>",
      "<Literal Name='bye'>So long</Literal></File></StringTable>"].flatMap Text.Utf8.encode)
    let library := (({ tables := (∅ : Std.TreeMap TableId Table).insert 0 { name := "hud" } } :
      Library) |> (addRaw 0 "hi" "Hello" false).run).2
    0 ∈ library.tables ∧ ∃ entries report after left, Document.entriesOf content = .ok entries ∧
      entries.length = 4 ∧ (populate 0 content false).run library = (.ok report, after) ∧
      Populated 0 false entries library after report left ∧ report.loaded = 1 ∧
      report.rejected.tail = [.duplicateKey "hud" "hi", .duplicateKey "hud" "bye"] ∧
      (after.table 0).entries["bye"]? = some ⟨2, .raw "bye" "Bye"⟩ := by
  intro content library
  have known : 0 ∈ library.tables := by decide +kernel
  obtain ⟨entries, read, counted⟩ : ∃ entries, Document.entriesOf content = .ok entries ∧
      entries.length = 4 := by
    have counted : (Document.entriesOf content).toOption.map List.length = some 4 := by
      decide +kernel
    obtain ⟨entries, read, counted⟩ := Option.map_eq_some_iff.1 counted
    exact ⟨entries, eq_ok_of_toOption read, counted⟩
  obtain ⟨report, after, left, ran, populated⟩ :=
    (population_accounts_for_every_entry content false known).2 entries read
  have told : ((populate 0 content false).run library).1.toOption.map
      (fun report ↦ (report.loaded, report.rejected.tail)) =
        some (1, [.duplicateKey "hud" "hi", .duplicateKey "hud" "bye"]) := by
    decide +kernel
  have bye : (((populate 0 content false).run library).2.table 0).entries["bye"]? =
      some ⟨2, .raw "bye" "Bye"⟩ := by
    decide +kernel
  rw [ran] at told bye
  obtain ⟨loaded, rejected⟩ := Prod.mk.inj (Option.some.inj told)
  exact ⟨known, entries, report, after, left, read, counted, ran, populated, loaded, rejected, bye⟩

end Library

end Phrasebook
