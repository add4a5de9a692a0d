import Phrasebook.Proofs.Catalog.Segments

/-!
# Loads in several moves

While a resource is being opened, others may act on the catalog. Here the loads and reloads that
wait for an opening are kept on a stack, so that what others do in the meantime becomes a sequence
of moves: an operation begins and runs up to its first opening, or the innermost operation that
waits is resumed and runs up to its next one. Whatever the catalog does with interruptions, however
they are nested, is a sequence of such moves.
-/

namespace Phrasebook.Catalog

open Phrasebook.Storage

/-- An operation that waits after an opening. -/
inductive Frame where
  /-- A load that fills a new table. -/
  | fresh (filling : Filling)
  /-- A load that fills a table that is kept. -/
  | stale (filling : Filling)
  /-- A reload of all tables, with those that are still to be filled. -/
  | all (filling : Filling) (rest : List (TableKey × TableId)) (report : ReloadReport)

def Frame.filling : Frame → Filling
  | fresh filling => filling
  | stale filling => filling
  | all filling _ _ => filling

inductive Progress where
  | waiting (frame : Frame)
  | answered (key : TableKey) (result : Except TableError TableId)
  | reported (report : ReloadReport)

/-! ## Operations in parts -/

def answer (key : TableKey) (result : Except TableError TableId) : CatalogM Progress := do
  inLibrary (modify fun library ↦ { library with journal := library.journal.leave })
  return .answered key result

/-- Runs `refresh` up to its opening. -/
def beginRefresh (key : TableKey) (id : TableId) (target : String) (optional force : Bool) :
    CatalogM Progress := do
  if !force && (← get).isCurrent id target then answer key (.ok id)
  else return .waiting (.stale (← openAgain key id target optional))

/-- Runs a load up to its first opening. -/
def beginLoad (key : TableKey) (optional force : Bool) : CatalogM Progress := do
  let target := (← get).locale
  inLibrary (modify fun library ↦ { library with journal := library.journal.enter })
  match (← get).cached? key with
  | some id => beginRefresh key id target optional force
  | none => return .waiting (.fresh (← openNew key target optional))

def beginEach (target : String) :
    List (TableKey × TableId) → ReloadReport → CatalogM Progress
  | [], report => do
    log (.reloadedAll report.reloaded.length report.missing.length report.rejected.length
      report.failed.length)
    return .reported report
  | (key, id) :: rest, report => do
    return .waiting (.all (← openAgain key id target false) rest report)

def beginReloadAll : CatalogM Progress := do
  let catalog ← get
  beginEach catalog.locale catalog.cache.toList {}

/-- Runs an operation that waits up to its next opening. -/
def Frame.resume : Frame → CatalogM Progress
  | .fresh filling => do
    match ← filling.finish false with
    | .error error =>
      inLibrary (Library.dropTable filling.id)
      answer filling.key (.error error)
    | .ok () =>
      match ← filling.keep with
      | none => answer filling.key (.ok filling.id)
      | some winner => beginRefresh filling.key winner filling.target filling.optional false
  | .stale filling => do
    let result ← filling.finish true
    answer filling.key (result.map fun _ ↦ filling.id)
  | .all filling rest report => do beginEach filling.target rest (← filling.report report)

section

variable {catalog : Catalog} {key : TableKey} {id : TableId} {target : String}
  {optional force : Bool} {filling : Filling}

@[simp] theorem answer_run (result : Except TableError TableId) :
    (answer key result).run catalog = (.answered key result, catalog.journaling .leave) := by
  simp [answer]

theorem beginRefresh_run_of_current (h : (!force && catalog.isCurrent id target) = true) :
    (beginRefresh key id target optional force).run catalog =
      (.answered key (.ok id), catalog.journaling .leave) := by
  obtain ⟨unforced, filled⟩ : force = false ∧ catalog.isCurrent id target = true := by simpa using h
  simp [beginRefresh, unforced, filled]

theorem beginRefresh_run_of_stale (h : (!force && catalog.isCurrent id target) = false) :
    (beginRefresh key id target optional force).run catalog =
      (.waiting (.stale (catalog.filling key id target optional)),
        catalog.openedAgain key target) := by
  cases force with
  | true => simp [beginRefresh]
  | false =>
    have old : catalog.isCurrent id target = false := h
    simp [beginRefresh, old]

theorem beginLoad_run_of_cached (h : catalog.cached? key = some id) :
    (beginLoad key optional force).run catalog =
      (beginRefresh key id catalog.locale optional force).run (catalog.journaling .enter) := by
  simp [beginLoad, h]

theorem beginLoad_run_of_absent (h : catalog.cached? key = none) :
    (beginLoad key optional force).run catalog =
      (.waiting (.fresh ((catalog.journaling .enter).filling key catalog.library.nextTable
        catalog.locale optional)), (catalog.journaling .enter).openedNew key catalog.locale) := by
  simp [beginLoad, h]

theorem beginEach_cons_run (target : String) (pair : TableKey × TableId)
    (rest : List (TableKey × TableId)) (report : ReloadReport) (catalog : Catalog) :
    (beginEach target (pair :: rest) report).run catalog =
      (.waiting (.all (catalog.filling pair.1 pair.2 target false) rest report),
        catalog.openedAgain pair.1 target) := by
  simp [beginEach]

theorem beginReloadAll_run (catalog : Catalog) :
    beginReloadAll.run catalog =
      (beginEach catalog.locale catalog.cache.toList {}).run catalog := by
  rw [beginReloadAll, run_bind, run_get]

theorem resume_stale_run (filling : Filling) (catalog : Catalog) :
    (Frame.stale filling).resume.run catalog =
      let finished := (filling.finish true).run catalog
      (.answered filling.key (finished.1.map fun _ ↦ filling.id),
        finished.2.journaling .leave) := by
  simp [Frame.resume]

theorem resume_all_run (filling : Filling) (rest : List (TableKey × TableId))
    (report : ReloadReport) (catalog : Catalog) :
    (Frame.all filling rest report).resume.run catalog =
      let finished := (filling.report report).run catalog
      (beginEach filling.target rest finished.1).run finished.2 := by
  simp [Frame.resume]

theorem resume_fresh_of_error {error : TableError}
    (h : ((filling.finish false).run catalog).1 = .error error) :
    (Frame.fresh filling).resume.run catalog = (.answered filling.key (.error error),
      (((filling.finish false).run catalog).2.dropping filling.id).journaling .leave) := by
  simp [Frame.resume, h]

theorem resume_fresh_of_kept (h : ((filling.finish false).run catalog).1 = .ok ())
    (absent : ((filling.finish false).run catalog).2.cached? filling.key = none) :
    (Frame.fresh filling).resume.run catalog = (.answered filling.key (.ok filling.id),
      (((filling.finish false).run catalog).2.keeping filling.key filling.id).journaling
        .leave) := by
  simp [Frame.resume, h, keep_run_of_none absent]

/-- A new table that lost is dropped, and the one that is kept is refreshed in its place. -/
theorem resume_fresh_of_lost {winner : TableId}
    (h : ((filling.finish false).run catalog).1 = .ok ())
    (kept : ((filling.finish false).run catalog).2.cached? filling.key = some winner) :
    (Frame.fresh filling).resume.run catalog =
      (beginRefresh filling.key winner filling.target filling.optional false).run
        ((((filling.finish false).run catalog).2.journaling
          (·.log (.duplicateDiscarded filling.key.text))).dropping filling.id) := by
  simp [Frame.resume, h, keep_run_of_some kept]

end

/-! ## The machine -/

/-- A catalog with the operations that wait, the innermost first. Every one of them is marked with
the number of locale changes before it began. -/
structure Machine where
  catalog : Catalog
  epoch : Nat := 0
  suspended : List (Nat × Frame) := []

inductive Move where
  | setLocale (locale : String)
  | load (key : TableKey) (optional force : Bool)
  | reloadAll
  /-- The innermost operation that waits goes on. -/
  | resume
  | edit (change : Store → Store)
  /-- Other interruptions are put down. -/
  | rearrange (interruptions : Std.TreeMap String (List Action))

deriving instance DecidableEq for Except

/-- The answer to a load, with the number of locale changes before it began. -/
structure Reply where
  key : TableKey
  result : Except TableError TableId
  began : Nat
deriving DecidableEq

/-- The operations that wait, with one that came this far above the others. -/
def Progress.onto (began : Nat) (rest : List (Nat × Frame)) : Progress → List (Nat × Frame)
  | waiting frame => (began, frame) :: rest
  | answered _ _ => rest
  | reported _ => rest

theorem Progress.mem_onto {began : Nat} {rest : List (Nat × Frame)} {progress : Progress}
    {operation : Nat × Frame} (h : operation ∈ progress.onto began rest) :
    progress = .waiting operation.2 ∧ operation.1 = began ∨ operation ∈ rest := by
  cases progress with
  | answered key result => exact .inr h
  | reported report => exact .inr h
  | waiting frame =>
    rcases List.mem_cons.1 h with rfl | h
    · exact .inl ⟨rfl, rfl⟩
    · exact .inr h

theorem Progress.mem_onto_of_mem {rest : List (Nat × Frame)} {operation : Nat × Frame}
    (h : operation ∈ rest) (began : Nat) (progress : Progress) :
    operation ∈ progress.onto began rest := by
  cases progress with
  | answered key result => exact h
  | reported report => exact h
  | waiting frame => exact List.mem_cons_of_mem _ h

theorem Progress.pairwise_onto {began : Nat} {rest : List (Nat × Frame)} {progress : Progress}
    {R : Nat × Frame → Nat × Frame → Prop} (others : rest.Pairwise R)
    (new : ∀ frame, progress = .waiting frame → ∀ other ∈ rest, R (began, frame) other) :
    (progress.onto began rest).Pairwise R := by
  cases progress with
  | answered key result => exact others
  | reported report => exact others
  | waiting frame => exact List.pairwise_cons.2 ⟨new frame rfl, others⟩

def Progress.reply? (began : Nat) : Progress → Option Reply
  | waiting _ => none
  | answered key result => some ⟨key, result, began⟩
  | reported _ => none

theorem Progress.reply?_eq_some {began mark : Nat} {progress : Progress} {key : TableKey}
    {result : Except TableError TableId} (h : progress.reply? began = some ⟨key, result, mark⟩) :
    progress = .answered key result ∧ began = mark := by
  cases progress with
  | waiting frame => cases h
  | reported report => cases h
  | answered other found =>
    cases h
    exact ⟨rfl, rfl⟩

namespace Machine

/-- Runs a part of an operation above operations that wait. -/
@[simps]
def advance (machine : Machine) (began : Nat) (rest : List (Nat × Frame))
    (part : CatalogM Progress) : Machine × Option Reply :=
  let ran := part.run machine.catalog
  ({ machine with catalog := ran.2, suspended := ran.1.onto began rest }, ran.1.reply? began)

theorem advance_congr {machine other : Machine} {began : Nat} {rest : List (Nat × Frame)}
    {part equal : CatalogM Progress} (epoch : other.epoch = machine.epoch)
    (h : part.run machine.catalog = equal.run other.catalog) :
    machine.advance began rest part = other.advance began rest equal := by
  rw [advance, advance, h, epoch]

/-- The machine after a move, and the answer if the move ended a load. -/
def step (machine : Machine) : Move → Machine × Option Reply
  | .setLocale locale => ({ machine with
      catalog := ((Catalog.setLocale locale).run machine.catalog).2
      epoch := machine.epoch + 1 }, none)
  | .load key optional force =>
    machine.advance machine.epoch machine.suspended (beginLoad key optional force)
  | .reloadAll => machine.advance machine.epoch machine.suspended beginReloadAll
  | .resume =>
    match machine.suspended with
    | [] => (machine, none)
    | (began, frame) :: rest => machine.advance began rest frame.resume
  | .edit change => ({ machine with catalog := ((inStore change).run machine.catalog).2 }, none)
  | .rearrange interruptions =>
    ({ machine with catalog := { machine.catalog with interruptions := interruptions } }, none)

section

variable (machine : Machine)

@[simp] theorem step_setLocale (locale : String) : machine.step (.setLocale locale) =
    ({ machine with
      catalog := ((Catalog.setLocale locale).run machine.catalog).2
      epoch := machine.epoch + 1 }, none) := rfl

@[simp] theorem step_load (key : TableKey) (optional force : Bool) :
    machine.step (.load key optional force) =
      machine.advance machine.epoch machine.suspended (beginLoad key optional force) := rfl

@[simp] theorem step_reloadAll : machine.step .reloadAll =
    machine.advance machine.epoch machine.suspended beginReloadAll := rfl

@[simp] theorem step_edit (change : Store → Store) : machine.step (.edit change) =
    ({ machine with catalog.store := change machine.catalog.store }, none) := rfl

@[simp] theorem step_rearrange (interruptions : Std.TreeMap String (List Action)) :
    machine.step (.rearrange interruptions) =
      ({ machine with catalog.interruptions := interruptions }, none) := rfl

end

@[simp] theorem step_resume_of_nil {machine : Machine} (stack : machine.suspended = []) :
    machine.step .resume = (machine, none) := by
  rw [step, stack]

theorem step_resume {machine : Machine} {began : Nat} {frame : Frame} {rest : List (Nat × Frame)}
    (stack : machine.suspended = (began, frame) :: rest) :
    machine.step .resume = machine.advance began rest frame.resume := by
  rw [step, stack]

def run (machine : Machine) (moves : List Move) : Machine :=
  moves.foldl (fun machine move ↦ (machine.step move).1) machine

theorem run_cons (machine : Machine) (move : Move) (moves : List Move) :
    machine.run (move :: moves) = (machine.step move).1.run moves := rfl

theorem run_append (machine : Machine) (moves more : List Move) :
    machine.run (moves ++ more) = (machine.run moves).run more :=
  List.foldl_append

/-- The machine after moves, with the answer to the last of them. -/
def play (state : Machine × Option Reply) (moves : List Move) : Machine × Option Reply :=
  moves.foldl (fun state move ↦ state.1.step move) state

theorem play_append (state : Machine × Option Reply) (moves more : List Move) :
    play state (moves ++ more) = play (play state moves) more :=
  List.foldl_append

theorem play_run (state : Machine × Option Reply) (moves : List Move) :
    (play state moves).1 = state.1.run moves := by
  induction moves generalizing state with
  | nil => rfl
  | cons move rest ih => exact ih (state.1.step move)

/-! ## Every run of a catalog is a sequence of moves -/

/-- Some moves lead to a catalog and an answer, with the operations below still waiting. -/
def Completes (state : Machine × Option Reply) (rest : List (Nat × Frame)) (catalog : Catalog)
    (reply : Option Reply) : Prop :=
  ∃ moves, (play state moves).1.catalog = catalog ∧ (play state moves).1.suspended = rest ∧
    (play state moves).2 = reply

/-- What a step does to a catalog is done by moves, whatever waits. -/
def Simulated {α : Type} (step : CatalogM α) : Prop :=
  ∀ machine : Machine, ∃ moves, (machine.run moves).catalog = (step.run machine.catalog).2 ∧
    (machine.run moves).suspended = machine.suspended

theorem simulated_pure {α : Type} (a : α) : Simulated (pure a : CatalogM α) :=
  fun _ ↦ ⟨[], rfl, rfl⟩

theorem Simulated.bind {α β : Type} {step : CatalogM α} {next : α → CatalogM β}
    (first : Simulated step) (second : ∀ a, Simulated (next a)) : Simulated (step >>= next) := by
  intro machine
  obtain ⟨moves, catalog, waiting⟩ := first machine
  obtain ⟨more, catalog', waiting'⟩ := second (step.run machine.catalog).1 (machine.run moves)
  refine ⟨moves ++ more, ?_, ?_⟩
  · rw [run_append, catalog', catalog]
    rfl
  · rw [run_append, waiting', waiting]

/-- What completes above operations that wait leaves them as they were. -/
theorem Completes.simulated {machine : Machine} {move : Move} {catalog : Catalog}
    {reply : Option Reply}
    (completes : Completes (machine.step move) machine.suspended catalog reply) :
    ∃ moves, (machine.run moves).catalog = catalog ∧
      (machine.run moves).suspended = machine.suspended := by
  obtain ⟨moves, reached, waiting, -⟩ := completes
  rw [play_run] at reached waiting
  exact ⟨move :: moves, reached, waiting⟩

section

variable {interleave : Interleave} (acts : ∀ actions, Simulated (interleave actions))

include acts

theorem simulated_await (filling : Filling) : Simulated (filling.await interleave) := by
  intro machine
  rw [Filling.await, run_bind, run_get]
  dsimp only
  cases machine.catalog.interruptions[filling.location]? with
  | none => exact ⟨[], rfl, rfl⟩
  | some actions =>
    let interruptions := machine.catalog.interruptions.erase filling.location
    obtain ⟨moves, catalog, waiting⟩ :=
      acts actions { machine with catalog.interruptions := interruptions }
    exact ⟨.rearrange interruptions :: moves, catalog, waiting⟩

/-- An operation that waits goes on after others have acted. -/
theorem completes_waiting {frame : Frame} {began : Nat}
    {rest : List (Nat × Frame)} {opened catalog : Catalog} {reply : Option Reply} (epoch : Nat)
    (later : ∀ machine : Machine,
      machine.catalog = ((frame.filling.await interleave).run opened).2 →
      Completes (machine.advance began rest frame.resume) rest catalog reply) :
    Completes (⟨opened, epoch, (began, frame) :: rest⟩, none) rest catalog reply := by
  obtain ⟨moves, reached, waiting⟩ :=
    simulated_await acts frame.filling ⟨opened, epoch, (began, frame) :: rest⟩
  obtain ⟨more, found, waits, replied⟩ := later (Machine.run ⟨opened, epoch, _⟩ moves) reached
  have resumed : play (⟨opened, epoch, (began, frame) :: rest⟩, none) (moves ++ .resume :: more) =
      play ((Machine.run ⟨opened, epoch, (began, frame) :: rest⟩ moves).advance began rest
        frame.resume) more := by
    rw [play_append, play, List.foldl_cons, ← play, play_run]
    dsimp only
    rw [step_resume waiting]
  exact ⟨moves ++ .resume :: more, by rw [resumed]; exact ⟨found, waits, replied⟩⟩

/-- A refresh that lets others act in its middle is a row of moves. -/
theorem completes_refresh (machine : Machine) (began : Nat) (rest : List (Nat × Frame))
    (key : TableKey) (id : TableId) (target : String) (optional force : Bool) :
    Completes (machine.advance began rest (beginRefresh key id target optional force)) rest
      (((refresh interleave key id target optional force).run machine.catalog).2.journaling .leave)
      (some ⟨key, ((refresh interleave key id target optional force).run machine.catalog).1.map
        fun _ ↦ id, began⟩) := by
  cases current : !force && machine.catalog.isCurrent id target with
  | true =>
    rw [advance, beginRefresh_run_of_current current, refresh_of_current current]
    exact ⟨[], rfl, rfl, rfl⟩
  | false =>
    rw [advance, beginRefresh_run_of_stale current, refresh_of_stale current, reloadTable, run_bind,
      openAgain_run, run_bind]
    refine completes_waiting acts machine.epoch fun later reached ↦ ?_
    rw [advance, resume_stale_run, reached]
    exact ⟨[], rfl, rfl, rfl⟩

/-- A load that adds a table is a row of moves. -/
theorem completes_new (catalog : Catalog) (epoch began : Nat) (rest : List (Nat × Frame))
    (key : TableKey) (target : String) (optional : Bool) :
    Completes (⟨catalog.openedNew key target, epoch,
        (began, .fresh (catalog.filling key catalog.library.nextTable target optional)) :: rest⟩,
        none) rest
      (((loadNew interleave key target optional).run catalog).2.journaling .leave)
      (some ⟨key, ((loadNew interleave key target optional).run catalog).1, began⟩) := by
  rw [loadNew, run_bind, openNew_run, run_bind, run_bind]
  refine completes_waiting acts epoch fun later reached ↦ ?_
  dsimp only [Frame.filling] at reached ⊢
  rw [← reached]
  generalize hfilling : catalog.filling key catalog.library.nextTable target optional = filling
  obtain rfl : filling.key = key := by rw [← hfilling]; rfl
  obtain rfl : filling.target = target := by rw [← hfilling]; rfl
  obtain rfl : filling.optional = optional := by rw [← hfilling]; rfl
  cases finished : ((filling.finish false).run later.catalog).1 with
  | error error =>
    rw [advance, resume_fresh_of_error finished]
    exact ⟨[], rfl, rfl, rfl⟩
  | ok _ =>
    dsimp only
    rw [run_bind]
    cases kept : ((filling.finish false).run later.catalog).2.cached? filling.key with
    | none =>
      rw [advance, resume_fresh_of_kept finished kept, keep_run_of_none kept]
      exact ⟨[], rfl, rfl, rfl⟩
    | some winner =>
      rw [keep_run_of_some kept]
      let lost := (((filling.finish false).run later.catalog).2.journaling
        (·.log (.duplicateDiscarded filling.key.text))).dropping filling.id
      have resumed := resume_fresh_of_lost finished kept
      rw [@advance_congr later { later with catalog := lost } began rest _ _ rfl resumed]
      have refreshed := completes_refresh acts { later with catalog := lost } began rest filling.key
        winner filling.target filling.optional false
      dsimp only at refreshed ⊢
      rw [run_bind]
      cases h : ((refresh interleave filling.key winner filling.target filling.optional
        false).run lost).1 with
      | ok _ =>
        rw [h] at refreshed
        exact refreshed
      | error error =>
        rw [h] at refreshed
        exact refreshed

/-- A load is done by moves, of which the last one gives its answer. -/
theorem completes_load (machine : Machine) (key : TableKey) (optional force : Bool) :
    Completes (machine.step (.load key optional force)) machine.suspended
      ((loadWith interleave key optional force).run machine.catalog).2
      (some ⟨key, ((loadWith interleave key optional force).run machine.catalog).1,
        machine.epoch⟩) := by
  rw [step_load, loadWith_run]
  cases h : machine.catalog.cached? key with
  | none =>
    have absent : (machine.catalog.journaling .enter).cached? key = none := h
    rw [advance, beginLoad_run_of_absent h, request_of_absent absent]
    exact completes_new acts (machine.catalog.journaling .enter) machine.epoch machine.epoch
      machine.suspended key machine.catalog.locale optional
  | some id =>
    have kept : (machine.catalog.journaling .enter).cached? key = some id := h
    let entered : Machine := { machine with catalog := machine.catalog.journaling .enter }
    rw [request_of_cached kept,
      @advance_congr machine entered _ _ _ _ rfl (beginLoad_run_of_cached h)]
    exact completes_refresh acts entered machine.epoch machine.suspended key id
      machine.catalog.locale optional force

/-- A reload of tables is done by moves. -/
theorem completes_each (machine : Machine) (began : Nat) (rest : List (Nat × Frame))
    (target : String) (tables : List (TableKey × TableId)) (report : ReloadReport) :
    Completes (machine.advance began rest (beginEach target tables report)) rest
      ((reloadEach interleave target tables report).run machine.catalog).2 none := by
  induction tables generalizing machine report with
  | nil => exact ⟨[], rfl, rfl, rfl⟩
  | cons pair tables ih =>
    obtain ⟨key, id⟩ := pair
    rw [advance, beginEach_cons_run, reloadEach, run_bind, openAgain_run, run_bind, run_bind]
    refine completes_waiting acts machine.epoch fun later reached ↦ ?_
    dsimp only [Frame.filling] at reached ⊢
    rw [← reached]
    exact ih { later with catalog := (((machine.catalog.filling key id target false).report
      report).run later.catalog).2 } _

theorem completes_reloadAll (machine : Machine) :
    Completes (machine.step .reloadAll) machine.suspended
      ((reloadAllWith interleave).run machine.catalog).2 none := by
  rw [step_reloadAll,
    @advance_congr machine machine _ _ _ _ rfl (beginReloadAll_run machine.catalog),
    reloadAllWith_run]
  exact completes_each acts machine machine.epoch machine.suspended machine.catalog.locale
    machine.catalog.cache.toList {}

theorem simulated_performWith (action : Action) : Simulated (performWith interleave action) := by
  intro machine
  cases action with
  | load key optional force => exact (completes_load acts machine key optional force).simulated
  | setLocale locale => exact ⟨[.setLocale locale], rfl, rfl⟩
  | reloadAll => exact (completes_reloadAll acts machine).simulated
  | put location bytes => exact ⟨[.edit (·.put location bytes)], rfl, rfl⟩
  | putForeign location bytes => exact ⟨[.edit (·.putForeign location bytes)], rfl, rfl⟩
  | remove location => exact ⟨[.edit fun store ↦ (store.remove location).2], rfl, rfl⟩

end

theorem simulated_forM {perform : Action → CatalogM Unit} (h : ∀ action, Simulated (perform action))
    (actions : List Action) : Simulated (actions.forM perform) := by
  induction actions with
  | nil => exact simulated_pure ()
  | cons action rest ih => exact (h action).bind fun _ ↦ ih

/-- Interruptions are done by moves, by induction on how deep they are nested. -/
theorem simulated_perform (depth : Nat) (actions : List Action) :
    Simulated (perform depth actions) := by
  induction depth generalizing actions with
  | zero => exact simulated_pure ()
  | succ depth ih => exact simulated_forM (simulated_performWith ih) actions

theorem simulated_interleave (actions : List Action) : Simulated (interleave actions) := by
  intro machine
  rw [interleave, run_bind, run_get]
  exact simulated_perform (machine.catalog.interruptions.size + 1) actions machine

/-- A load, with everything that others do in its openings, is a sequence of moves that begins with
the load and ends with its answer. -/
theorem load_is_played (machine : Machine) (key : TableKey) (optional force : Bool) :
    Completes (machine.step (.load key optional force)) machine.suspended
      ((load key optional force).run machine.catalog).2
      (some ⟨key, ((load key optional force).run machine.catalog).1, machine.epoch⟩) := by
  rw [load]
  exact completes_load simulated_interleave machine key optional force

/-- So is a reload of all tables. -/
theorem reloadAll_is_played (machine : Machine) :
    Completes (machine.step .reloadAll) machine.suspended
      (reloadAll.run machine.catalog).2 none := by
  rw [reloadAll]
  exact completes_reloadAll simulated_interleave machine

end Machine

end Phrasebook.Catalog
