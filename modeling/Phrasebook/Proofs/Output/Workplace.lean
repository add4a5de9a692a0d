import Mathlib.Algebra.BigOperators.Group.List.Basic
import Phrasebook.Proofs.Output.Custody

/-!
# Runs on one thread

Callers on a thread take buffers, begin outputs, append to them, render into them, seal some and
drop others, in any order. What is in use at any time is what their buffers and outputs still have,
and the accounts of the pool are right all along.
-/

namespace Phrasebook

/-- Everything on one thread that can have a buffer: the callers that took one, the outputs, and the
pool. -/
structure Workplace (σ : Type) where
  buffers : List Buffer := []
  outputs : List Output := []
  pool : BufferPool := {}
  world : σ

/-- What happens on a thread. Buffers and outputs are called by their places in the lists. -/
inductive Workplace.Event (σ : Type) where
  | checkout
  | change (index : Nat) (change : Buffer.Change)
  /-- A buffer is no longer needed. -/
  | drop (index : Nat)
  | clear
  | start (format : NumberFormat)
  /-- Passages and values are appended to an output, or a phrase is rendered into it. -/
  | compose (index : Nat) (steps : Compose σ Unit) (built : steps.Built)
  | renderAlone (phrase : Phrase) (resolve : Resolver Unit) (built : (phrase.render resolve).Built)
  | close (index : Nat)
  /-- An output is no longer needed. -/
  | discard (index : Nat)

namespace Workplace

variable {σ : Type}

/-- A value is appended to an output, and it may be a template that fails. -/
def Event.emit (index : Nat) (source : Option (Source σ)) (value : Value) : Event σ :=
  .compose index (value.emit source) (value.emit_built source)

/-- A phrase with texts for its placeholders is rendered into an output. -/
def Event.render (index : Nat) (phrase : Phrase) (bindings : Bindings) : Event σ :=
  .compose index (phrase.render bindings.resolve) (phrase.render_built bindings.resolve_built)

def held (place : Workplace σ) : Multiset Buffer :=
  place.buffers + (place.outputs.map Output.held).sum

def after (place : Workplace σ) : Event σ → Workplace σ
  | .checkout =>
    { place with
      buffers := place.pool.checkout.1 :: place.buffers
      pool := place.pool.checkout.2 }
  | .change index change =>
    match place.buffers[index]? with
    | none => place
    | some buffer => { place with buffers := place.buffers.set index (buffer.change change) }
  | .drop index =>
    match place.buffers[index]? with
    | none => place
    | some buffer =>
      { place with buffers := place.buffers.eraseIdx index, pool := place.pool.release buffer }
  | .clear => { place with pool := place.pool.clear }
  | .start format => { place with outputs := { format := format } :: place.outputs }
  | .compose index steps _ =>
    match place.outputs[index]? with
    | none => place
    | some output =>
      let desk := (steps ⟨output, place.pool, place.world⟩).2
      { place with
        outputs := place.outputs.set index desk.output
        pool := desk.pool
        world := desk.world }
  | .renderAlone phrase resolve _ =>
    { place with pool := (phrase.renderAlone resolve place.pool).2 }
  | .close index =>
    match place.outputs[index]? with
    | none => place
    | some output =>
      let closed := (Output.close (output, place.pool)).2
      { place with outputs := place.outputs.set index closed.1, pool := closed.2 }
  | .discard index =>
    match place.outputs[index]? with
    | none => place
    | some output =>
      { place with
        outputs := place.outputs.eraseIdx index
        pool := Output.discard (output, place.pool) }

def afterAll (place : Workplace σ) (events : List (Event σ)) : Workplace σ :=
  events.foldl after place

theorem coe_eq_cons_eraseIdx {α : Type} {as : List α} {index : Nat} {a : α}
    (h : as[index]? = some a) : (as : Multiset α) = a ::ₘ as.eraseIdx index := by
  obtain ⟨inside, rfl⟩ := List.getElem?_eq_some_iff.1 h
  exact Multiset.coe_eq_coe.2 (List.getElem_cons_eraseIdx_perm inside).symm

theorem coe_set {α : Type} {as : List α} {index : Nat} {a : α} (h : as[index]? = some a)
    (b : α) : (as.set index b : Multiset α) = b ::ₘ as.eraseIdx index := by
  obtain ⟨inside, -⟩ := List.getElem?_eq_some_iff.1 h
  exact Multiset.coe_eq_coe.2 (List.set_perm_cons_eraseIdx inside b)

/-- What outputs hold does not depend on their order. -/
theorem sum_held_eq {outputs : List Output} {output : Output} {rest : List Output}
    (h : (outputs : Multiset Output) = output ::ₘ rest) :
    (outputs.map Output.held).sum = output.held + (rest.map Output.held).sum :=
  ((Multiset.coe_eq_coe.1 h).map Output.held).sum_eq

/-! ### What one event does -/

variable {place : Workplace σ}

theorem circulates_change (h : Circulates place.pool place.held) (index : Nat)
    (change : Buffer.Change) :
    Circulates (place.after (.change index change)).pool
      (place.after (.change index change)).held := by
  rw [after]
  split
  next => exact h
  next buffer found =>
    rw [held, coe_eq_cons_eraseIdx found, Multiset.cons_add] at h
    rw [held, coe_set found, Multiset.cons_add]
    exact h.grow (buffer.grows_change change)

theorem circulates_drop (h : Circulates place.pool place.held) (index : Nat) :
    Circulates (place.after (.drop index)).pool (place.after (.drop index)).held := by
  rw [after]
  split
  next => exact h
  next buffer found =>
    rw [held, coe_eq_cons_eraseIdx found, Multiset.cons_add] at h
    exact h.give

/-- One output exchanges buffers with the pool, and the others keep theirs. -/
theorem circulates_set {index : Nat} {output other : Output} {pool : BufferPool}
    (found : place.outputs[index]? = some output)
    (exchanges : ∀ others, Circulates place.pool (output.held + others) →
      Circulates pool (other.held + others))
    (h : Circulates place.pool place.held) (world : σ) :
    Circulates pool
      (Workplace.mk place.buffers (place.outputs.set index other) pool world).held := by
  rw [held, sum_held_eq (coe_eq_cons_eraseIdx found), add_left_comm] at h
  rw [held, sum_held_eq (coe_set found other), add_left_comm]
  exact exchanges _ h

theorem circulates_compose (h : Circulates place.pool place.held) (index : Nat)
    {steps : Compose σ Unit} (built : steps.Built) :
    Circulates (place.after (.compose index steps built)).pool
      (place.after (.compose index steps built)).held := by
  rw [after]
  split
  next => exact h
  next output found =>
    have exchanges : steps.Circulating := built.circulating
    exact circulates_set found (@exchanges ⟨output, place.pool, place.world⟩) h _

theorem circulates_close (h : Circulates place.pool place.held) (index : Nat) :
    Circulates (place.after (.close index)).pool (place.after (.close index)).held := by
  rw [after]
  split
  next => exact h
  next output found => exact circulates_set found (fun _ ↦ Output.close_circulates) h _

theorem circulates_discard (h : Circulates place.pool place.held) (index : Nat) :
    Circulates (place.after (.discard index)).pool (place.after (.discard index)).held := by
  rw [after]
  split
  next => exact h
  next output found =>
    rw [held, sum_held_eq (coe_eq_cons_eraseIdx found), add_left_comm] at h
    exact Output.discard_circulates h

/-- Whatever happens, what is in use is what the callers and outputs have. -/
theorem circulates_after (h : Circulates place.pool place.held) (event : Event σ) :
    Circulates (place.after event).pool (place.after event).held := by
  cases event with
  | checkout =>
    rw [after, held, ← Multiset.cons_coe, Multiset.cons_add]
    exact h.take
  | change index change => exact circulates_change h index change
  | drop index => exact circulates_drop h index
  | clear => exact h.clear
  | start format =>
    rw [after, held, List.map_cons, List.sum_cons, add_left_comm]
    exact Output.circulates_new format h
  | compose index steps built => exact circulates_compose h index built
  | renderAlone phrase resolve built =>
    exact Compose.renderAlone_circulates built.circulating h
  | close index => exact circulates_close h index
  | discard index => exact circulates_discard h index

theorem circulates_afterAll (h : Circulates place.pool place.held) (events : List (Event σ)) :
    Circulates (place.afterAll events).pool (place.afterAll events).held := by
  induction events generalizing place with
  | nil => exact h
  | cons event rest ih => exact ih (circulates_after h event)

end Workplace

/-- Whatever happens on a thread, the accounts of its pool are right at every point of the pool's
history, and those at the end are about the buffers that callers and outputs still have. -/
theorem accounted_at_every_point {σ : Type} (world : σ) (events : List (Workplace.Event σ)) :
    let place := ({ world := world } : Workplace σ).afterAll events
    Accounted place.pool place.held ∧
      ∀ earlier, earlier <:+ place.pool.history →
        ∃ pool out, pool.history = earlier ∧ Accounted pool out := by
  intro place
  have circulates : Circulates place.pool place.held :=
    Workplace.circulates_afterAll .start events
  refine ⟨circulates.accounted, fun earlier point ↦ ?_⟩
  obtain ⟨pool, out, history, before⟩ := circulates.earlier point
  exact ⟨pool, out, history, before.accounted⟩

/-- A rendering that stops at an unbound placeholder; its output is dropped. -/
example :
    let place := ({ world := () } : Workplace Unit).afterAll
      [.start {}, .emit 0 none (.char 'a'),
        .render 0 (.defined "menu" [.literal "b", .placeholder "c"]) ⟨"menu", ∅⟩, .discard 0]
    place.pool.history = [.given ⟨0, "ab", 8192⟩, .taken ⟨0, "", 8192⟩] ∧
      place.pool.buffers = [⟨0, "", 8192⟩] := by
  decide +kernel

end Phrasebook
