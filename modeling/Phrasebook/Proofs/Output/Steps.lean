import Phrasebook.Output.Rendering

/-!
# Steps of rendering

What a sequence of steps does on a desk, read off what its first step does.
-/

namespace Phrasebook.Compose

variable {σ α β : Type} {desk after : Desk σ}

theorem bind_of_ok {step : Compose σ α} {a : α} (h : step desk = (.ok a, after))
    (next : α → Compose σ β) : (step >>= next) desk = next a after := by
  rw [show (step >>= next) desk = Compose.bind step next desk from rfl, Compose.bind, h]

theorem bind_of_error {step : Compose σ α} {e : Failure} (h : step desk = (.error e, after))
    (next : α → Compose σ β) : (step >>= next) desk = (.error e, after) := by
  rw [show (step >>= next) desk = Compose.bind step next desk from rfl, Compose.bind, h]

theorem append_of_ok {operation : Output.Pooled → Except OutputError Output.Pooled}
    {pooled : Output.Pooled} (h : operation (desk.output, desk.pool) = .ok pooled) :
    append operation desk = (.ok (), ⟨pooled.1, pooled.2, desk.world⟩) := by
  rw [append, h]

theorem append_of_error {operation : Output.Pooled → Except OutputError Output.Pooled}
    {e : OutputError} (h : operation (desk.output, desk.pool) = .error e) :
    append operation desk = (.error (.misuse e), desk) := by
  rw [append, h]

def side (desk : Desk σ) : Desk σ := { desk with output := { format := desk.output.format } }

theorem aside_of_error {steps : Compose σ Unit} {e : Failure} {done : Desk σ}
    (h : steps (side desk) = (.error e, done)) :
    aside steps desk =
      (.error e,
        { done with
          output := desk.output
          pool := Output.discard (done.output, done.pool) }) := by
  rw [side] at h
  rw [aside, h]

theorem aside_of_refused {steps : Compose σ Unit} {e : OutputError} {done : Desk σ}
    (h : steps (side desk) = (.ok (), done))
    (refused : Output.appendOutput done.output (desk.output, done.pool) = .error e) :
    aside steps desk =
      (.error (.misuse e),
        { done with
          output := desk.output
          pool := Output.discard (done.output, done.pool) }) := by
  rw [side] at h
  rw [aside, h]
  dsimp only
  rw [refused]

theorem aside_of_ok {steps : Compose σ Unit} {done : Desk σ} {pooled : Output.Pooled}
    (h : steps (side desk) = (.ok (), done))
    (appended : Output.appendOutput done.output (desk.output, done.pool) = .ok pooled) :
    aside steps desk =
      (.ok (),
        { done with
          output := pooled.1
          pool := Output.discard (done.output, pooled.2) }) := by
  rw [side] at h
  rw [aside, h]
  dsimp only
  rw [appended]

end Phrasebook.Compose
