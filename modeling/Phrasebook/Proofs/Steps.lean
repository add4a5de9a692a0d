import Mathlib.Init

/-!
# Running stateful steps

How steps on a state run, as equations between pairs of an answer and a state. Every step of a
library, a catalog or a draft is opened with these, and nothing else is known about the monad. They come
before what `simp` knows about the monads that steps are made of, and a step that asks a question is
opened before the question is looked at. Results that can be errors are taken apart where they are none.
-/

namespace Phrasebook

section

variable {σ α β : Type}

@[simp high] theorem run_pure (a : α) (s : σ) : (pure a : StateM σ α).run s = (a, s) := rfl

@[simp high] theorem run_bind (step : StateM σ α) (next : α → StateM σ β) (s : σ) :
    (step >>= next).run s = (next (step.run s).1).run (step.run s).2 := rfl

@[simp high] theorem run_map (f : α → β) (step : StateM σ α) (s : σ) :
    (f <$> step).run s = (f (step.run s).1, (step.run s).2) := rfl

@[simp high] theorem run_get (s : σ) : (get : StateM σ σ).run s = (s, s) := rfl

@[simp high] theorem run_set (s t : σ) : (set t : StateM σ PUnit).run s = (⟨⟩, t) := rfl

@[simp high] theorem run_modify (f : σ → σ) (s : σ) :
    (modify f : StateM σ PUnit).run s = (⟨⟩, f s) := rfl

@[simp ↓ high] theorem run_ite (p : Prop) [Decidable p] (step other : StateM σ α) (s : σ) :
    (if p then step else other).run s = if p then step.run s else other.run s := by
  split <;> rfl

@[simp] theorem run_eta (step : StateM σ α) (s : σ) :
    ((step.run s).1, (step.run s).2) = step.run s := rfl

end

/-! ## Results that can be errors -/

section

variable {ε α β : Type}

theorem bind_of_ok {result : Except ε α} {a : α} (h : result = .ok a) (next : α → Except ε β) :
    result >>= next = next a := by
  rw [h]
  rfl

theorem eq_ok_of_toOption {result : Except ε α} {a : α} (h : result.toOption = some a) :
    result = .ok a := by
  cases result with
  | error e => cases h
  | ok b => exact congrArg Except.ok (Option.some.inj h)

theorem exists_of_bind_eq_ok {result : Except ε α} {next : α → Except ε β} {b : β}
    (h : result >>= next = .ok b) : ∃ a, result = .ok a ∧ next a = .ok b := by
  cases result with
  | error e => cases h
  | ok a => exact ⟨a, rfl, h⟩

theorem exists_of_map_eq_ok {result : Except ε α} {f : α → β} {b : β}
    (h : result.map f = .ok b) : ∃ a, result = .ok a ∧ f a = b := by
  cases result with
  | error e => cases h
  | ok a => exact ⟨a, rfl, Except.ok.inj h⟩

/-- A property of a state that every step of a fold keeps. -/
theorem foldlM_keeps {σ : Type} {step : σ → α → Except ε σ} {P : σ → Prop}
    (keeps : ∀ s a t, P s → step s a = .ok t → P t) {as : List α} {s t : σ} (start : P s)
    (h : as.foldlM step s = .ok t) : P t := by
  induction as generalizing s with
  | nil =>
    cases h
    exact start
  | cons a as ih =>
    rw [List.foldlM_cons] at h
    obtain ⟨next, first, rest⟩ := exists_of_bind_eq_ok h
    exact ih (keeps s a next start first) rest

end

/-! ## Steps that can fail -/

section

variable {σ ε α β : Type} {s t : σ}

@[simp high] theorem run_bind_of_failing (step : ExceptT ε (StateM σ) α)
    (next : α → ExceptT ε (StateM σ) β) (s : σ) :
    (step >>= next).run s = match (step.run s).1 with
      | .ok a => (next a).run (step.run s).2
      | .error e => (.error e, (step.run s).2) := by
  have opened : (step >>= next).run s =
      ExceptT.bindCont next (step.run s).1 (step.run s).2 := rfl
  rw [opened]
  cases (step.run s).1 with
  | ok a => rfl
  | error e => rfl

@[simp high] theorem run_map_of_failing (f : α → β) (step : ExceptT ε (StateM σ) α) (s : σ) :
    (f <$> step).run s = match (step.run s).1 with
      | .ok a => (.ok (f a), (step.run s).2)
      | .error e => (.error e, (step.run s).2) := by
  rw [map_eq_pure_bind, run_bind_of_failing]
  rfl

@[simp high] theorem run_pure_of_failing (a : α) (s : σ) :
    (pure a : ExceptT ε (StateM σ) α).run s = (.ok a, s) := rfl

@[simp high] theorem run_throw_of_failing (e : ε) (s : σ) :
    (throw e : ExceptT ε (StateM σ) α).run s = (.error e, s) := rfl

@[simp ↓ high] theorem run_ite_of_failing (p : Prop) [Decidable p]
    (step other : ExceptT ε (StateM σ) α) (s : σ) :
    (if p then step else other).run s = if p then step.run s else other.run s := by
  split <;> rfl

theorem run_get_bind (next : σ → ExceptT ε (StateM σ) β) (s : σ) :
    (get >>= next).run s = (next s).run s := rfl

theorem run_set_bind (next : PUnit → ExceptT ε (StateM σ) β) (s t : σ) :
    (set t >>= next).run s = (next ⟨⟩).run t := rfl

theorem run_modify_bind (f : σ → σ) (next : PUnit → ExceptT ε (StateM σ) β) (s : σ) :
    (modify f >>= next).run s = (next ⟨⟩).run (f s) := rfl

theorem run_bind_of_ok {step : ExceptT ε (StateM σ) α} {a : α} (h : step.run s = (.ok a, t))
    (next : α → ExceptT ε (StateM σ) β) : (step >>= next).run s = (next a).run t := by
  simp [h]

theorem run_bind_of_error {step : ExceptT ε (StateM σ) α} {e : ε} (h : step.run s = (.error e, t))
    (next : α → ExceptT ε (StateM σ) β) : (step >>= next).run s = (.error e, t) := by
  simp [h]

theorem run_bind_congr {step : ExceptT ε (StateM σ) α} (same : step.run s = step.run t)
    (next : α → ExceptT ε (StateM σ) β) : (step >>= next).run s = (step >>= next).run t :=
  congrArg (fun outcome : Except ε α × σ ↦ ExceptT.bindCont next outcome.1 outcome.2) same

@[simp high] theorem run_get_of_failing (s : σ) :
    (get : ExceptT ε (StateM σ) σ).run s = (.ok s, s) := rfl

@[simp high] theorem run_set_of_failing (s t : σ) :
    (set t : ExceptT ε (StateM σ) PUnit).run s = (.ok ⟨⟩, t) := rfl

@[simp high] theorem run_modify_of_failing (f : σ → σ) (s : σ) :
    (modify f : ExceptT ε (StateM σ) PUnit).run s = (.ok ⟨⟩, f s) := rfl

end

end Phrasebook
