import Phrasebook.Proofs.Output.Wording

/-!
# Nested templates

A nested template adds what its phrase comes to in an output of its own, or nothing at all. A failure at
any depth ends all that is around it, and leaves the output in front of the outermost nested template as
it was.
-/

namespace Phrasebook

open Compose

variable {σ : Type} {source : Option (Source σ)} {lookup : Source σ} {key : String}
  {resolve : Resolver σ} {desk : Desk σ}

/-! ## The phrase under a key -/

theorem Source.find_output (source : Option (Source σ)) (key : String) (desk : Desk σ) :
    (Source.find source key desk).2.output = desk.output := by
  unfold Source.find
  split
  · rfl
  · split <;> rfl

theorem Source.find_of_ok {phrase : Phrase} {world : σ}
    (h : lookup key desk.world = (.ok phrase, world)) :
    Source.find (some lookup) key desk = (.ok phrase, { desk with world := world }) := by
  simp only [Source.find, h]

theorem Source.find_of_error {e : LookupError} {world : σ}
    (h : lookup key desk.world = (.error e, world)) :
    Source.find (some lookup) key desk =
      (.error (.render (.lookup e)), { desk with world := world }) := by
  simp only [Source.find, h]

theorem renderFound_of_ok {phrase : Phrase} {found : Desk σ}
    (h : Source.find source key desk = (.ok phrase, found)) (resolve : Resolver σ) :
    renderFound source key resolve desk = phrase.render resolve found :=
  Compose.bind_of_ok h _

theorem renderFound_of_error {e : Failure} {found : Desk σ}
    (h : Source.find source key desk = (.error e, found)) (resolve : Resolver σ) :
    renderFound source key resolve desk = (.error e, found) :=
  Compose.bind_of_error h _

theorem renderNested_of_ok {phrase : Phrase} {found : Desk σ}
    (h : Source.find source key desk = (.ok phrase, found)) (resolve : Resolver σ) :
    renderNested source key resolve desk = aside (phrase.render resolve) found :=
  Compose.bind_of_ok h _

theorem renderNested_of_error {e : Failure} {found : Desk σ}
    (h : Source.find source key desk = (.error e, found)) (resolve : Resolver σ) :
    renderNested source key resolve desk = (.error e, found) :=
  Compose.bind_of_error h _

theorem renderNested_of_none (key : String) (resolve : Resolver σ) (desk : Desk σ) :
    renderNested none key resolve desk = (.error (.render (.noSource key)), desk) := by
  have refused : Source.find none key desk = (.error (.render (.noSource key)), desk) := rfl
  exact renderNested_of_error refused resolve

theorem renderNested_of_refused {e : LookupError} {world : σ}
    (h : lookup key desk.world = (.error e, world)) (resolve : Resolver σ) :
    renderNested (some lookup) key resolve desk =
      (.error (.render (.lookup e)), { desk with world := world }) :=
  renderNested_of_error (Source.find_of_error h) resolve

/-! ## Steps on the side -/

/-- Steps on the side that fail leave the output as it was. -/
theorem Compose.aside_untouched {steps : Compose σ Unit} (failed : (aside steps desk).1 ≠ .ok ()) :
    (aside steps desk).2.output = desk.output := by
  cases run : steps (side desk) with
  | mk result done =>
    cases result with
    | error e => rw [aside_of_error run]
    | ok =>
      cases appended : Output.appendOutput done.output (desk.output, done.pool) with
      | error e => rw [aside_of_refused run appended]
      | ok pooled =>
        rw [aside_of_ok run appended] at failed
        exact absurd rfl failed

theorem renderNested_untouched (failed : (renderNested source key resolve desk).1 ≠ .ok ()) :
    (renderNested source key resolve desk).2.output = desk.output := by
  have same := Source.find_output source key desk
  cases found : Source.find source key desk with
  | mk answer middle =>
    rw [found] at same
    cases answer with
    | error e =>
      rw [renderNested_of_error found]
      exact same
    | ok phrase =>
      rw [renderNested_of_ok found] at failed ⊢
      exact (aside_untouched failed).trans same

/-! ## All or nothing -/

/-- Whatever name it is asked for, a resolver comes to something. -/
def Resolver.Tells (resolve : Resolver σ) : Prop := ∀ name, ∃ wording, Writes (resolve name) wording

theorem Resolver.tells_of_built (built : ∀ name, (resolve name).Built) : resolve.Tells :=
  fun name ↦ (built name).exists_writes

/-- What comes of a nested template in front of a desk. A failure is given up together with the output on
the side, whatever the resolver did before, so only the first of these asks something of it. -/
structure AllOrNothing (source : Option (Source σ)) (key : String) (resolve : Resolver σ)
    (desk : Desk σ) (after : Except Failure Unit × Desk σ) : Prop where
  /-- It ends as the phrase that is found does in a new output, and adds the text of that output. -/
  alone : resolve.Tells → ∀ ⦃pool : BufferPool⦄ ⦃out : Multiset Buffer⦄, Circulates pool out →
    let alone := renderFound source key resolve
      { output := { format := desk.output.format }, pool := pool, world := desk.world }
    after.1 = alone.1 ∧ after.2.world = alone.2.world ∧
      (after.1 = .ok () → after.2.output.text = desk.output.text ++ alone.2.output.text ∧
        after.2.output.format = desk.output.format ∧ after.2.output.isSealed = false)
  /-- If it fails, at any depth, the output is as it was. -/
  untouched : after.1 ≠ .ok () → after.2.output = desk.output
  noSource : source = none → after = (.error (.render (.noSource key)), desk)
  refused : ∀ lookup e world, source = some lookup → lookup key desk.world = (.error e, world) →
    after = (.error (.render (.lookup e)), { desk with world := world })
  marker : ∀ lookup name world, source = some lookup →
    lookup key desk.world = (.ok (.missing name), world) → after.1 = .ok () ∧
      after.2.world = world ∧
      after.2.output.text = desk.output.text ++ ("<MISSING: " ++ name ++ ">")

section

variable {others : Multiset Buffer} (unsealed : desk.output.isSealed = false)
  (circulates : Circulates desk.pool (desk.output.held + others))

include unsealed circulates

theorem renderNested_alone (tells : resolve.Tells) {pool : BufferPool} {out : Multiset Buffer}
    (clean : Circulates pool out) :
    let after := renderNested source key resolve desk
    let alone := renderFound source key resolve
      { output := { format := desk.output.format }, pool := pool, world := desk.world }
    after.1 = alone.1 ∧ after.2.world = alone.2.world ∧
      (after.1 = .ok () → after.2.output.text = desk.output.text ++ alone.2.output.text ∧
        after.2.output.format = desk.output.format ∧ after.2.output.isSealed = false) := by
  choose value resolves using tells
  have nested := (renderNested_writes resolves source key).comesTo unsealed circulates
  have fresh := @(renderFound_writes resolves source key).comesTo
    { output := { format := desk.output.format }, pool := pool, world := desk.world } out rfl
    (Output.circulates_new desk.output.format clean)
  have result := nested.result
  have world := nested.world
  rw [Wording.result_allOrNothing] at result
  rw [Wording.world_allOrNothing] at world
  refine ⟨result.trans fresh.result.symm, world.trans fresh.world.symm,
    fun ok ↦ ⟨?_, nested.format, nested.unsealed⟩⟩
  rw [nested.text, Wording.allOrNothing_of_ok (result.symm.trans ok), fresh.text]
  exact congrArg (desk.output.text ++ ·) String.empty_append.symm

/-- The marker of an absent key is written without asking the resolver. -/
theorem renderNested_of_missing {name : String} {world : σ}
    (h : lookup key desk.world = (.ok (.missing name), world)) (resolve : Resolver σ) :
    let after := renderNested (some lookup) key resolve desk
    after.1 = .ok () ∧ after.2.world = world ∧
      after.2.output.text = desk.output.text ++ ("<MISSING: " ++ name ++ ">") := by
  have marks : Writes (aside ((Phrase.missing name).render resolve)) _ :=
    (Writes.passage (.whole (Phrase.missing name).missingText)).aside
  have ended := @marks.comesTo { desk with world := world } others unsealed circulates
  rw [← renderNested_of_ok (Source.find_of_ok h)] at ended
  exact ⟨ended.result, ended.world, ended.text⟩

/-- A nested template adds the text of its phrase or nothing. -/
theorem renderNested_allOrNothing (source : Option (Source σ)) (key : String)
    (resolve : Resolver σ) :
    AllOrNothing source key resolve desk (renderNested source key resolve desk) where
  alone tells _ _ clean := renderNested_alone unsealed circulates tells clean
  untouched := renderNested_untouched
  noSource h := by
    rw [h]
    exact renderNested_of_none key resolve desk
  refused lookup e world h answer := by
    rw [h]
    exact renderNested_of_refused answer resolve
  marker lookup name world h answer := by
    rw [h]
    exact renderNested_of_missing unsealed circulates answer resolve

end

end Phrasebook
