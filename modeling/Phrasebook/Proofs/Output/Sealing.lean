import Phrasebook.Proofs.Output.Nesting

/-!
# Sealed outputs

Once an output is sealed nothing comes to it any more. An attempt to append is refused where it asks for a
buffer, and only there: what has no text to add never asks, and a nested template is rendered on the side
first, so that it asks only if it comes to some text there. No attempt changes a sealed output, and no
buffer stays in use because of one.
-/

namespace Phrasebook

open Compose

variable {σ : Type} {source : Option (Source σ)} {desk : Desk σ} {format : NumberFormat}
  {pool : BufferPool}

/-! ## Asking a sealed output for a buffer -/

namespace Output

def spent (format : NumberFormat) : Output := { body := .sealed, format := format }

theorem withBuffer_spent (f : Buffer → Buffer) (format : NumberFormat) (pool : BufferPool) :
    withBuffer f (spent format, pool) = .error .alreadyBuilt := rfl

/-- Another output is refused if it is sealed or has text. -/
theorem appendOutput_spent (other : Output) (format : NumberFormat) (pool : BufferPool) :
    appendOutput other (spent format, pool) =
      if other.isSealed ∨ other.text ≠ "" then .error .alreadyBuilt
      else .ok (spent format, pool) := by
  rw [appendOutput]
  cases closed : other.isSealed with
  | true => rfl
  | false =>
    rw [if_neg Bool.false_ne_true]
    cases empty : other.text.isEmpty with
    | true =>
      rw [if_pos rfl, if_neg]
      simpa using empty
    | false =>
      rw [if_neg Bool.false_ne_true, if_pos]
      · rfl
      · simpa using empty

theorem close_spent (format : NumberFormat) (pool : BufferPool) :
    close (spent format, pool) = (.error .alreadyBuilt, spent format, pool) := rfl

/-- Sealing gives back the buffer and leaves nothing to give back later. -/
theorem close_snd (output : Output) (pool : BufferPool) :
    (close (output, pool)).2 = (spent output.format, discard (output, pool)) := by
  obtain ⟨body, format⟩ := output
  cases body <;> rfl

end Output

/-- A passage that has something to add is refused. -/
theorem Passage.operation_spent {passage : Passage} (counts : passage.isVoid = false)
    (format : NumberFormat) (pool : BufferPool) :
    passage.operation (Output.spent format, pool) = .error .alreadyBuilt := by
  cases whole : passage.isWhole with
  | true =>
    obtain ⟨s, rfl⟩ := passage.eq_whole_of_isWhole whole
    rfl
  | false =>
    obtain ⟨f, same, -⟩ := passage.addsBuilt counts whole (Output.spent format, pool)
    exact same.trans (Output.withBuffer_spent f format pool)

/-- The first addition that has something to add ends them all. -/
theorem Addition.performAll_spent (sealed : desk.output = Output.spent format)
    (source : Option (Source σ)) (additions : List Addition) :
    performAll source additions desk =
      (if ∃ addition ∈ additions, addition.passage.isVoid = false then
        .error (.misuse .alreadyBuilt) else .ok (), desk) := by
  induction additions with
  | nil => rw [if_neg (by simp)]; rfl
  | cons addition rest ih =>
    rw [performAll, perform_eq]
    cases void : addition.passage.isVoid with
    | true =>
      rw [Compose.bind_of_ok (append_of_ok (Passage.operation_of_isVoid void _)), ih]
      simp [void]
    | false =>
      have refused := Passage.operation_spent void format desk.pool
      rw [← sealed] at refused
      rw [Compose.bind_of_error (append_of_error refused), if_pos ⟨addition, List.mem_cons_self, void⟩]

/-! ## Nested templates in front of a sealed output -/

theorem Source.find_side (source : Option (Source σ)) (key : String) (desk : Desk σ) :
    Source.find source key (side desk) =
      ((Source.find source key desk).1, side (Source.find source key desk).2) := by
  unfold Source.find
  split
  · rfl
  · rw [show (side desk).world = desk.world from rfl]
    split <;> rfl

/-- Whether an attempt to append was refused by a sealed output. -/
def IsMisuse (result : Except Failure Unit) : Prop :=
  ∃ e, result = .error (.misuse e) ∧ e.message = "output builder already built"

theorem isMisuse_alreadyBuilt : IsMisuse (.error (.misuse .alreadyBuilt)) := ⟨_, rfl, rfl⟩

theorem not_isMisuse_ok : ¬ IsMisuse (.ok ()) := by
  rintro ⟨e, same, -⟩
  exact nomatch same

namespace Compose

/-- Whether a sealed output refuses what steps on the side came to: they were refused themselves, or they
came to an output that is sealed or has text. -/
def Reaches (alone : Except Failure Unit × Desk σ) : Prop :=
  IsMisuse alone.1 ∨ alone.1 = .ok () ∧ (alone.2.output.isSealed ∨ alone.2.output.text ≠ "")

/-- The desk after steps on the side whose output is given up. -/
def back (output : Output) (alone : Desk σ) : Desk σ :=
  { alone with output := output, pool := Output.discard (alone.output, alone.pool) }

/-- What comes of an attempt in front of a sealed output, if it does something on the side first: it is
refused if it asks for more, and otherwise ends as what it did on the side. -/
structure Overruled (asks : Prop) (output : Output) (alone after : Except Failure Unit × Desk σ) :
    Prop where
  refused : IsMisuse after.1 ↔ asks
  otherwise : ¬ asks → after.1 = alone.1
  desk : after.2 = back output alone.2

theorem Overruled.of_error (output : Output) (e : Failure) (done : Desk σ) :
    Overruled (Reaches (.error e, done)) output (.error e, done) (.error e, back output done) where
  refused := ⟨.inl, fun reaches ↦ reaches.elim id fun ended ↦ nomatch ended.1⟩
  otherwise _ := rfl
  desk := rfl

theorem aside_overruled (sealed : desk.output = Output.spent format) (steps : Compose σ Unit) :
    Overruled (Reaches (steps (side desk))) desk.output (steps (side desk)) (aside steps desk) := by
  cases run : steps (side desk) with
  | mk result done =>
    cases result with
    | error e =>
      rw [aside_of_error run]
      exact .of_error desk.output e done
    | ok =>
      have joined := Output.appendOutput_spent done.output format done.pool
      rw [← sealed] at joined
      -- what the steps came to has to go to the sealed output now
      by_cases comes : done.output.isSealed ∨ done.output.text ≠ ""
      · rw [if_pos comes] at joined
        rw [aside_of_refused run joined]
        have reaches : Reaches (.ok (), done) := .inr ⟨rfl, comes⟩
        exact ⟨iff_of_true isMisuse_alreadyBuilt reaches, fun kept ↦ absurd reaches kept, rfl⟩
      · rw [if_neg comes] at joined
        rw [aside_of_ok run joined]
        have stays : ¬ Reaches (.ok (), done) := not_or_intro not_isMisuse_ok fun h ↦ comes h.2
        exact ⟨iff_of_false not_isMisuse_ok stays, fun _ ↦ rfl, rfl⟩

end Compose

/-- A nested template is looked up and rendered before the sealed output is asked. -/
theorem renderNested_overruled (sealed : desk.output = Output.spent format)
    (source : Option (Source σ)) (key : String) (resolve : Resolver σ) :
    let alone := renderFound source key resolve (side desk)
    Overruled (Reaches alone) desk.output alone (renderNested source key resolve desk) := by
  intro alone
  have same := Source.find_output source key desk
  have beside := Source.find_side source key desk
  cases found : Source.find source key desk with
  | mk answer middle =>
    rw [found] at same beside
    rw [← same] at sealed ⊢
    cases answer with
    | ok phrase =>
      rw [renderNested_of_ok found, show alone = _ from renderFound_of_ok beside resolve]
      exact aside_overruled sealed (phrase.render resolve)
    | error e =>
      rw [renderNested_of_error found, show alone = _ from renderFound_of_error beside resolve]
      exact .of_error middle.output e (side middle)

/-! ## Buffers of nested templates -/

theorem renderPieces_circulating {resolve : Resolver σ}
    (h : ∀ name, (resolve name).Circulating) (pieces : List Piece) :
    (renderPieces resolve pieces).Circulating := by
  induction pieces with
  | nil => exact (Compose.Built.pure ()).circulating
  | cons piece rest ih =>
    cases piece with
    | literal text =>
      exact circulating_bind (circulating_append (Output.circulating_appendWhole text)) fun _ ↦ ih
    | placeholder name => exact circulating_bind (h name) fun _ ↦ ih

theorem renderNested_circulating {resolve : Resolver σ}
    (h : ∀ name, (resolve name).Circulating) (source : Option (Source σ)) (key : String) :
    (renderNested source key resolve).Circulating := by
  refine circulating_bind (circulating_find source key) fun phrase ↦ circulating_aside ?_
  cases phrase with
  | missing name => exact circulating_append (Output.circulating_appendWhole _)
  | defined name pieces => exact renderPieces_circulating h pieces

/-! ## Attempts -/

/-- Seals the output in front; its text is not used. -/
def Compose.close : Compose σ Unit := fun desk ↦
  let (result, output, pool) := Output.close (desk.output, desk.pool)
  (match result with
    | .ok _ => .ok ()
    | .error e => .error (.misuse e),
    { desk with output := output, pool := pool })

inductive Attempt (σ : Type) where
  /-- A passage or a value is appended, or a value that appends several. -/
  | append (additions : List Addition)
  /-- A nested template is appended. -/
  | nest (key : String) (resolve : Resolver σ)
  | close

namespace Attempt

def perform (source : Option (Source σ)) : Attempt σ → Compose σ Unit
  | append additions => Addition.performAll source additions
  | nest key resolve => renderNested source key resolve
  | close => Compose.close

/-- What comes of an attempt on the side before the output in front is asked: of a nested template all
of its rendering, and nothing otherwise. -/
def alone (source : Option (Source σ)) : Attempt σ → Compose σ Unit
  | nest key resolve => renderFound source key resolve
  | append _ | close => pure ()

/-- Whether the attempt asks the output in front for its buffer, or for its text. -/
def Asks (source : Option (Source σ)) (desk : Desk σ) : Attempt σ → Prop
  | append additions => ∃ addition ∈ additions, addition.passage.isVoid = false
  | nest key resolve => Reaches (renderFound source key resolve (side desk))
  | close => True

/-- Whether the resolvers that an attempt brings along give back the buffers that they take. -/
def Tidy : Attempt σ → Prop
  | nest _ resolve => ∀ name, (resolve name).Circulating
  | append _ | close => True

def afterAll (source : Option (Source σ)) (desk : Desk σ) (attempts : List (Attempt σ)) : Desk σ :=
  attempts.foldl (fun desk attempt ↦ (attempt.perform source desk).2) desk

variable (sealed : desk.output = Output.spent format)

include sealed

theorem close_spent : Compose.close desk = (.error (.misuse .alreadyBuilt), desk) := by
  obtain ⟨output, pool, world⟩ := desk
  obtain rfl : output = Output.spent format := sealed
  rfl

theorem perform_overruled (source : Option (Source σ)) (attempt : Attempt σ) :
    Overruled (attempt.Asks source desk) desk.output (attempt.alone source (side desk))
      (attempt.perform source desk) := by
  cases attempt with
  | append additions =>
    rw [perform, Addition.performAll_spent sealed]
    by_cases counts : ∃ addition ∈ additions, addition.passage.isVoid = false
    · rw [if_pos counts]
      exact ⟨iff_of_true isMisuse_alreadyBuilt counts, fun kept ↦ absurd counts kept, rfl⟩
    · rw [if_neg counts]
      exact ⟨iff_of_false not_isMisuse_ok counts, fun _ ↦ rfl, rfl⟩
  | nest key resolve => exact renderNested_overruled sealed source key resolve
  | close =>
    -- sealing asks for the text, and there is none
    rw [perform, close_spent sealed]
    exact ⟨iff_of_true isMisuse_alreadyBuilt trivial, fun kept ↦ absurd trivial kept, rfl⟩

theorem afterAll_output (source : Option (Source σ)) (attempts : List (Attempt σ)) :
    (afterAll source desk attempts).output = Output.spent format := by
  induction attempts generalizing desk with
  | nil => exact sealed
  | cons attempt rest ih =>
    have same := congrArg Desk.output (perform_overruled sealed source attempt).desk
    exact ih (same.trans sealed)

omit sealed

/-- A buffer that an attempt takes is given back by the attempt, unless the output in front has it. -/
theorem perform_circulating (source : Option (Source σ)) {attempt : Attempt σ}
    (tidy : attempt.Tidy) : (attempt.perform source).Circulating := by
  cases attempt with
  | append additions =>
    induction additions with
    | nil => exact (Compose.Built.pure ()).circulating
    | cons addition rest ih =>
      refine circulating_bind ?_ fun _ ↦ ih trivial
      rw [addition.perform_eq]
      exact circulating_append addition.passage.circulating
  | nest key resolve => exact renderNested_circulating tidy source key
  | close => exact fun desk others circulates ↦ Output.close_circulates circulates

theorem afterAll_circulates (source : Option (Source σ)) {others : Multiset Buffer}
    {attempts : List (Attempt σ)} (tidy : ∀ attempt ∈ attempts, attempt.Tidy)
    (circulates : Circulates desk.pool (desk.output.held + others)) :
    Circulates (afterAll source desk attempts).pool
      ((afterAll source desk attempts).output.held + others) := by
  induction attempts generalizing desk with
  | nil => exact circulates
  | cons attempt rest ih =>
    rw [List.forall_mem_cons] at tidy
    exact ih tidy.2 (perform_circulating source tidy.1 circulates)

end Attempt

/-- Whatever was done with an output before it was sealed and whatever is tried on it afterwards, it stays
sealed and without text. What is tried next is refused exactly if it asks the output for a buffer or for
its text; otherwise it ends as it does on the side, where only a nested template does something. No buffer
is taken that is not given back, and none is given back twice. -/
theorem sealed_output_refuses_iff_asked (source : Option (Source σ)) (before : Desk σ)
    (attempts : List (Attempt σ)) :
    let desk := Attempt.afterAll source (Compose.close before).2 attempts
    desk.output = Output.spent before.output.format ∧ desk.output.text = "" ∧
    (∀ attempt : Attempt σ,
      Overruled (attempt.Asks source desk) desk.output (attempt.alone source (side desk))
        (attempt.perform source desk)) ∧
    (∀ additions, (Addition.performAll source additions desk).2 = desk) ∧
    Output.close (desk.output, desk.pool) = (.error .alreadyBuilt, desk.output, desk.pool) ∧
    ∀ others, Circulates before.pool (before.output.held + others) →
      (∀ attempt ∈ attempts, attempt.Tidy) → Accounted desk.pool others := by
  intro desk
  have closed : (Compose.close before).2.output = Output.spent before.output.format :=
    congrArg Prod.fst (Output.close_snd before.output before.pool)
  have sealed : desk.output = Output.spent before.output.format :=
    Attempt.afterAll_output closed source attempts
  refine ⟨sealed, congrArg Output.text sealed, Attempt.perform_overruled sealed source,
    fun additions ↦ congrArg Prod.snd (Addition.performAll_spent sealed source additions),
    by rw [sealed, Output.close_spent], fun others circulates tidy ↦ ?_⟩
  have first := Output.close_circulates circulates
  have last : Circulates desk.pool (desk.output.held + others) :=
    Attempt.afterAll_circulates source tidy first
  rw [sealed, show (Output.spent before.output.format).held = 0 from rfl, zero_add] at last
  exact last.accounted

/-- Behind a sealed text a phrase that comes to nothing is let through, and another one is refused after
its buffer came and went. -/
theorem sealed_output_refuses_iff_asked_menu :
    let source : Option (Source Unit) := some fun key world ↦
      (.ok (.defined key (if key = "blank" then [] else [.literal "to", .literal "day"])), world)
    let before : Desk Unit := { output := { body := .whole "soup" }, pool := {}, world := () }
    let attempts : List (Attempt Unit) := [.append [.direct (.char 's')], .close]
    let desk := Attempt.afterAll source (Compose.close before).2 attempts
    let nest (key : String) : Attempt Unit := .nest key fun name ↦ Compose.fail (.render (.noSource name))
    desk.output.text = "" ∧ ¬ (nest "blank").Asks source desk ∧ (nest "menu").Asks source desk ∧
      ((nest "blank").perform source desk).1 = .ok () ∧
      IsMisuse ((nest "menu").perform source desk).1 ∧
      ((nest "menu").perform source desk).2.pool.history =
        [.given ⟨0, "today", 8192⟩, .taken ⟨0, "", 8192⟩] := by
  intro source before attempts desk nest
  obtain ⟨-, empty, overruled, -⟩ := sealed_output_refuses_iff_asked source before attempts
  have kept : ¬ (nest "blank").Asks source desk := by
    rintro (⟨e, same, -⟩ | ⟨-, closed | text⟩)
    · exact nomatch same
    · exact nomatch closed
    · exact text rfl
  have asks : (nest "menu").Asks source desk := by
    refine .inr ⟨rfl, .inr ?_⟩
    decide +kernel
  exact ⟨empty, kept, asks, (overruled (nest "blank")).otherwise kept,
    (overruled (nest "menu")).refused.2 asks, by decide +kernel⟩

/-- Another output without text goes through a sealed one, where a whole text that is empty does not. -/
theorem void_output_passes_sealed :
    let desk := (Compose.close ({ output := {}, pool := {}, world := () } : Desk Unit)).2
    desk.output.isSealed = true ∧
      Compose.append (Passage.output {} rfl).operation desk = (.ok (), desk) ∧
      IsMisuse (Compose.append (Passage.whole "").operation desk).1 :=
  ⟨rfl, rfl, isMisuse_alreadyBuilt⟩

end Phrasebook
