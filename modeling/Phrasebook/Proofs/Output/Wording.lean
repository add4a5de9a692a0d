import Phrasebook.Proofs.Output.Custody

/-!
# What rendering comes to

Steps of rendering can be told without the output in front of them: how they end, the text that they
write before that, and what becomes of the world. For everything that rendering is built from, this
depends on the number format and the world alone, so it is the same in front of every output that is not
sealed, whatever that output holds already and whatever is pooled. What a value comes to is told from
its nested templates up, each looked up in the one source, and what every lookup of the source keeps is
kept by the whole.
-/

namespace Phrasebook

/-- How steps end, the text that they write until then, and the world that they leave. -/
structure Wording (σ α : Type) where
  result : Except Failure α
  text : String
  world : σ

namespace Wording

variable {σ α β : Type}

/-- What follows is written behind the text so far, unless that ended in a failure. -/
def andThen (first : Wording σ α) (next : α → σ → Wording σ β) : Wording σ β :=
  match first.result with
  | .ok a => { next a first.world with text := first.text ++ (next a first.world).text }
  | .error e => ⟨.error e, first.text, first.world⟩

/-- The text only counts if nothing fails. -/
def allOrNothing (wording : Wording σ α) : Wording σ α :=
  match wording.result with
  | .ok _ => wording
  | .error e => ⟨.error e, "", wording.world⟩

def answer (wording : Wording σ Unit) : Except Failure String :=
  wording.result.map fun () ↦ wording.text

theorem andThen_of_ok {first : Wording σ α} {a : α} (h : first.result = .ok a)
    (next : α → σ → Wording σ β) :
    first.andThen next =
      { next a first.world with text := first.text ++ (next a first.world).text } := by
  rw [andThen, h]

theorem andThen_of_error {first : Wording σ α} {e : Failure} (h : first.result = .error e)
    (next : α → σ → Wording σ β) : first.andThen next = ⟨.error e, first.text, first.world⟩ := by
  rw [andThen, h]

theorem allOrNothing_of_ok {wording : Wording σ α} {a : α} (h : wording.result = .ok a) :
    wording.allOrNothing = wording := by
  rw [allOrNothing, h]

theorem allOrNothing_of_error {wording : Wording σ α} {e : Failure}
    (h : wording.result = .error e) : wording.allOrNothing = ⟨.error e, "", wording.world⟩ := by
  rw [allOrNothing, h]

theorem result_allOrNothing (wording : Wording σ α) :
    wording.allOrNothing.result = wording.result := by
  cases h : wording.result with
  | ok a => rw [allOrNothing_of_ok h, h]
  | error e => rw [allOrNothing_of_error h]

theorem world_allOrNothing (wording : Wording σ α) :
    wording.allOrNothing.world = wording.world := by
  cases h : wording.result with
  | ok a => rw [allOrNothing_of_ok h]
  | error e => rw [allOrNothing_of_error h]

theorem answer_allOrNothing (wording : Wording σ Unit) :
    wording.allOrNothing.answer = wording.answer := by
  cases h : wording.result with
  | ok a => rw [allOrNothing_of_ok h]
  | error e => rw [allOrNothing_of_error h, answer, answer, h]; rfl

end Wording

/-! ## Appending to an output that is not sealed -/

namespace Output

variable {output : Output} {pool : BufferPool}

/-- The buffer that an output has or takes holds its text. -/
theorem promote_of_unsealed (unsealed : output.isSealed = false)
    (clean : pool.checkout.1.text = "") :
    ∃ buffer rest, promote (output, pool) = .ok (buffer, rest) ∧ buffer.text = output.text := by
  obtain ⟨body, format⟩ := output
  cases body with
  | sealed => cases unsealed
  | empty => exact ⟨_, _, rfl, clean⟩
  | buffered buffer => exact ⟨_, _, rfl, rfl⟩
  | whole s =>
    refine ⟨pool.checkout.1.push s, pool.checkout.2, rfl, ?_⟩
    rw [Buffer.push, clean, String.empty_append]
    rfl

/-- An operation that succeeds and adds a text, and nothing else that shows. -/
def Adds (text : String) (operation : Pooled → Except OutputError Pooled) (pooled : Pooled) :
    Prop :=
  ∃ after, operation pooled = .ok after ∧ after.1.text = pooled.1.text ++ text ∧
    after.1.format = pooled.1.format ∧ after.1.isSealed = false

theorem AddsBuilt.adds {text : String} {operation : Pooled → Except OutputError Pooled}
    (h : AddsBuilt text operation (output, pool)) (unsealed : output.isSealed = false)
    (clean : pool.checkout.1.text = "") : Adds text operation (output, pool) := by
  obtain ⟨f, same, adds⟩ := h
  obtain ⟨buffer, rest, promoted, held⟩ := promote_of_unsealed unsealed clean
  refine ⟨(⟨.buffered (f buffer), output.format⟩, rest), ?_, ?_, rfl, rfl⟩
  · rw [same, withBuffer, promoted]
    rfl
  · rw [← held]
    exact adds buffer

end Output

/-- Every passage adds its text. -/
theorem Passage.adds (passage : Passage) {output : Output} {pool : BufferPool}
    (unsealed : output.isSealed = false) (clean : pool.checkout.1.text = "") :
    Output.Adds (passage.text output.format) passage.operation (output, pool) := by
  cases void : passage.isVoid with
  | true =>
    refine ⟨_, passage.operation_of_isVoid void _, ?_, rfl, unsealed⟩
    rw [passage.text_of_isVoid void, String.append_empty]
  | false =>
    cases whole : passage.isWhole with
    | false => exact (passage.addsBuilt void whole _).adds unsealed clean
    | true =>
      obtain ⟨s, rfl⟩ := passage.eq_whole_of_isWhole whole
      have built := (Output.addsBuilt_appendCopied s (output, pool)).adds unsealed clean
      obtain ⟨body, format⟩ := output
      cases body with
      | empty => exact ⟨_, rfl, String.empty_append.symm, rfl, rfl⟩
      | whole | buffered | sealed => exact built

/-! ## Steps and what they come to -/

namespace Compose

variable {σ α β : Type}

/-- In front of one desk, steps came to a wording and left another desk. -/
structure ComesTo (before : Desk σ) (wording : Wording σ α) (after : Except Failure α × Desk σ) :
    Prop where
  result : after.1 = wording.result
  world : after.2.world = wording.world
  text : after.2.output.text = before.output.text ++ wording.text
  format : after.2.output.format = before.output.format
  unsealed : after.2.output.isSealed = false

/-- Steps come to a wording that depends on the number format and the world alone. -/
structure Writes (steps : Compose σ α) (wording : NumberFormat → σ → Wording σ α) : Prop where
  circulating : steps.Circulating
  comesTo : ∀ ⦃desk : Desk σ⦄ ⦃others : Multiset Buffer⦄, desk.output.isSealed = false →
    Circulates desk.pool (desk.output.held + others) →
      ComesTo desk (wording desk.output.format desk.world) (steps desk)

theorem Writes.pure (a : α) : Writes (pure a : Compose σ α) fun _ world ↦ ⟨.ok a, "", world⟩ where
  circulating := (Built.pure a).circulating
  comesTo _ _ unsealed _ := ⟨rfl, rfl, String.append_empty.symm, rfl, unsealed⟩

theorem Writes.fail (e : Failure) :
    Writes (fail e : Compose σ α) fun _ world ↦ ⟨.error e, "", world⟩ where
  circulating := (Built.fail e).circulating
  comesTo _ _ unsealed _ := ⟨rfl, rfl, String.append_empty.symm, rfl, unsealed⟩

theorem Writes.passage (passage : Passage) :
    Writes (append passage.operation : Compose σ Unit) fun format world ↦
      ⟨.ok (), passage.text format, world⟩ where
  circulating := (Built.append passage).circulating
  comesTo desk _ unsealed circulates := by
    have empty := circulates.checkout_text
    obtain ⟨after, appended, text, format, unsealed⟩ := passage.adds unsealed empty
    rw [append_of_ok appended]
    exact ⟨rfl, rfl, text, format, unsealed⟩

theorem Writes.find (source : Option (Source σ)) (key : String) :
    Writes (Source.find source key) fun _ world ↦
      match source with
      | none => ⟨.error (.render (.noSource key)), "", world⟩
      | some lookup =>
        ⟨(lookup key world).1.mapError fun e ↦ .render (.lookup e), "", (lookup key world).2⟩ where
  circulating := circulating_find source key
  comesTo desk _ unsealed _ := by
    unfold Source.find
    cases source with
    | none => exact ⟨rfl, rfl, String.append_empty.symm, rfl, unsealed⟩
    | some lookup =>
      dsimp only
      cases lookup key desk.world with
      | mk found world =>
        cases found with
        | ok phrase => exact ⟨rfl, rfl, String.append_empty.symm, rfl, unsealed⟩
        | error e => exact ⟨rfl, rfl, String.append_empty.symm, rfl, unsealed⟩

/-- What steps write stands behind what the steps before them wrote. -/
theorem Writes.bind {step : Compose σ α} {next : α → Compose σ β}
    {first : NumberFormat → σ → Wording σ α} {further : α → NumberFormat → σ → Wording σ β}
    (own : Writes step first) (others : ∀ a, Writes (next a) (further a)) :
    Writes (step >>= next) fun format world ↦
      (first format world).andThen fun a ↦ further a format where
  circulating := circulating_bind own.circulating fun a ↦ (others a).circulating
  comesTo desk frame unsealed circulates := by
    have began := own.comesTo unsealed circulates
    have reached := own.circulating circulates
    cases run : step desk with
    | mk result middle =>
      rw [run] at began reached
      cases result with
      | error e =>
        rw [bind_of_error run, Wording.andThen_of_error began.result.symm]
        exact ⟨rfl, began.world, began.text, began.format, began.unsealed⟩
      | ok a =>
        have format : middle.output.format = desk.output.format := began.format
        have world : middle.world = (first desk.output.format desk.world).world := began.world
        have ended : ComesTo middle (further a middle.output.format middle.world) _ :=
          (others a).comesTo began.unsealed reached
        rw [format, world] at ended
        rw [bind_of_ok run, Wording.andThen_of_ok began.result.symm]
        refine ⟨ended.result, ended.world, ?_, ended.format.trans format, ended.unsealed⟩
        rw [ended.text, began.text, String.append_assoc]

/-- Steps on the side write all that they come to, or nothing. -/
theorem Writes.aside {steps : Compose σ Unit} {wording : NumberFormat → σ → Wording σ Unit}
    (h : Writes steps wording) :
    Writes (aside steps) fun format world ↦ (wording format world).allOrNothing where
  circulating := circulating_aside h.circulating
  comesTo desk others unsealed circulates := by
    have inside := Output.circulates_new desk.output.format circulates
    have ended := @h.comesTo (side desk) _ rfl inside
    have reached := @h.circulating (side desk) _ inside
    have told : (side desk).output.text = "" := rfl
    change ComesTo desk (wording (side desk).output.format (side desk).world).allOrNothing _
    cases run : steps (side desk) with
    | mk result done =>
      rw [run] at ended reached
      cases result with
      | error e =>
        rw [aside_of_error run, Wording.allOrNothing_of_error ended.result.symm]
        exact ⟨rfl, ended.world, String.append_empty.symm, rfl, unsealed⟩
      | ok =>
        have empty := reached.checkout_text
        obtain ⟨after, appended, text, format, unsealed⟩ :=
          (Passage.output done.output ended.unsealed).adds unsealed empty
        rw [aside_of_ok run appended, Wording.allOrNothing_of_ok ended.result.symm]
        refine ⟨ended.result, ended.world, ?_, format, unsealed⟩
        rw [text, Passage.text, ended.text, told, String.empty_append]

end Compose

/-! ## Phrases and values -/

section

open Compose

variable {σ : Type}

def wordPieces (value : String → σ → Wording σ Unit) : List Piece → σ → Wording σ Unit
  | [], world => ⟨.ok (), "", world⟩
  | .literal text :: rest, world =>
    Wording.andThen ⟨.ok (), text, world⟩ fun () ↦ wordPieces value rest
  | .placeholder name :: rest, world => (value name world).andThen fun () ↦ wordPieces value rest

def Phrase.wording (value : String → σ → Wording σ Unit) : Phrase → σ → Wording σ Unit
  | .missing name, world => ⟨.ok (), (Phrase.missing name).missingText, world⟩
  | .defined _ pieces, world => wordPieces value pieces world

def wordFound (source : Option (Source σ)) (key : String) (next : Phrase → σ → Wording σ Unit)
    (world : σ) : Wording σ Unit :=
  match source with
  | none => ⟨.error (.render (.noSource key)), "", world⟩
  | some lookup =>
    match lookup key world with
    | (.ok phrase, world) => next phrase world
    | (.error e, world) => ⟨.error (.render (.lookup e)), "", world⟩

mutual

/-- What a value comes to. Nested templates at every depth are looked up in the same source. -/
def Value.wording (source : Option (Source σ)) (format : NumberFormat) :
    Value → σ → Wording σ Unit
  | .text s, world => ⟨.ok (), s, world⟩
  | .char c, world => ⟨.ok (), String.ofList [c], world⟩
  | .flag b, world => ⟨.ok (), if b then "true" else "false", world⟩
  | .unsigned n, world => ⟨.ok (), toString n.toNat, world⟩
  | .signed n, world => ⟨.ok (), toString n.toInt, world⟩
  | .double bits, world => ⟨.ok (), format.floatText (.ofBits64 bits), world⟩
  | .single bits, world => ⟨.ok (), format.floatText (.ofBits32 bits), world⟩
  | .named name, world => ⟨.ok (), name, world⟩
  | .absent, world => ⟨.ok (), "null", world⟩
  | .template key arguments, world =>
    (wordFound source key
      (Phrase.wording fun name ↦ arguments.wording source format key name) world).allOrNothing
  | .broken key message, world => ⟨.error (.render (.resolver key message)), "", world⟩

/-- What the value bound to a name comes to, in the template of a key. -/
def Arguments.wording (source : Option (Source σ)) (format : NumberFormat) (key : String) :
    Arguments → String → σ → Wording σ Unit
  | .none, name, world => ⟨.error (.render (.unknownPlaceholder key name)), "", world⟩
  | .bind bound value rest, name, world =>
    if bound = name then value.wording source format world
    else rest.wording source format key name world

end

theorem allOrNothing_wordFound (source : Option (Source σ)) (key : String)
    (next : Phrase → σ → Wording σ Unit) (world : σ) :
    (wordFound source key next world).allOrNothing =
      wordFound source key (fun phrase world ↦ (next phrase world).allOrNothing) world := by
  cases source with
  | none => rfl
  | some lookup =>
    cases found : lookup key world with
    | mk answer after =>
      simp only [wordFound, found]
      cases answer <;> rfl

/-- What is done with the phrase that is found. -/
theorem Compose.Writes.found {next : Phrase → Compose σ Unit}
    {further : Phrase → NumberFormat → σ → Wording σ Unit} (source : Option (Source σ))
    (key : String) (others : ∀ phrase, Writes (next phrase) (further phrase)) :
    Writes (Source.find source key >>= next) fun format ↦
      wordFound source key fun phrase ↦ further phrase format where
  circulating := circulating_bind (circulating_find source key) fun phrase ↦
    (others phrase).circulating
  comesTo desk frame unsealed circulates := by
    have comesTo := (Writes.bind (.find source key) others).comesTo unsealed circulates
    cases source with
    | none => exact comesTo
    | some lookup =>
      rw [wordFound]
      dsimp only at comesTo ⊢
      generalize lookup key desk.world = found at comesTo ⊢
      obtain ⟨answer, world⟩ := found
      cases answer with
      | error e => exact comesTo
      | ok phrase =>
        rw [Wording.andThen_of_ok rfl, String.empty_append] at comesTo
        exact comesTo

/-- Renders the phrase that the source has under a key into the output in front. -/
def renderFound (source : Option (Source σ)) (key : String) (resolve : Resolver σ) :
    Compose σ Unit := do
  let phrase ← Source.find source key
  phrase.render resolve

variable {resolve : Resolver σ} {value : NumberFormat → String → σ → Wording σ Unit}
  (resolves : ∀ name, Writes (resolve name) fun format ↦ value format name)

include resolves

theorem renderPieces_writes (pieces : List Piece) :
    Writes (renderPieces resolve pieces) fun format ↦ wordPieces (value format) pieces := by
  induction pieces with
  | nil => exact .pure ()
  | cons piece rest ih =>
    cases piece with
    | literal text => exact .bind (.passage (.whole text)) fun () ↦ ih
    | placeholder name => exact .bind (resolves name) fun () ↦ ih

theorem Phrase.render_writes (phrase : Phrase) :
    Writes (phrase.render resolve) fun format ↦ phrase.wording (value format) := by
  cases phrase with
  | missing name => exact .passage (.whole _)
  | defined name pieces => exact renderPieces_writes resolves pieces

theorem renderFound_writes (source : Option (Source σ)) (key : String) :
    Writes (renderFound source key resolve) fun format ↦
      wordFound source key (Phrase.wording (value format)) :=
  .found source key fun phrase ↦ phrase.render_writes resolves

/-- On the side, the phrase under a key is written as a whole. -/
theorem renderNested_writes (source : Option (Source σ)) (key : String) :
    Writes (renderNested source key resolve) fun format world ↦
      (wordFound source key (Phrase.wording (value format)) world).allOrNothing := by
  simp only [allOrNothing_wordFound]
  exact .found source key fun phrase ↦ (phrase.render_writes resolves).aside

omit resolves

/-- Rendering a phrase alone is rendering it into an empty output, whatever the resolver does there. -/
theorem Phrase.renderAlone_fst (phrase : Phrase) (resolve : Resolver Unit) (pool : BufferPool) :
    (phrase.renderAlone resolve pool).1 =
      (phrase.render resolve { output := {}, pool := pool, world := () }).1.map fun () ↦
        (phrase.render resolve { output := {}, pool := pool, world := () }).2.output.text := by
  rw [renderAlone]
  obtain ⟨result, desk⟩ := phrase.render resolve { output := {}, pool := pool, world := () }
  cases result with
  | error e => rfl
  | ok =>
    obtain ⟨⟨body, format⟩, pool, world⟩ := desk
    cases body <;> rfl

/-- A phrase that is rendered alone is answered by what it comes to. -/
theorem Compose.Writes.renderAlone_eq {phrase : Phrase} {resolve : Resolver Unit}
    {wording : NumberFormat → Unit → Wording Unit Unit} (writes : Writes (phrase.render resolve) wording)
    {pool : BufferPool} {out : Multiset Buffer} (circulates : Circulates pool out) :
    (phrase.renderAlone resolve pool).1 = (wording {} ()).answer := by
  have ended := @writes.comesTo { output := {}, pool := pool, world := () } out rfl
    (Output.circulates_new {} circulates)
  rw [phrase.renderAlone_fst, ended.result, ended.text, Wording.answer]
  exact congrArg (Except.map · _) (funext fun () ↦ String.empty_append)

mutual

theorem Value.emit_writes (source : Option (Source σ)) :
    (value : Value) → Writes (value.emit source) fun format ↦ value.wording source format
  | .text s => .passage (.whole s)
  | .char c => .passage (.char c)
  | .flag b => .passage (.whole (if b then "true" else "false"))
  | .unsigned n => .passage (.unsigned n)
  | .signed n => .passage (.signed n)
  | .double bits => .passage (.double bits)
  | .single bits => .passage (.single bits)
  | .named name => .passage (.whole name)
  | .absent => .passage (.whole "null")
  | .template key arguments =>
    renderNested_writes (arguments.resolve_writes source key) source key
  | .broken key message => .fail (.render (.resolver key message))

theorem Arguments.resolve_writes (source : Option (Source σ)) (key : String) :
    (arguments : Arguments) → (name : String) →
      Writes (arguments.resolve source key name) fun format ↦
        arguments.wording source format key name
  | .none, name => .fail (.render (.unknownPlaceholder key name))
  | .bind bound value rest, name => by
    rw [Arguments.resolve]
    simp only [Arguments.wording]
    split
    · exact value.emit_writes source
    · exact rest.resolve_writes source key name

end

/-- Whatever steps are built from, they come to something. -/
theorem Compose.Built.exists_writes {α : Type} {steps : Compose σ α} (built : steps.Built) :
    ∃ wording, Writes steps wording := by
  induction built with
  | pure a => exact ⟨_, .pure a⟩
  | fail e => exact ⟨_, .fail e⟩
  | bind _ _ first others =>
    obtain ⟨wording, writes⟩ := first
    choose further others using others
    exact ⟨_, .bind writes others⟩
  | append passage => exact ⟨_, .passage passage⟩
  | find source key => exact ⟨_, .find source key⟩
  | aside _ ih =>
    obtain ⟨wording, writes⟩ := ih
    exact ⟨_, writes.aside⟩
  | join other =>
    cases closed : other.isSealed with
    | false => exact ⟨_, .passage (.output other closed)⟩
    | true =>
      refine ⟨fun _ world ↦ ⟨.error (.misuse .alreadyBuilt), "", world⟩,
        (Built.join other).circulating, fun desk others unsealed _ ↦ ?_⟩
      have refused : Output.appendOutput other (desk.output, desk.pool) = .error .alreadyBuilt := by
        rw [Output.appendOutput, closed]
        rfl
      rw [append_of_error refused]
      exact ⟨rfl, rfl, String.append_empty.symm, rfl, unsealed⟩
  | clearPool =>
    exact ⟨fun _ world ↦ ⟨.ok (), "", world⟩, Built.clearPool.circulating,
      fun _ _ unsealed _ ↦ ⟨rfl, rfl, String.append_empty.symm, rfl, unsealed⟩⟩
  | withScratch changes built ih =>
    obtain ⟨wording, writes⟩ := ih
    refine ⟨wording, (Built.withScratch changes built).circulating,
      fun desk others unsealed circulates ↦ ?_⟩
    have taken := circulates.take
    rw [← Multiset.add_cons] at taken
    have ended := @writes.comesTo { desk with pool := desk.pool.checkout.2 } _ unsealed taken
    exact ⟨ended.result, ended.world, ended.text, ended.format, ended.unsealed⟩
  | renderAlone phrase built ih =>
    obtain ⟨wording, writes⟩ := ih
    refine ⟨fun _ world ↦ ⟨.ok (wording {} ()).answer, "", world⟩,
      (Built.renderAlone phrase built).circulating, fun desk others unsealed circulates ↦ ?_⟩
    have alone := writes.renderAlone_eq circulates
    exact ⟨congrArg Except.ok alone, rfl, String.append_empty.symm, rfl, unsealed⟩

end

/-! ## What becomes of the world -/

section

variable {σ : Type} {Holds : σ → Prop} {source : Option (Source σ)}

theorem Wording.andThen_holds {α β : Type} {first : Wording σ α} {next : α → σ → Wording σ β}
    (own : Holds first.world) (others : ∀ a world, Holds world → Holds (next a world).world) :
    Holds (first.andThen next).world := by
  cases h : first.result with
  | ok a =>
    rw [andThen_of_ok h]
    exact others a first.world own
  | error e =>
    rw [andThen_of_error h]
    exact own

theorem Phrase.wording_holds {value : String → σ → Wording σ Unit}
    (kept : ∀ name world, Holds world → Holds (value name world).world) (phrase : Phrase)
    {world : σ} (holds : Holds world) : Holds (phrase.wording value world).world := by
  cases phrase with
  | missing name => exact holds
  | defined name pieces =>
    rw [wording]
    induction pieces generalizing world with
    | nil => exact holds
    | cons piece rest ih =>
      cases piece with
      | literal text => exact Wording.andThen_holds holds fun () _ holds ↦ ih holds
      | placeholder name =>
        exact Wording.andThen_holds (kept name world holds) fun () _ holds ↦ ih holds

theorem wordFound_holds
    (kept : ∀ lookup, source = some lookup → ∀ key world, Holds world → Holds (lookup key world).2)
    {next : Phrase → σ → Wording σ Unit}
    (others : ∀ phrase world, Holds world → Holds (next phrase world).world) (key : String)
    {world : σ} (holds : Holds world) : Holds (wordFound source key next world).world := by
  cases source with
  | none => exact holds
  | some lookup =>
    have holds := kept lookup rfl key world holds
    cases found : lookup key world with
    | mk answer after =>
      rw [found] at holds
      simp only [wordFound, found]
      cases answer with
      | ok phrase => exact others phrase after holds
      | error e => exact holds

mutual

/-- What every lookup of the source keeps is kept by values of any depth. -/
theorem Value.wording_holds
    (kept : ∀ lookup, source = some lookup → ∀ key world, Holds world → Holds (lookup key world).2)
    (format : NumberFormat) :
    (value : Value) → ∀ {world : σ}, Holds world → Holds (value.wording source format world).world
  | .text _, _, holds | .char _, _, holds | .flag _, _, holds | .unsigned _, _, holds
  | .signed _, _, holds | .double _, _, holds | .single _, _, holds | .named _, _, holds
  | .absent, _, holds | .broken .., _, holds => holds
  | .template key arguments, world, holds => by
    rw [Value.wording, Wording.world_allOrNothing]
    refine wordFound_holds kept (fun phrase world holds ↦ ?_) key holds
    exact phrase.wording_holds (fun name _ holds ↦ arguments.wording_holds kept format key name holds)
      holds

theorem Arguments.wording_holds
    (kept : ∀ lookup, source = some lookup → ∀ key world, Holds world → Holds (lookup key world).2)
    (format : NumberFormat) (key : String) :
    (arguments : Arguments) → (name : String) → ∀ {world : σ}, Holds world →
      Holds (arguments.wording source format key name world).world
  | .none, _, _, holds => holds
  | .bind bound value rest, name, world, holds => by
    rw [Arguments.wording]
    split
    · exact value.wording_holds kept format holds
    · exact rest.wording_holds kept format key name holds

end

end

end Phrasebook
