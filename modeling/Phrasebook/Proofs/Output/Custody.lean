import Phrasebook.Output.Bindings
import Phrasebook.Proofs.Output.Circulation
import Phrasebook.Proofs.Output.Passages

/-!
# Custody of buffers

A buffer in use belongs to an output or to a caller. Every operation on an output takes a buffer
out of the pool, changes the one it has or gives it back, and so does every rendering, however deep
its templates nest and wherever it fails.
-/

namespace Phrasebook

open Relation

namespace Circulates

variable {pool : BufferPool} {out : Multiset Buffer} {before after : Buffer}

theorem growAll (h : Circulates pool (before ::ₘ out))
    (steps : ReflTransGen Buffer.Grows before after) : Circulates pool (after ::ₘ out) := by
  induction steps with
  | refl => exact h
  | tail _ grows ih => exact ih.grow grows

end Circulates

namespace Buffer

theorem grows_push (buffer : Buffer) (s : String) : buffer.Grows (buffer.push s) :=
  grows_change buffer (.push s)

/-- Changes made one after the other. -/
theorem grows_foldl {α : Type} {f : Buffer → α → Buffer}
    (grows : ∀ buffer a, Grows buffer (f buffer a)) (as : List α) (buffer : Buffer) :
    ReflTransGen Grows buffer (as.foldl f buffer) := by
  induction as generalizing buffer with
  | nil => exact .refl
  | cons a rest ih => exact .head (grows buffer a) (ih (f buffer a))

end Buffer

namespace Output

def held (output : Output) : Multiset Buffer :=
  match output.body with
  | .buffered buffer => {buffer}
  | _ => 0

/-- Whether an operation that succeeds exchanges buffers with the pool as pools allow, whatever else
is in use. -/
def Circulating (operation : Pooled → Except OutputError Pooled) : Prop :=
  ∀ ⦃output : Output⦄ ⦃pool : BufferPool⦄ ⦃others : Multiset Buffer⦄,
    Circulates pool (output.held + others) →
      ∀ ⦃after : Pooled⦄, operation (output, pool) = .ok after →
        Circulates after.2 (after.1.held + others)

variable {output : Output} {pool : BufferPool} {others : Multiset Buffer}

/-- The buffer that an output is promoted to is the one it has, or one out of the pool. -/
theorem promote_circulates (h : Circulates pool (output.held + others)) {buffer : Buffer}
    {rest : BufferPool} (promoted : promote (output, pool) = .ok (buffer, rest)) :
    Circulates rest (buffer ::ₘ others) := by
  obtain ⟨body, format⟩ := output
  cases body with
  | sealed => exact nomatch promoted
  | buffered own =>
    cases promoted
    exact h
  | empty =>
    have taken : pool.checkout = (buffer, rest) := Except.ok.inj promoted
    rw [held, zero_add] at h
    have next := h.take
    rwa [taken] at next
  | whole text =>
    obtain ⟨rfl, rfl⟩ : pool.checkout.1.push text = buffer ∧ pool.checkout.2 = rest :=
      Prod.mk.inj (Except.ok.inj promoted)
    rw [held, zero_add] at h
    exact h.take.grow (pool.checkout.1.grows_push text)

theorem circulating_withBuffer {f : Buffer → Buffer}
    (grows : ∀ buffer, ReflTransGen Buffer.Grows buffer (f buffer)) :
    Circulating (withBuffer f) := by
  intro output pool others h after appended
  rw [withBuffer] at appended
  cases promoted : promote (output, pool) with
  | error e =>
    rw [promoted] at appended
    exact nomatch appended
  | ok found =>
    rw [promoted] at appended
    cases appended
    exact (promote_circulates h promoted).growAll (grows found.1)

theorem circulating_appendCopied (s : String) : Circulating (appendCopied s) :=
  circulating_withBuffer fun buffer ↦ .single (buffer.grows_push s)

theorem circulating_appendWhole (s : String) : Circulating (appendWhole s) := by
  intro output pool others h after appended
  rw [appendWhole] at appended
  split at appended
  next empty =>
    cases appended
    rw [held, empty] at h
    exact h
  next => exact circulating_appendCopied s h appended

theorem circulating_appendOutput (other : Output) : Circulating (appendOutput other) := by
  intro output pool others h after appended
  rw [appendOutput] at appended
  split_ifs at appended
  · cases appended
    exact h
  · exact circulating_appendCopied other.text h appended

theorem circulating_appendFloat (value : Numeral.FloatValue) : Circulating (appendFloat value) := by
  rw [appendFloat]
  split
  next => exact circulating_appendCopied _
  next =>
    intro output pool others h after appended
    rw [appendFraction, flip] at appended
    refine circulating_withBuffer (fun buffer ↦ ?_) h appended
    dsimp only
    split
    · exact .single (buffer.grows_push value.text)
    · have pushed := buffer.grows_push value.text
      exact .tail (.single pushed) (Buffer.grows_change _ (.rewriteBehind _ _))

/-- Sealing an output gives back the buffer that it has. -/
theorem close_circulates (h : Circulates pool (output.held + others)) :
    Circulates (close (output, pool)).2.2 ((close (output, pool)).2.1.held + others) := by
  obtain ⟨body, format⟩ := output
  cases body with
  | buffered buffer =>
    rw [close, held, zero_add]
    exact h.give
  | empty => exact h
  | whole text => exact h
  | sealed => exact h

/-- An output that is no longer needed gives back the buffer that it has. -/
theorem discard_circulates (h : Circulates pool (output.held + others)) :
    Circulates (discard (output, pool)) others := by
  obtain ⟨body, format⟩ := output
  cases body with
  | buffered buffer => exact h.give
  | _ =>
    rw [held, zero_add] at h
    exact h

theorem finish_pool (pooled : Pooled) : (finish pooled).2 = discard pooled := by
  obtain ⟨⟨body, format⟩, pool⟩ := pooled
  cases body <;> rfl

/-- A new output has no buffer. -/
theorem circulates_new (format : NumberFormat) (h : Circulates pool others) :
    Circulates pool (({ format := format } : Output).held + others) := by
  rw [held, zero_add]
  exact h

end Output

/-- No passage is appended in another way than pools allow. -/
theorem Passage.circulating (passage : Passage) : Output.Circulating passage.operation := by
  cases passage with
  | char c => exact Output.circulating_appendCopied c.toString
  | whole s => exact Output.circulating_appendWhole s
  | copied s => exact Output.circulating_appendCopied s
  | fragments texts =>
    exact Output.circulating_withBuffer (Buffer.grows_foldl Buffer.grows_push texts)
  | output other unsealed => exact Output.circulating_appendOutput other
  | unsigned n => exact Output.circulating_appendCopied _
  | signed n => exact Output.circulating_appendCopied _
  | unsigned32 n => exact Output.circulating_appendCopied _
  | signed32 n => exact Output.circulating_appendCopied _
  | double bits => exact Output.circulating_appendFloat _
  | single bits => exact Output.circulating_appendFloat _

namespace Compose

variable {σ α β : Type}

def clearPool : Compose σ Unit := fun desk ↦ (.ok (), { desk with pool := desk.pool.clear })

/-- Steps during which a caller has a buffer of its own, and changes it. -/
def withScratch (changes : List Buffer.Change) (steps : Compose σ α) : Compose σ α :=
  fun desk ↦
    let (buffer, pool) := desk.pool.checkout
    let (result, after) := steps { desk with pool := pool }
    (result, { after with pool := after.pool.release (changes.foldl Buffer.change buffer) })

/-- A caller renders a phrase on its own, and goes on with the text or the failure. -/
def renderAlone (phrase : Phrase) (resolve : Resolver Unit) : Compose σ (Except Failure String) :=
  fun desk ↦
    let (result, pool) := phrase.renderAlone resolve desk.pool
    (.ok result, { desk with pool := pool })

/-- What rendering is built from: appending passages and other outputs, failing, looking phrases up
and rendering on the side, and what callers may do in between. -/
inductive Built : {σ α : Type} → Compose σ α → Prop
  | pure {σ α : Type} (a : α) : Built (pure a : Compose σ α)
  | fail {σ α : Type} (e : Failure) : Built (Compose.fail e : Compose σ α)
  | bind {σ α β : Type} {step : Compose σ α} {next : α → Compose σ β} (first : Built step)
      (others : ∀ a, Built (next a)) : Built (step >>= next)
  | append {σ : Type} (passage : Passage) :
      Built (Compose.append passage.operation : Compose σ Unit)
  | join {σ : Type} (other : Output) :
      Built (Compose.append (Output.appendOutput other) : Compose σ Unit)
  | find {σ : Type} (source : Option (Source σ)) (key : String) : Built (Source.find source key)
  | aside {σ : Type} {steps : Compose σ Unit} (built : Built steps) : Built (Compose.aside steps)
  | clearPool {σ : Type} : Built (clearPool : Compose σ Unit)
  | withScratch {σ α : Type} (changes : List Buffer.Change) {steps : Compose σ α}
      (built : Built steps) : Built (withScratch changes steps)
  | renderAlone {σ : Type} (phrase : Phrase) {resolve : Resolver Unit}
      (built : Built (phrase.render resolve)) :
      Built (renderAlone phrase resolve : Compose σ (Except Failure String))

/-- Whether steps exchange buffers with the pool as pools allow, whether or not they fail and
whatever else is in use. -/
def Circulating (steps : Compose σ α) : Prop :=
  ∀ ⦃desk : Desk σ⦄ ⦃others : Multiset Buffer⦄,
    Circulates desk.pool (desk.output.held + others) →
      Circulates (steps desk).2.pool ((steps desk).2.output.held + others)

theorem circulating_append {operation : Output.Pooled → Except OutputError Output.Pooled}
    (h : Output.Circulating operation) : (append operation : Compose σ Unit).Circulating := by
  intro desk others circulates
  cases appended : operation (desk.output, desk.pool) with
  | error e =>
    rw [append_of_error appended]
    exact circulates
  | ok after =>
    rw [append_of_ok appended]
    exact h circulates appended

theorem circulating_bind {step : Compose σ α} {next : α → Compose σ β}
    (first : step.Circulating) (others : ∀ a, (next a).Circulating) :
    (step >>= next).Circulating := by
  intro desk frame circulates
  have reached := first circulates
  cases run : step desk with
  | mk result after =>
    rw [run] at reached
    cases result with
    | error e =>
      rw [bind_of_error run]
      exact reached
    | ok a =>
      rw [bind_of_ok run]
      exact others a reached

theorem circulating_find (source : Option (Source σ)) (key : String) :
    (Source.find source key).Circulating := by
  intro desk others circulates
  unfold Source.find
  split
  · exact circulates
  · split <;> exact circulates

/-- The output on the side is given up in every case, and what it has goes back to the pool. -/
theorem circulating_aside {steps : Compose σ Unit} (h : steps.Circulating) :
    (aside steps).Circulating := by
  intro desk others circulates
  have inside := @h (side desk) _ (Output.circulates_new desk.output.format circulates)
  cases run : steps (side desk) with
  | mk result done =>
    rw [run] at inside
    cases result with
    | error e =>
      rw [aside_of_error run]
      exact Output.discard_circulates inside
    | ok =>
      cases appended : Output.appendOutput done.output (desk.output, done.pool) with
      | error e =>
        rw [aside_of_refused run appended]
        exact Output.discard_circulates inside
      | ok pooled =>
        rw [aside_of_ok run appended]
        rw [add_left_comm] at inside
        have joined := Output.circulating_appendOutput done.output inside appended
        rw [add_left_comm] at joined
        exact Output.discard_circulates joined

theorem circulating_withScratch (changes : List Buffer.Change) {steps : Compose σ α}
    (h : steps.Circulating) : (withScratch changes steps).Circulating := by
  intro desk others circulates
  have taken := circulates.take
  rw [← Multiset.add_cons] at taken
  have inside := @h { desk with pool := desk.pool.checkout.2 } _ taken
  rw [Multiset.add_cons] at inside
  exact (inside.growAll (Buffer.grows_foldl Buffer.grows_change changes _)).give

/-- A phrase that is rendered on its own leaves nothing in use. -/
theorem renderAlone_circulates {phrase : Phrase} {resolve : Resolver Unit}
    (h : (phrase.render resolve).Circulating) {pool : BufferPool} {others : Multiset Buffer}
    (circulates : Circulates pool others) :
    Circulates (phrase.renderAlone resolve pool).2 others := by
  have rendered :=
    @h { output := {}, pool := pool, world := () } _ (Output.circulates_new {} circulates)
  rw [Phrase.renderAlone]
  cases run : phrase.render resolve { output := {}, pool := pool, world := () } with
  | mk result done =>
    rw [run] at rendered
    cases result with
    | error e => exact Output.discard_circulates rendered
    | ok =>
      dsimp only
      rw [Output.finish_pool]
      exact Output.discard_circulates rendered

theorem Built.circulating {steps : Compose σ α} (built : steps.Built) : steps.Circulating := by
  induction built with
  | pure a => exact fun _ _ circulates ↦ circulates
  | fail e => exact fun _ _ circulates ↦ circulates
  | bind _ _ first others => exact circulating_bind first others
  | append passage => exact circulating_append passage.circulating
  | join other => exact circulating_append (Output.circulating_appendOutput other)
  | find source key => exact circulating_find source key
  | aside _ ih => exact circulating_aside ih
  | clearPool => exact fun _ _ circulates ↦ circulates.clear
  | withScratch changes _ ih => exact circulating_withScratch changes ih
  | renderAlone _ _ ih => exact fun _ _ circulates ↦ renderAlone_circulates ih circulates

end Compose

theorem renderPieces_built {σ : Type} {resolve : Resolver σ} (h : ∀ name, (resolve name).Built)
    (pieces : List Piece) : (renderPieces resolve pieces).Built := by
  induction pieces with
  | nil => exact .pure ()
  | cons piece rest ih =>
    cases piece with
    | literal text => exact .bind (.append (.whole text)) fun _ ↦ ih
    | placeholder name => exact .bind (h name) fun _ ↦ ih

/-- Rendering a phrase is built from what its placeholders are resolved to. -/
theorem Phrase.render_built {σ : Type} {resolve : Resolver σ} (h : ∀ name, (resolve name).Built)
    (phrase : Phrase) : (phrase.render resolve).Built := by
  cases phrase with
  | missing name => exact .append (.whole _)
  | defined name pieces => exact renderPieces_built h pieces

mutual

theorem Value.emit_built {σ : Type} (source : Option (Source σ)) :
    (value : Value) → (value.emit source).Built
  | .text s => .append (.whole s)
  | .char c => .append (.char c)
  | .flag b => .append (.whole (if b then "true" else "false"))
  | .unsigned n => .append (.unsigned n)
  | .signed n => .append (.signed n)
  | .double bits => .append (.double bits)
  | .single bits => .append (.single bits)
  | .named name => .append (.whole name)
  | .absent => .append (.whole "null")
  | .template key arguments =>
    .bind (.find source key) fun phrase ↦
      .aside (phrase.render_built (arguments.resolve_built source key))
  | .broken key message => .fail (.render (.resolver key message))

theorem Arguments.resolve_built {σ : Type} (source : Option (Source σ)) (key : String) :
    (arguments : Arguments) → (name : String) → (arguments.resolve source key name).Built
  | .none, name => .fail (.render (.unknownPlaceholder key name))
  | .bind bound value rest, name => by
    rw [Arguments.resolve]
    split
    · exact value.emit_built source
    · exact rest.resolve_built source key name

end

theorem Bindings.resolve_built {σ : Type} (bindings : Bindings) (name : String) :
    (bindings.resolve name : Compose σ Unit).Built := by
  rw [Bindings.resolve]
  split
  · exact .append (.whole _)
  · exact .fail _

end Phrasebook
