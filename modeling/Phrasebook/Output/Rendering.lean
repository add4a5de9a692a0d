import Phrasebook.Output.Basic
import Phrasebook.Template.Fault
import Phrasebook.Template.Phrase

/-!
# Rendering

Rendering a phrase appends its literals as they are and hands each placeholder to a resolver, which
appends a value or fails. A value may itself be a template: it is rendered on the side, from the
phrase that a source of phrases has under its key, and its text is appended only when it is
complete, so a failure inside it leaves the outer text as it was.

Everything that rendering touches is in one state, the desk: the output in front of it, the buffer
pool, and the state of the source, which a lookup may change. A failed rendering returns the desk
as it was left, with the text written so far.
-/

namespace Phrasebook

/-- What rendering works on. -/
structure Desk (σ : Type) where
  output : Output
  pool : BufferPool
  world : σ

inductive Failure where
  | render (error : RenderError)
  /-- A piece was appended to a sealed output. -/
  | misuse (error : OutputError)
deriving DecidableEq, Repr

/-- A step of rendering: it changes the desk, and yields a value or fails. -/
def Compose (σ α : Type) := Desk σ → Except Failure α × Desk σ

namespace Compose

variable {σ α β : Type}

protected def pure (a : α) : Compose σ α := fun desk => (.ok a, desk)

protected def bind (step : Compose σ α) (next : α → Compose σ β) : Compose σ β := fun desk =>
  match step desk with
  | (.ok a, desk) => next a desk
  | (.error e, desk) => (.error e, desk)

instance : Monad (Compose σ) where
  pure := Compose.pure
  bind := Compose.bind

def fail (e : Failure) : Compose σ α := fun desk => (.error e, desk)

def append (operation : Output.Pooled → Except OutputError Output.Pooled) : Compose σ Unit :=
  fun desk =>
    match operation (desk.output, desk.pool) with
    | .ok (output, pool) => (.ok (), { desk with output := output, pool := pool })
    | .error e => (.error (.misuse e), desk)

/-- Runs steps on an output of their own, with the number format of the one in front, and appends
their text when they are done. The output on the side is given up in every case. -/
def aside (steps : Compose σ Unit) : Compose σ Unit := fun desk =>
  let (result, done) := steps { desk with output := { format := desk.output.format } }
  let appended : Except Failure Output.Pooled :=
    match result with
    | .error e => .error e
    | .ok () =>
      match Output.appendOutput done.output (desk.output, done.pool) with
      | .ok pooled => .ok pooled
      | .error e => .error (.misuse e)
  match appended with
  | .ok (output, pool) =>
    (.ok (), { done with output := output, pool := Output.discard (done.output, pool) })
  | .error e =>
    (.error e, { done with output := desk.output, pool := Output.discard (done.output, done.pool) })

end Compose

/-- Where nested templates find their phrases: a lookup by key, in which an absent key leads to a
missing phrase. -/
def Source (σ : Type) := String → σ → Except LookupError Phrase × σ

def Source.find {σ : Type} (source : Option (Source σ)) (key : String) : Compose σ Phrase :=
  fun desk =>
    match source with
    | none => (.error (.render (.noSource key)), desk)
    | some lookup =>
      match lookup key desk.world with
      | (.ok phrase, world) => (.ok phrase, { desk with world := world })
      | (.error e, world) => (.error (.render (.lookup e)), { desk with world := world })

abbrev Resolver (σ : Type) := String → Compose σ Unit

def renderPieces {σ : Type} (resolve : Resolver σ) : List Piece → Compose σ Unit
  | [] => pure ()
  | .literal text :: rest => do
    Compose.append (Output.appendWhole text)
    renderPieces resolve rest
  | .placeholder name :: rest => do
    resolve name
    renderPieces resolve rest

/-- Renders a phrase into the output in front; a missing phrase appends its marker. -/
def Phrase.render {σ : Type} (resolve : Resolver σ) : Phrase → Compose σ Unit
  | .missing name => Compose.append (Output.appendWhole (Phrase.missing name).missingText)
  | .defined _ pieces => renderPieces resolve pieces

/-- Renders the phrase that the source has under a key on the side, then appends its text. -/
def renderNested {σ : Type} (source : Option (Source σ)) (key : String) (resolve : Resolver σ) :
    Compose σ Unit := do
  let phrase ← Source.find source key
  Compose.aside (phrase.render resolve)

mutual

inductive Value where
  /-- A text that is appended as one whole. -/
  | text (s : String)
  | char (c : Char)
  | flag (b : Bool)
  | unsigned (n : UInt64)
  | signed (n : Int64)
  | double (bits : UInt64)
  | single (bits : UInt32)
  /-- A constant with a name of its own. -/
  | named (name : String)
  /-- No value. -/
  | absent
  /-- A nested template: the key of its phrase, and the values of its placeholders. -/
  | template (key : String) (arguments : Arguments)
  /-- A value that cannot be had. -/
  | broken (key message : String)

/-- The values of placeholders, by name. -/
inductive Arguments where
  | none
  | bind (name : String) (value : Value) (rest : Arguments)

end

mutual

def Value.emit {σ : Type} (source : Option (Source σ)) : Value → Compose σ Unit
  | .text s => Compose.append (Output.appendWhole s)
  | .char c => Compose.append (Output.appendChar c)
  | .flag b => Compose.append (Output.appendWhole (if b then "true" else "false"))
  | .unsigned n => Compose.append (Output.appendUnsigned n)
  | .signed n => Compose.append (Output.appendSigned n)
  | .double bits => Compose.append (Output.appendDouble bits)
  | .single bits => Compose.append (Output.appendSingle bits)
  | .named name => Compose.append (Output.appendWhole name)
  | .absent => Compose.append (Output.appendWhole "null")
  | .template key arguments =>
    renderNested source key fun name => arguments.resolve source key name
  | .broken key message => Compose.fail (.render (.resolver key message))

/-- Appends the value bound to a name; `key` is the key of the template that asks for it. -/
def Arguments.resolve {σ : Type} (source : Option (Source σ)) (key : String) :
    Arguments → Resolver σ
  | .none, name => Compose.fail (.render (.unknownPlaceholder key name))
  | .bind bound value rest, name =>
    if bound = name then value.emit source else rest.resolve source key name

end

end Phrasebook
