import Phrasebook.Output.Rendering
import Std.Data.TreeMap

/-!
# Text Bindings

Placeholder values that are texts, known only when a template is rendered: a key for messages and a
map from placeholder names to texts, each of which is appended as it stands.
-/

namespace Phrasebook

/-- The key of a template, and texts for its placeholders. -/
structure Bindings where
  key : String
  values : Std.TreeMap String String := ∅

namespace Bindings

def get? (bindings : Bindings) (name : String) : Option String := bindings.values[name]?

/-- Binds a name to a text in place of the one it had. -/
def insert (bindings : Bindings) (name text : String) : Bindings :=
  { bindings with values := bindings.values.insert name text }

def size (bindings : Bindings) : Nat := bindings.values.size

def resolve {σ : Type} (bindings : Bindings) : Resolver σ := fun name =>
  match bindings.get? name with
  | some text => Compose.append (Output.appendWhole text)
  | none => Compose.fail (.render (.unknownPlaceholder bindings.key name))

end Bindings

/-- The text of a phrase rendered on its own, without a source of nested templates. -/
def Phrase.renderAlone (phrase : Phrase) (resolve : Resolver Unit) (pool : BufferPool) :
    Except Failure String × BufferPool :=
  match phrase.render resolve { output := {}, pool := pool, world := () } with
  | (.ok (), desk) =>
    let (text, pool) := Output.finish (desk.output, desk.pool)
    (.ok text, pool)
  | (.error e, desk) => (.error e, Output.discard (desk.output, desk.pool))

end Phrasebook
