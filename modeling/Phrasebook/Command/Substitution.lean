import Phrasebook.Command.Basic
import Phrasebook.Library.Lookup
import Phrasebook.Numeral.Reading

/-!
# Substitutions

Rendering a phrase with values that are given as texts `NAME=VALUE`. A value that is a decimal, digits
on both sides of a point and perhaps a hyphen in front, is a number and is written with the separator
at hand; every other value stands for itself.
-/

namespace Phrasebook.Command

open Phrasebook.Text

/-- A name and the text of its value. The text is what follows the first equals sign. -/
def parsePair (raw : String) : Except String (String × String) :=
  let name := raw.toList.takeWhile (· ≠ '=')
  match raw.toList.dropWhile (· ≠ '=') with
  | [] => .error ("expected NAME=VALUE, got " ++ code raw)
  | _ :: value =>
    if name.all isBlank then .error ("empty placeholder name in " ++ code raw)
    else .ok (String.ofList name, String.ofList value)

def valueOf (raw : String) : Value :=
  let (negative, digits) := match raw.toList with
    | '-' :: digits => (true, digits)
    | digits => (false, digits)
  let whole := digits.takeWhile (· ≠ '.')
  let fraction := (digits.dropWhile (· ≠ '.')).tail
  if !whole.isEmpty && !fraction.isEmpty && whole.all Char.isDigit && fraction.all Char.isDigit then
    .double (Numeral.readDecimal negative whole fraction)
  else .text raw

/-- The values of pairs; of two with one name, the later one counts. -/
def argumentsOf (pairs : List (String × String)) : Arguments :=
  pairs.foldl (fun rest pair => .bind pair.1 (valueOf pair.2) rest) .none

/-- Renders the phrase that a table has under a key. Without `strict` an absent key leads to its
marker. -/
def renderEntry (id : TableId) (key : String) (pairs : List (String × String)) (strict : Bool)
    (format : NumberFormat) : LibraryM (Except CommandError String) := do
  match ← Library.find id key (!strict) with
  | .error e => return .error (.table (.lookup e))
  | .ok shared =>
    let library ← get
    let source := some (Library.source id)
    let desk : Desk Library := { output := { format := format }, pool := {}, world := library }
    let (result, desk) :=
      shared.phrase.render (fun name => (argumentsOf pairs).resolve source key name) desk
    set desk.world
    match result with
    | .ok () => return .ok desk.output.text
    | .error failure => return .error (.rendering failure)

end Phrasebook.Command
