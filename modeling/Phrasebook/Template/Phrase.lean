import Phrasebook.Template.Fault
import Phrasebook.Text.Quoted

/-!
# Phrases

A phrase is what a string table binds to a key: a sequence of constant texts and placeholders, or
the marker that stands in for a key that has none. Two constants never stand side by side in a
phrase that was read from text, so a phrase is a constant text exactly when it has no placeholder.
-/

namespace Phrasebook

/-- One step of a phrase. -/
inductive Piece where
  /-- Text that is copied as it stands. -/
  | literal (text : String)
  /-- A value that is supplied when the phrase is rendered. -/
  | placeholder (name : String)
deriving DecidableEq, Repr

inductive Phrase where
  | defined (name : String) (pieces : List Piece)
  /-- The stand-in for a key that is not in a table. -/
  | missing (name : String)
deriving DecidableEq, Repr

namespace Phrase

/-- The key under which the phrase was defined or sought. -/
def name : Phrase → String
  | defined name _ => name
  | missing name => name

/-- The steps of the phrase; a missing one has none. -/
def pieces : Phrase → List Piece
  | defined _ pieces => pieces
  | missing _ => []

def isMissing : Phrase → Bool
  | defined _ _ => false
  | missing _ => true

/-- A phrase that is the given text, with nothing read into it. -/
def raw (name text : String) : Phrase :=
  .defined name (if text.isEmpty then [] else [.literal text])

def isConstant (phrase : Phrase) : Bool :=
  match phrase.pieces with
  | [] => true
  | [.literal _] => true
  | _ => false

/-- The text written in place of a missing phrase. -/
def missingText (phrase : Phrase) : String := "<MISSING: " ++ phrase.name ++ ">"

/-- The text of a constant phrase; a missing phrase has its marker. -/
def constantText? : Phrase → Option String
  | missing name => some (missing name).missingText
  | defined _ [] => some ""
  | defined _ [.literal text] => some text
  | defined _ _ => none

/-- The text of a constant phrase; any other phrase is refused. -/
def constantText (phrase : Phrase) : Except RenderError String :=
  match phrase.constantText? with
  | some text => .ok text
  | none => .error (.notALiteral phrase.name)

/-- The first occurrences in a list of names, in order. -/
def distinct : List String → List String
  | [] => []
  | name :: rest => name :: (distinct rest).filter (· ≠ name)

/-- The names of the placeholders, each once, in the order of first use. -/
def placeholders (phrase : Phrase) : List String :=
  distinct <| phrase.pieces.filterMap fun
    | .literal _ => none
    | .placeholder name => some name

/-- The phrase as messages call it. -/
def title (phrase : Phrase) : String := "String '" ++ phrase.name ++ "'"

end Phrase

def describePlaceholder (name : String) : String := "PlaceholderId(" ++ Text.quoted name ++ ")"

def Piece.describe : Piece → String
  | literal text => "Literal(" ++ Text.quoted text ++ ")"
  | placeholder name => "Placeholder(" ++ describePlaceholder name ++ ")"

def Phrase.describe (phrase : Phrase) : String :=
  "Definition \x7b name: " ++ Text.quoted phrase.name ++
    ", opcodes: [" ++ ", ".intercalate (phrase.pieces.map Piece.describe) ++
    "], is_missing: " ++ (if phrase.isMissing then "true" else "false") ++ " \x7d"

end Phrasebook
