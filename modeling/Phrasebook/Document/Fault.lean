import Phrasebook.Calendar.Instant
import Phrasebook.Markup.Problem
import Phrasebook.Template.Fault

/-!
# Document Faults

Why a document cannot be read or written. A fault that reading finds says how many bytes had been
read and which section was open.
-/

namespace Phrasebook.Document

open Phrasebook.Text

structure Place where
  position : Nat
  /-- The path of the open section. -/
  file : Option String := none
deriving DecidableEq, Repr

def Place.description (place : Place) : String :=
  "byte " ++ Numeral.decimal place.position ++
    match place.file with
    | some path => " in file section " ++ code path
    | none => ""

/-- Why a document cannot be read or written. -/
inductive Fault where
  | malformed (place : Place) (problem : Markup.Problem)
  | unexpectedElement (place : Place) (name : String)
  | unexpectedText (place : Place) (text : String)
  | missingAttribute (place : Place) (element name : String)
  /-- The document ends inside of an element. -/
  | truncated (place : Place) (element : String)
  | noRoot
  | notUtf8 (place : Place)
  | badStamp (place : Place) (value : String) (reason : Calendar.InstantError)
  /-- A key was written twice in a section, first with the text `existing`. -/
  | duplicateKey (file key existing text : String)
  | noOpenSection
  /-- The sink refused a write, for a reason that the system words. -/
  | refused (reason : String)
deriving DecidableEq, Repr

namespace Fault

/-- The place of a fault that reading found. -/
def place? : Fault → Option Place
  | malformed place _ => some place
  | unexpectedElement place _ => some place
  | unexpectedText place _ => some place
  | missingAttribute place _ _ => some place
  | truncated place _ => some place
  | notUtf8 place => some place
  | badStamp place _ _ => some place
  | noRoot => none
  | duplicateKey _ _ _ _ => none
  | noOpenSection => none
  | refused _ => none

def message : Fault → String
  | malformed place problem => "malformed XML at " ++ place.description ++ ": " ++ problem.message
  | unexpectedElement place name => "unexpected element " ++ code name ++ " at " ++ place.description
  | unexpectedText place text => "unexpected text " ++ quoted text ++ " at " ++ place.description
  | missingAttribute place element name =>
    code element ++ " is missing required attribute " ++ code name ++ " at " ++ place.description
  | truncated place element => "document ends inside " ++ code element ++ " at " ++ place.description
  | noRoot => "document has no `StringTable` root element"
  | notUtf8 place => "invalid UTF-8 at " ++ place.description
  | badStamp place value reason =>
    "invalid timestamp " ++ quoted value ++ " at " ++ place.description ++ ": " ++ reason.message
  | duplicateKey file key existing text =>
    "key " ++ code key ++ " already written to file section " ++ code file ++ " with text " ++
      quoted existing ++ " (rejected text " ++ quoted text ++ ")"
  | noOpenSection => "no file section is open"
  | refused reason => "I/O error: " ++ reason

end Fault

end Phrasebook.Document
