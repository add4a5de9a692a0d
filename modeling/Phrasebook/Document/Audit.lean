import Phrasebook.Document.Reading
import Std.Data.TreeMap

/-!
# Audits

An audit reads a document to its end and lists what a table would not take from it: texts that are
no templates, placeholder names that are reserved, and keys that were defined before, in whichever
section. Entries whose hash does not belong to their text are listed apart.
-/

namespace Phrasebook.Document

inductive Defect where
  | template (error : TemplateError)
  /-- The key was defined before, last in the section of the path `first`. -/
  | duplicate (key first : String)
deriving DecidableEq, Repr

def Defect.message : Defect → String
  | template error => error.message
  | duplicate key first => "key " ++ code key ++ " already defined in " ++ first

/-- A defect of an entry in the section of a path. -/
structure Finding where
  path : String
  defect : Defect
deriving DecidableEq, Repr

def Finding.message (finding : Finding) : String := finding.path ++ ": " ++ finding.defect.message

/-- The findings on a document, and the keys of the entries with a hash of another text. -/
structure Audit where
  sections : Nat := 0
  entries : Nat := 0
  findings : List Finding := []
  stale : List String := []
deriving DecidableEq, Repr

namespace Audit

def isClean (audit : Audit) : Bool := audit.findings.isEmpty

/-- An audit under way, with the path of the section that last defined each key. -/
structure Progress where
  audit : Audit := {}
  seen : Std.TreeMap String String := ∅

/-- What is wrong with the text of an entry. Reserved names are accepted where `allowReserved`
says so, and in texts that are no templates. -/
def textDefect? (allowReserved : Bool) (entry : Entry) : Option Defect :=
  match entry.phrase with
  | .error error => some (.template error)
  | .ok phrase =>
    if entry.kind = .template && !allowReserved then
      match phrase.checkReserved with
      | .error error => some (.template error)
      | .ok () => none
    else none

def Progress.takeEntry (allowReserved : Bool) (path : String) (progress : Progress) (entry : Entry) :
    Progress :=
  let text := (textDefect? allowReserved entry).toList
  let key := progress.seen[entry.key]?.toList.map (Defect.duplicate entry.key)
  let audit := progress.audit
  { audit :=
      { audit with
        entries := audit.entries + 1
        findings := audit.findings ++ (text ++ key).map (Finding.mk path)
        stale :=
          if entry.hash = Digest.contentHash entry.text then audit.stale
          else audit.stale ++ [entry.key] }
    seen := progress.seen.insert entry.key path }

def Progress.take (allowReserved : Bool) (progress : Progress) (content : Section) :
    Progress :=
  let audit := progress.audit
  content.entries.foldl (Progress.takeEntry allowReserved content.origin.path)
    { progress with audit := { audit with sections := audit.sections + 1 } }

def ofStream (stream : Markup.Stream) (allowReserved : Bool) : Except Fault Audit := do
  let opened ← Document.ofStream stream
  let sections ← opened.sections.all
  return (sections.foldl (Progress.take allowReserved) {}).audit

end Audit

end Phrasebook.Document
