import Phrasebook.Document.Draft
import Phrasebook.Document.Reading

/-!
# Canonical Documents

The canonical form of a document has the entries of each section in the order of their keys, every
hash fresh, and the layout that drafts have. Comments and further attributes stay with their entries.
-/

namespace Phrasebook.Document

open Phrasebook.Calendar

/-- A document in its canonical form, and how much it holds. -/
structure Canonical where
  text : String
  sections : Nat
  entries : Nat
deriving DecidableEq, Repr

namespace Canonical

/-- Puts entries off with fresh hashes. -/
def deferAll : List Entry → DraftM Unit
  | [] => pure ()
  | entry :: rest => do
    Draft.deferEntry entry.rehash
    deferAll rest

def writeSection (content : Section) : DraftM Unit := do
  Draft.startFile content.origin
  deferAll content.entries
  Draft.endFile

/-- Writes sections as they are read; the result is how many sections and entries there were. -/
def writeAll : Sections → DraftM (Nat × Nat)
  | .next content _ _ rest => do
    writeSection content
    let (sections, entries) ← writeAll rest
    return (sections + 1, entries + content.entries.length)
  | .done _ => return (0, 0)
  | .failed fault _ => throw fault

/-- The canonical form of a document. It is stamped with the time `now`, unless the document has a
stamp and `keepStamp` says to keep it. -/
def ofStream (stream : Markup.Stream) (keepStamp : Bool) (now : Instant) :
    Except Fault Canonical := do
  let opened ← Document.ofStream stream
  let generated := if keepStamp then opened.header.generated.getD now else now
  let (started, draft) := Draft.start {} opened.header.locale generated
  started
  let write : DraftM (Nat × Nat) := do
    let counts ← writeAll opened.sections
    Draft.finish
    return counts
  let (written, draft) := write.run draft
  let (sections, entries) ← written
  return ⟨draft.text, sections, entries⟩

end Canonical

end Phrasebook.Document
