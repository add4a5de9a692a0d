import Mathlib.Tactic.Simps.Basic
import Phrasebook.Document.Draft
import Phrasebook.Proofs.Steps

/-!
# Steps of a draft

Whether an entry is taken depends on the open section and on the two tables only. A section that is open
is not begun again, and where none is open none ends. These equations open the steps of a draft for `simp`;
what a step writes is added where the page is known.
-/

namespace Phrasebook.Document.Draft

/-- The draft with an entry noted as written. -/
@[simps]
def noted (draft : Draft) (entry : Entry) : Draft :=
  { draft with written := draft.written.insert entry.key entry.text }

/-- What becomes of an entry: it needs an open section that did not accept its key before. -/
def admission (draft : Draft) (entry : Entry) : Except Fault Unit :=
  match draft.current with
  | none => .error .noOpenSection
  | some origin =>
    match draft.accepted? entry.key with
    | some existing => .error (.duplicateKey origin.path entry.key existing entry.text)
    | none => .ok ()

variable (draft : Draft)

@[simp] theorem run_note (entry : Entry) :
    (note entry).run draft = (.ok (), draft.noted entry) := rfl

@[simp] theorem run_checkUnique_eq (entry : Entry) :
    (checkUnique entry).run draft = (draft.admission entry, draft) := by
  rw [admission]
  cases current : draft.current with
  | none => simp [checkUnique, current]
  | some origin =>
    dsimp only
    cases accepted : draft.accepted? entry.key with
    | none => simp [checkUnique, current, accepted]
    | some existing => simp [checkUnique, current, accepted]

theorem flush_eq_emitAll :
    flush.run draft = (emitAll draft.deferred.values).run { draft with deferred := ∅ } := by
  simp [flush]

/-- A section that is open already is not begun again. -/
theorem startFile_of_open {origin : Origin} (same : draft.current = some origin) :
    (startFile origin).run draft = (.ok (), draft) := by
  simp [startFile, same]

theorem endOpenFile_of_none (closed : draft.current = none) :
    endOpenFile.run draft = (.ok (), draft) := by
  simp [endOpenFile, closed]

theorem endOpenFile_of_ne_none (opened : draft.current ≠ none) :
    endOpenFile.run draft = endFile.run draft := by
  simp [endOpenFile, Option.isSome_iff_ne_none, opened]

end Phrasebook.Document.Draft
