import Phrasebook.Proofs.Document.Outline
import Phrasebook.Proofs.Document.Writing

/-!
# Registers of keys

What calls on a draft write, portion by portion, and which keys the open section accepted; a register is
kept by the calls alone. Entries move from those that are put off to the output without leaving the
register, so the invariant relates three lists: what the section accepted is what stands in the output
since its start together with what is still put off, and no key comes twice.
-/

namespace Phrasebook.Document

open Phrasebook.Calendar Phrasebook.Markup

/-! ## The output in portions -/

/-- What a draft writes in one go. -/
inductive Portion where
  /-- The tag that begins a section, behind its comment. -/
  | opening (origin : Origin)
  | content (entry : Entry)
  /-- The tag that ends a section, and its comment. -/
  | closing (origin : Origin)
  | remark (text : String)
deriving DecidableEq, Repr

namespace Portion

def items : Portion → List Item
  | opening origin =>
    [commentItem ("Start of file " ++ fileName origin.path),
      .start fileElement origin.elementAttributes]
  | content entry => entry.spelling
  | closing origin =>
    [.close fileElement, commentItem ("End of file " ++ fileName origin.path)]
  | remark text => [commentItem text]

/-- Whether the portion neither begins nor ends a section. -/
def inside : Portion → Bool
  | opening _ => false
  | content _ => true
  | closing _ => false
  | remark _ => true

def entry? : Portion → Option Entry
  | opening _ => none
  | content entry => some entry
  | closing _ => none
  | remark _ => none

/-- The entries since the last start or end of a section, given those in front of the portion. -/
def onto (held : List Entry) : Portion → List Entry
  | opening _ => []
  | content entry => held ++ [entry]
  | closing _ => []
  | remark _ => held

/-- The entries since the last start or end of a section. -/
def latest (portions : List Portion) : List Entry := portions.foldl onto []

/-- Between the start of a section and its end, or as far as the output goes, no key comes twice. -/
def KeysApart (portions : List Portion) : Prop :=
  ∀ (before : List Portion) (origin : Origin) (stretch rest : List Portion),
    portions = before ++ opening origin :: (stretch ++ rest) →
    (∀ portion ∈ stretch, portion.inside = true) →
    ((stretch.filterMap entry?).map Entry.key).Nodup

theorem latest_concat (portions : List Portion) (portion : Portion) :
    latest (portions ++ [portion]) = portion.onto (latest portions) := by
  rw [latest, List.foldl_append, List.foldl_cons, List.foldl_nil, latest]

theorem foldl_onto_entries (held entries : List Entry) :
    (entries.map content).foldl onto held = held ++ entries := by
  induction entries generalizing held with
  | nil => exact (List.append_nil held).symm
  | cons first entries ih =>
    rw [List.map_cons, List.foldl_cons, ih, List.append_cons held]
    rfl

theorem latest_entries (portions : List Portion) (entries : List Entry) :
    latest (portions ++ entries.map content) = latest portions ++ entries := by
  rw [latest, List.foldl_append, foldl_onto_entries, latest]

theorem foldl_onto_inside (held : List Entry) {stretch : List Portion}
    (within : ∀ portion ∈ stretch, portion.inside = true) :
    stretch.foldl onto held = held ++ stretch.filterMap entry? := by
  induction stretch generalizing held with
  | nil => exact (List.append_nil held).symm
  | cons portion stretch ih =>
    obtain ⟨first, within⟩ := List.forall_mem_cons.1 within
    rw [List.foldl_cons, ih _ within]
    cases portion with
    | opening origin | closing origin => cases first
    | remark text => rfl
    | content entry => exact (List.append_cons held entry _).symm

theorem latest_stretch (before : List Portion) (origin : Origin) {stretch : List Portion}
    (within : ∀ portion ∈ stretch, portion.inside = true) :
    latest (before ++ opening origin :: stretch) = stretch.filterMap entry? := by
  rw [latest, List.foldl_append, List.foldl_cons]
  exact foldl_onto_inside [] within

/-- At no point of the output the entries of the last section share a key. -/
def Apart (portions : List Portion) : Prop :=
  ∀ front, front <+: portions → ((latest front).map Entry.key).Nodup

namespace Apart

variable {portions : List Portion}

theorem keysApart (apart : Apart portions) : KeysApart portions := by
  intro before origin stretch rest cut within
  rw [← latest_stretch before origin within]
  refine apart _ ⟨rest, ?_⟩
  rw [cut, List.append_assoc, List.cons_append]

theorem concat (apart : Apart portions) {portion : Portion}
    (distinct : ((portion.onto (latest portions)).map Entry.key).Nodup) :
    Apart (portions ++ [portion]) := by
  intro front begins
  rcases List.prefix_concat_iff.1 begins with rfl | begins
  · rwa [latest_concat]
  · exact apart front begins

theorem entries (apart : Apart portions) {entries : List Entry}
    (distinct : ((latest portions ++ entries).map Entry.key).Nodup) :
    Apart (portions ++ entries.map content) := by
  induction entries generalizing portions with
  | nil => rwa [List.map_nil, List.append_nil]
  | cons first entries ih =>
    rw [List.append_cons] at distinct
    rw [List.map_cons, List.append_cons]
    refine ih (apart.concat ?_) (by rwa [latest_concat, onto])
    exact distinct.sublist ((List.sublist_append_left _ entries).map Entry.key)

end Apart

end Portion

/-! ## The register of the calls -/

/-- What a draft wrote, and what its open section accepted. -/
structure Register where
  /-- The open section. -/
  current : Option Origin := none
  /-- The entries that the open section accepted, in the order of the calls. -/
  accepted : List Entry := []
  /-- Those of them that are put off, in the order of the calls. -/
  waiting : List Entry := []
  /-- What was written behind the head of the document. -/
  portions : List Portion := []
deriving DecidableEq, Repr

namespace Register

/-- What becomes of an entry: it needs an open section that did not accept its key before. -/
def admission (register : Register) (entry : Entry) : Except Fault Unit :=
  match register.current with
  | none => .error .noOpenSection
  | some origin =>
    match register.accepted.find? (·.key = entry.key) with
    | some first => .error (.duplicateKey origin.path entry.key first.text entry.text)
    | none => .ok ()

def answer (register : Register) : Call → Except Fault Unit
  | .startFile _ => .ok ()
  | .writeEntry entry => register.admission entry
  | .deferEntry entry => register.admission entry
  | .flush => .ok ()
  | .endFile => if register.current.isSome then .ok () else .error .noOpenSection
  | .comment _ => .ok ()

def flush (register : Register) : Register :=
  { register with
    portions := register.portions ++ (sortedByKey register.waiting).map .content
    waiting := [] }

def close (register : Register) : Register :=
  match register.current with
  | none => register
  | some origin => { portions := register.flush.portions ++ [.closing origin] }

def record (register : Register) : Call → Register
  | .startFile origin =>
    if register.current = some origin then register
    else { current := some origin, portions := register.close.portions ++ [.opening origin] }
  | .writeEntry entry =>
    match register.admission entry with
    | .ok _ =>
      { register with
        accepted := register.accepted ++ [entry]
        portions := register.portions ++ [.content entry] }
    | .error _ => register
  | .deferEntry entry =>
    match register.admission entry with
    | .ok _ =>
      { register with
        accepted := register.accepted ++ [entry]
        waiting := register.waiting ++ [entry] }
    | .error _ => register
  | .flush => register.flush
  | .endFile => register.close
  | .comment text => { register with portions := register.portions ++ [.remark text] }

def recordAll (register : Register) (calls : List Call) : Register := calls.foldl record register

def answers (register : Register) : List Call → List (Except Fault Unit)
  | [] => []
  | call :: calls => register.answer call :: (register.record call).answers calls

/-- When an entry is refused, and with which fault. -/
structure Judges (register : Register) (entry : Entry) (answer : Except Fault Unit) : Prop where
  closed : answer = .error .noOpenSection ↔ register.current = none
  repeated (path key existing text : String) :
    answer = .error (.duplicateKey path key existing text) ↔
      ∃ origin first, register.current = some origin ∧
        register.accepted.find? (·.key = entry.key) = some first ∧
        path = origin.path ∧ key = entry.key ∧ existing = first.text ∧ text = entry.text
  accepted : answer = .ok () ↔
    (∃ origin, register.current = some origin) ∧ entry.key ∉ register.accepted.map Entry.key

/-- An entry needs an open section, and a key that was not accepted there. -/
theorem judges_admission (register : Register) (entry : Entry) :
    register.Judges entry (register.admission entry) := by
  rw [admission]
  cases opened : register.current with
  | none => exact ⟨by simp [opened], by simp [opened], by simp [opened]⟩
  | some origin =>
    cases found : register.accepted.find? (·.key = entry.key) with
    | none =>
      have new : entry.key ∉ register.accepted.map Entry.key := by
        intro mem
        obtain ⟨first, held⟩ := exists_find?_key mem
        cases found.symm.trans held
      exact ⟨by simp [opened], by simp [found], by simp [opened, new]⟩
    | some first =>
      have held : entry.key ∈ register.accepted.map Entry.key := by
        have same := List.find?_some found
        exact List.mem_map.2 ⟨first, List.mem_of_find?_eq_some found, of_decide_eq_true same⟩
      refine ⟨by simp [opened], fun path key existing text ↦ ?_, by simp [held]⟩
      constructor
      · intro refused
        cases refused
        exact ⟨origin, first, opened, found, rfl, rfl, rfl, rfl⟩
      · rintro ⟨_, _, current, same, rfl, rfl, rfl, rfl⟩
        cases opened.symm.trans current
        cases found.symm.trans same
        rfl

theorem of_admission {register : Register} {entry : Entry}
    (admitted : register.admission entry = .ok ()) :
    (∃ origin, register.current = some origin) ∧ entry.key ∉ register.accepted.map Entry.key :=
  (register.judges_admission entry).accepted.1 admitted

/-- What the open section accepted was written since its start or is put off, and no key comes twice,
neither among that nor in any section of the output. -/
structure Sound (register : Register) : Prop where
  distinct : (register.accepted.map Entry.key).Nodup
  accounted : (Portion.latest register.portions ++ register.waiting).Perm register.accepted
  attached : register.current = none → register.accepted = []
  apart : Portion.Apart register.portions

namespace Sound

variable {register : Register}

theorem nothing : ({} : Register).Sound where
  distinct := List.nodup_nil
  accounted := .refl _
  attached _ := rfl
  apart := by
    intro front begins
    rw [List.prefix_nil.1 begins]
    exact List.nodup_nil

theorem held_distinct (sound : register.Sound) :
    ((Portion.latest register.portions ++ register.waiting).map Entry.key).Nodup :=
  (sound.accounted.map Entry.key).nodup_iff.2 sound.distinct

theorem waiting_distinct (sound : register.Sound) : (register.waiting.map Entry.key).Nodup :=
  sound.held_distinct.sublist ((List.sublist_append_right _ _).map Entry.key)

theorem accept (sound : register.Sound) {entry : Entry}
    (new : entry.key ∉ register.accepted.map Entry.key) :
    ((register.accepted ++ [entry]).map Entry.key).Nodup :=
  distinct_of_perm sound.distinct new (List.perm_append_singleton entry _)

theorem write (sound : register.Sound) {entry : Entry}
    (admitted : register.admission entry = .ok ()) :
    ({ register with
        accepted := register.accepted ++ [entry]
        portions := register.portions ++ [.content entry] } : Register).Sound := by
  obtain ⟨⟨origin, opened⟩, new⟩ := of_admission admitted
  have distinct := sound.accept new
  have accounted : (Portion.latest register.portions ++ [entry] ++ register.waiting).Perm
      (register.accepted ++ [entry]) := by
    rw [List.append_assoc]
    calc Portion.latest register.portions ++ ([entry] ++ register.waiting)
      List.Perm _ (Portion.latest register.portions ++ (register.waiting ++ [entry])) :=
        List.perm_append_comm.append_left _
      _ = Portion.latest register.portions ++ register.waiting ++ [entry] :=
        (List.append_assoc _ _ _).symm
      List.Perm _ (register.accepted ++ [entry]) := sound.accounted.append_right _
  constructor
  · exact distinct
  · rwa [Portion.latest_concat, Portion.onto]
  · intro closed
    cases opened.symm.trans closed
  · refine sound.apart.concat ?_
    refine ((accounted.map Entry.key).nodup_iff.2 distinct).sublist ?_
    exact (List.sublist_append_left _ _).map Entry.key

theorem putOff (sound : register.Sound) {entry : Entry}
    (admitted : register.admission entry = .ok ()) :
    ({ register with
        accepted := register.accepted ++ [entry]
        waiting := register.waiting ++ [entry] } : Register).Sound := by
  obtain ⟨⟨origin, opened⟩, new⟩ := of_admission admitted
  constructor
  · exact sound.accept new
  · rw [← List.append_assoc]
    exact sound.accounted.append_right _
  · intro closed
    cases opened.symm.trans closed
  · exact sound.apart

theorem flush (sound : register.Sound) : register.flush.Sound := by
  have sorted := (sortedByKey_perm register.waiting).append_left (Portion.latest register.portions)
  constructor
  · exact sound.distinct
  · rw [Register.flush, Portion.latest_entries, List.append_nil]
    exact sorted.trans sound.accounted
  · exact sound.attached
  · exact sound.apart.entries ((sorted.map Entry.key).nodup_iff.2 sound.held_distinct)

theorem close (sound : register.Sound) : register.close.Sound := by
  rw [Register.close]
  cases register.current with
  | none => exact sound
  | some origin =>
    refine ⟨List.nodup_nil, ?_, fun _ ↦ rfl, sound.flush.apart.concat List.nodup_nil⟩
    rw [Portion.latest_concat]
    exact .refl _

/-- No call on a draft breaks what its register promises. -/
theorem record (sound : register.Sound) (call : Call) : (register.record call).Sound := by
  cases call with
  | startFile origin =>
    rw [Register.record]
    split
    · exact sound
    · refine ⟨List.nodup_nil, ?_, nofun, sound.close.apart.concat List.nodup_nil⟩
      rw [Portion.latest_concat]
      exact .refl _
  | writeEntry entry =>
    rw [Register.record]
    split
    · next admitted => exact sound.write admitted
    · exact sound
  | deferEntry entry =>
    rw [Register.record]
    split
    · next admitted => exact sound.putOff admitted
    · exact sound
  | flush => exact sound.flush
  | endFile => exact sound.close
  | comment text =>
    have same : Portion.latest (register.portions ++ [.remark text]) =
        Portion.latest register.portions := Portion.latest_concat _ _
    refine ⟨sound.distinct, ?_, sound.attached, sound.apart.concat ?_⟩
    · rw [Register.record, same]
      exact sound.accounted
    · exact sound.apart _ (List.prefix_refl _)

end Sound

end Register

end Phrasebook.Document
