import Mathlib.Data.List.Forall2
import Phrasebook.Proofs.Template.Compilation

/-!
# Interning is canonical

Any number of callers share an interner, which serves one of them at a time. So what they do is a
sequence of moves: a text is interned, a compilation begins, or a compilation that waits for a share
gets it and goes on up to the next text that it interns. After every move the interner finds a text
exactly where it stands in memory, and memory only grows. Hence a text keeps its one allocation, and
what a compilation comes to depends on nothing that is interned in between.
-/

namespace Phrasebook

namespace Interner

/-- A text is found exactly where it stands in memory. -/
def Consistent (interner : Interner) : Prop :=
  ∀ name text, interner.known[text]? = some name ↔ interner.text? name = some text

/-- A choice of shares for all texts that has those of the interner where it has some. -/
def Assigns (interner : Interner) (share : String → InternedName) : Prop :=
  ∀ name text, interner.text? name = some text → share text = name

/-- The shares of the interner, and one and the same for all other texts. -/
def shareOr (interner : Interner) (other : InternedName) (text : String) : InternedName :=
  interner.known[text]?.getD other

variable {interner : Interner} {text : String} {name : InternedName}

theorem intern_of_known (h : interner.known[text]? = some name) :
    interner.intern text = (name, interner) := by
  rw [intern, h]

theorem intern_of_new (h : interner.known[text]? = none) :
    interner.intern text = (⟨interner.memory.size⟩,
      ⟨interner.memory.push text, interner.known.insert text ⟨interner.memory.size⟩⟩) := by
  rw [intern, h]

theorem known_intern (interner : Interner) (text other : String) (name : InternedName) :
    (interner.intern text).2.known[other]? = some name ↔
      interner.known[other]? = some name ∨ other = text ∧ name = (interner.intern text).1 := by
  cases found : interner.known[text]? with
  | some share =>
    rw [intern_of_known found]
    refine ⟨.inl, ?_⟩
    rintro (kept | ⟨rfl, rfl⟩)
    · exact kept
    · exact found
  | none =>
    rw [intern_of_new found, Std.TreeMap.getElem?_insert]
    by_cases same : text = other
    · simp [← same, found, eq_comm]
    · simp [same, Ne.symm same]

theorem text?_new (interner : Interner) : interner.text? ⟨interner.memory.size⟩ = none :=
  Array.getElem?_eq_none (Nat.le_refl _)

namespace Consistent

theorem new : ({} : Interner).Consistent := by
  intro name text
  simp [text?]

theorem assigns (h : interner.Consistent) (other : InternedName) :
    interner.Assigns (interner.shareOr other) := by
  intro name text stands
  rw [shareOr, (h name text).2 stands, Option.getD_some]

/-- Only the text that is interned may come into memory. -/
theorem text?_intern (h : interner.Consistent) (text other : String) (name : InternedName) :
    (interner.intern text).2.text? name = some other ↔
      interner.text? name = some other ∨ other = text ∧ name = (interner.intern text).1 := by
  cases found : interner.known[text]? with
  | some share =>
    rw [intern_of_known found]
    refine ⟨.inl, ?_⟩
    rintro (kept | ⟨rfl, rfl⟩)
    · exact kept
    · exact (h _ _).1 found
  | none =>
    rw [intern_of_new found, text?, Array.getElem?_push]
    by_cases new : name = ⟨interner.memory.size⟩
    · subst new
      simp [text?_new, eq_comm]
    · have old : name.allocation ≠ interner.memory.size :=
        fun same ↦ new (congrArg InternedName.mk same)
      simp [old, new, text?]

theorem intern (h : interner.Consistent) (text : String) :
    (interner.intern text).2.Consistent := by
  intro name other
  rw [known_intern, h.text?_intern, h]

/-- A choice of shares that suits a later interner suits the earlier one. -/
theorem assigns_of_intern (h : interner.Consistent) {share : String → InternedName}
    (assigns : (interner.intern text).2.Assigns share) :
    interner.Assigns share ∧ share text = (interner.intern text).1 :=
  ⟨fun name other stands ↦ assigns name other ((h.text?_intern ..).2 (.inl stands)),
    assigns _ text ((h.text?_intern ..).2 (.inr ⟨rfl, rfl⟩))⟩

end Consistent

end Interner

namespace Interning

structure Request where
  reading : Reading
  name : String
  text : String
deriving DecidableEq

namespace Request

def compilation (request : Request) : Compilation :=
  .ofText request.reading request.name request.text

def read (request : Request) : Except TemplateError Phrase :=
  Phrase.read request.reading request.name request.text

end Request

/-- A text that was interned, with the share that was handed out. -/
structure Answer where
  text : String
  name : InternedName
deriving DecidableEq

/-- An interner with all that was asked of it. -/
structure Session where
  interner : Interner := {}
  answers : List Answer := []
  compilations : List (Request × Compilation) := []

inductive Move where
  | intern (text : String)
  | compile (request : Request)
  /-- A compilation gets the share that it waits for. -/
  | resume (index : ℕ)
deriving DecidableEq

/-- A piece and the same piece with the share that was handed out for its name. -/
inductive Links (answers : List Answer) : Piece → InternedPiece → Prop where
  | literal (text : String) : Links answers (.literal text) (.literal text)
  | placeholder {text : String} {name : InternedName} (mem : ⟨text, name⟩ ∈ answers) :
    Links answers (.placeholder text) (.placeholder name)

/-- A phrase and the same phrase with the shares that were handed out for its names. -/
structure Spells (answers : List Answer) (phrase : Phrase) (interned : InternedPhrase) : Prop where
  name : interned.name = phrase.name
  pieces : List.Forall₂ (Links answers) phrase.pieces interned.pieces
  isMissing : interned.isMissing = phrase.isMissing

/-! ## Compilations that are under way -/

/-- A compilation that was begun for a text, however far it came: whatever shares are handed out
from now on, it comes to what is read from the text. -/
structure Follows (interner : Interner) (request : Request) (compilation : Compilation) : Prop where
  within : compilation.Within request.text.length
  outcome : ∀ share, interner.Assigns share →
    compilation.outcome share = request.read.map (Phrase.link share)

namespace Follows

variable {interner : Interner} {request : Request} {compilation : Compilation}

theorem start (interner : Interner) (request : Request) :
    Follows interner request request.compilation where
  within := Compilation.within_ofText request.reading request.name request.text
  outcome share _ :=
    Compilation.outcome_ofText share request.reading request.name request.text

theorem intern (h : Follows interner request compilation) (consistent : interner.Consistent)
    (text : String) : Follows (interner.intern text).2 request compilation where
  within := h.within
  outcome share assigns := h.outcome share (consistent.assigns_of_intern assigns).1

theorem resume {text : String} {resume : InternedName → Compilation}
    (h : Follows interner request (.interns text resume)) (consistent : interner.Consistent) :
    Follows (interner.intern text).2 request (resume (interner.intern text).1) where
  within := by
    obtain ⟨k, length, rest⟩ := h.within.rest
    exact (rest _).mono (length ▸ Nat.le_succ k)
  outcome share assigns := by
    obtain ⟨before, own⟩ := consistent.assigns_of_intern assigns
    calc
      (resume (interner.intern text).1).outcome share
      _ = (resume (share text)).outcome share := by rw [own]
      _ = request.read.map (Phrase.link share) := h.outcome share before

end Follows

/-! ## Sessions -/

namespace Session

/-- Interns a text for a caller. -/
def intern (session : Session) (text : String) : InternedName × Session :=
  let (name, interner) := session.interner.intern text
  (name, { session with interner, answers := session.answers ++ [⟨text, name⟩] })

def step (session : Session) : Move → Session
  | .intern text => (session.intern text).2
  | .compile request =>
    { session with compilations := session.compilations ++ [(request, request.compilation)] }
  | .resume index =>
    match session.compilations[index]? with
    | some (request, .interns text resume) =>
      let (name, session) := session.intern text
      { session with compilations := session.compilations.set index (request, resume name) }
    | _ => session

def play (session : Session) (moves : List Move) : Session := moves.foldl step session

/-- What a compilation of a text came to is what is read from the text, with the shares that were
handed out. -/
def Fulfils (session : Session) (request : Request) : Except TemplateError InternedPhrase → Prop
  | .ok interned => ∃ phrase, request.read = .ok phrase ∧ Spells session.answers phrase interned
  | .error e => request.read = .error e

/-- What holds after every move. -/
structure Sound (session : Session) : Prop where
  consistent : session.interner.Consistent
  answered : ∀ name text,
    session.interner.text? name = some text ↔ ⟨text, name⟩ ∈ session.answers
  follows : ∀ request compilation, (request, compilation) ∈ session.compilations →
    Follows session.interner request compilation

variable {session : Session}

theorem play_cons (session : Session) (move : Move) (moves : List Move) :
    session.play (move :: moves) = (session.step move).play moves := rfl

theorem mem_answers_intern {answer : Answer} (mem : answer ∈ session.answers) (text : String) :
    answer ∈ (session.intern text).2.answers :=
  List.mem_append_left _ mem

/-- What was handed out once stays handed out. -/
theorem mem_answers_play {answer : Answer} (mem : answer ∈ session.answers) (moves : List Move) :
    answer ∈ (session.play moves).answers := by
  induction moves generalizing session with
  | nil => exact mem
  | cons move rest ih =>
    refine ih ?_
    cases move with
    | intern text => exact mem_answers_intern mem text
    | compile request => exact mem
    | resume index =>
      rw [step]
      split
      · exact mem_answers_intern mem _
      · exact mem

namespace Sound

theorem new : ({} : Session).Sound where
  consistent := .new
  answered := by simp [Interner.text?]
  follows := nofun

theorem intern (h : session.Sound) (text : String) : (session.intern text).2.Sound where
  consistent := h.consistent.intern text
  answered name other := by
    have stands := h.consistent.text?_intern text other name
    rw [h.answered] at stands
    rw [Session.intern, stands]
    simp
  follows request compilation mem :=
    (h.follows request compilation mem).intern h.consistent text

/-- No move breaks what holds of a session. -/
theorem step (h : session.Sound) (move : Move) : (session.step move).Sound := by
  cases move with
  | intern text => exact h.intern text
  | compile request =>
    refine ⟨h.consistent, h.answered, fun other compilation mem ↦ ?_⟩
    rcases List.mem_append.1 mem with mem | mem
    · exact h.follows other compilation mem
    · cases List.mem_singleton.1 mem
      exact .start session.interner request
  | resume index =>
    rw [Session.step]
    split
    · next request text resume waits =>
      have after := h.intern text
      refine ⟨after.consistent, after.answered, fun other compilation mem ↦ ?_⟩
      rcases List.mem_or_eq_of_mem_set mem with mem | same
      · exact after.follows other compilation mem
      · cases same
        exact (h.follows _ _ (List.mem_of_getElem? waits)).resume h.consistent
    · exact h

theorem play (h : session.Sound) (moves : List Move) : (session.play moves).Sound := by
  induction moves generalizing session with
  | nil => exact h
  | cons move rest ih => exact ih (h.step move)

/-! ## Shares and texts -/

theorem name_eq_iff (h : session.Sound) {first second : Answer} (mem : first ∈ session.answers)
    (other : second ∈ session.answers) : first.name = second.name ↔ first.text = second.text := by
  have left := (h.answered _ _).2 mem
  have right := (h.answered _ _).2 other
  constructor
  · intro same
    rw [same, right] at left
    exact (Option.some.inj left).symm
  · intro same
    have found := (h.consistent _ _).2 left
    rw [same, (h.consistent _ _).2 right] at found
    exact (Option.some.inj found).symm

theorem sameName_iff (h : session.Sound) {first second : Answer} (mem : first ∈ session.answers)
    (other : second ∈ session.answers) :
    session.interner.sameName first.name second.name = true ↔ first.text = second.text := by
  have left := (h.answered _ _).2 mem
  have right := (h.answered _ _).2 other
  rw [Interner.sameName, left, right, Bool.or_eq_true, beq_iff_eq, beq_iff_eq,
    h.name_eq_iff mem other, Option.some.injEq, or_self]

theorem samePiece_iff (h : session.Sound) {piece other : Piece} {interned another : InternedPiece}
    (left : Links session.answers piece interned) (right : Links session.answers other another) :
    session.interner.samePiece interned another = true ↔ piece = other := by
  cases left with
  | literal text =>
    cases right with
    | literal other => simp [Interner.samePiece]
    | placeholder mem => simp [Interner.samePiece]
  | placeholder mem =>
    cases right with
    | literal other => simp [Interner.samePiece]
    | placeholder other =>
      rw [Interner.samePiece, h.sameName_iff mem other, Piece.placeholder.injEq]

theorem isEqv_iff (h : session.Sound) {pieces others : List Piece}
    {interned another : List InternedPiece}
    (left : List.Forall₂ (Links session.answers) pieces interned)
    (right : List.Forall₂ (Links session.answers) others another) :
    interned.isEqv another session.interner.samePiece = true ↔ pieces = others := by
  induction left generalizing others another with
  | nil => cases right <;> simp
  | cons first rest ih =>
    cases right with
    | nil => simp
    | cons second others =>
      rw [List.isEqv_cons_cons, Bool.and_eq_true, h.samePiece_iff first second, ih others,
        List.cons.injEq]

theorem samePhrase_iff (h : session.Sound) {phrase other : Phrase}
    {interned another : InternedPhrase} (left : Spells session.answers phrase interned)
    (right : Spells session.answers other another) :
    session.interner.samePhrase interned another = true ↔ phrase = other := by
  rw [Interner.samePhrase, Bool.and_eq_true, Bool.and_eq_true, beq_iff_eq, beq_iff_eq,
    h.isEqv_iff left.pieces right.pieces, left.name, right.name, left.isMissing, right.isMissing]
  cases phrase <;> cases other <;> simp [Phrase.name, Phrase.pieces, Phrase.isMissing]

/-! ## What compilations came to -/

theorem eq_link (h : session.Sound) {request : Request}
    {result : Except TemplateError InternedPhrase}
    (mem : (request, .finished result) ∈ session.compilations) (other : InternedName) :
    result = request.read.map (Phrase.link (session.interner.shareOr other)) :=
  (h.follows request _ mem).outcome _ (h.consistent.assigns other)

/-- Every name of a finished compilation was interned, or else the share that it got could have been
any other one. -/
theorem mem_answers (h : session.Sound) {phrase : Phrase} {text : String}
    (fixed : ∀ other, phrase.link (session.interner.shareOr ⟨0⟩) =
      phrase.link (session.interner.shareOr other))
    (mem : .placeholder text ∈ phrase.pieces) :
    ⟨text, session.interner.shareOr ⟨0⟩ text⟩ ∈ session.answers := by
  have pieces := congrArg InternedPhrase.pieces (fixed ⟨1⟩)
  have same := List.map_inj_left.1 pieces _ mem
  rw [Piece.link, Piece.link, InternedPiece.placeholder.injEq, Interner.shareOr,
    Interner.shareOr] at same
  rw [← h.answered, ← h.consistent, Interner.shareOr]
  cases found : session.interner.known[text]? with
  | some name => rfl
  | none =>
    rw [found] at same
    cases same

theorem fulfils (h : session.Sound) {request : Request}
    {result : Except TemplateError InternedPhrase}
    (mem : (request, .finished result) ∈ session.compilations) :
    session.Fulfils request result := by
  have own := h.eq_link mem
  cases read : request.read with
  | error e =>
    rw [read] at own
    cases own ⟨0⟩
    exact read
  | ok phrase =>
    rw [read] at own
    cases own ⟨0⟩
    refine ⟨phrase, read, rfl, ?_, rfl⟩
    rw [Phrase.link, List.forall₂_map_right_iff, List.forall₂_same]
    intro piece there
    cases piece with
    | literal text => exact .literal text
    | placeholder text =>
      exact .placeholder (h.mem_answers (fun other ↦ Except.ok.inj (own other)) there)

/-- What finished compilations came to depends on what is read from their texts, and on nothing
else. -/
theorem result_eq (h : session.Sound) {request other : Request}
    {result another : Except TemplateError InternedPhrase}
    (mem : (request, .finished result) ∈ session.compilations)
    (there : (other, .finished another) ∈ session.compilations) (same : request.read = other.read) :
    result = another :=
  calc
    result = request.read.map (Phrase.link (session.interner.shareOr ⟨0⟩)) := h.eq_link mem ⟨0⟩
    _ = other.read.map (Phrase.link (session.interner.shareOr ⟨0⟩)) := by rw [same]
    _ = another := (h.eq_link there ⟨0⟩).symm

end Sound

/-! ## Compilations come to their end -/

variable {index : ℕ} {request : Request} {compilation : Compilation}

theorem step_finished {result : Except TemplateError InternedPhrase}
    (h : session.compilations[index]? = some (request, .finished result)) :
    session.step (.resume index) = session := by
  rw [step, h]

theorem step_interns {text : String} {resume : InternedName → Compilation}
    (h : session.compilations[index]? = some (request, .interns text resume)) :
    (session.step (.resume index)).interner = (session.interner.intern text).2 ∧
      (session.step (.resume index)).compilations[index]? =
        some (request, resume (session.interner.intern text).1) := by
  obtain ⟨below, -⟩ := List.getElem?_eq_some_iff.1 h
  rw [step, h]
  exact ⟨rfl, List.getElem?_set_self below⟩

/-- A compilation goes on only when it is resumed. -/
theorem step_of_ne (h : session.compilations[index]? = some (request, compilation)) {move : Move}
    (apart : move ≠ .resume index) :
    (session.step move).compilations[index]? = some (request, compilation) := by
  cases move with
  | intern text => exact h
  | compile other =>
    obtain ⟨below, -⟩ := List.getElem?_eq_some_iff.1 h
    rw [step, List.getElem?_append_left below, h]
  | resume other =>
    rw [step]
    split
    · rw [List.getElem?_set_ne fun same ↦ apart (congrArg Move.resume same)]
      exact h
    · exact h

/-- A compilation that goes on often enough comes to its end, whatever else happens. -/
theorem play_finishes {n : ℕ} {moves : List Move}
    (h : session.compilations[index]? = some (request, compilation))
    (within : compilation.Within n) (often : n ≤ moves.count (.resume index)) :
    ∃ result, (session.play moves).compilations[index]? = some (request, .finished result) := by
  induction moves generalizing session compilation n with
  | nil =>
    cases Nat.le_zero.1 often
    obtain ⟨result, rfl⟩ := within.eq_finished
    exact ⟨result, h⟩
  | cons move rest ih =>
    by_cases own : move = .resume index
    · subst own
      rw [List.count_cons_self] at often
      cases compilation with
      | finished result =>
        rw [← step_finished h] at h
        exact ih h (.finished result) (Nat.zero_le _)
      | interns text resume =>
        obtain ⟨k, rfl, shorter⟩ := within.rest
        exact ih (step_interns h).2 (shorter _) (Nat.le_of_succ_le_succ often)
    · rw [List.count_cons_of_ne own] at often
      exact ih (step_of_ne h own) within often

/-- A compilation that nobody interferes with. -/
theorem play_resumes {n : ℕ} (h : session.compilations[index]? = some (request, compilation))
    (within : compilation.Within n) :
    let ran := compilation.run session.interner
    let after := session.play (List.replicate n (.resume index))
    after.interner = ran.2 ∧ after.compilations[index]? = some (request, .finished ran.1) := by
  induction n generalizing session compilation with
  | zero =>
    obtain ⟨result, rfl⟩ := within.eq_finished
    exact ⟨rfl, h⟩
  | succ n ih =>
    rw [List.replicate_succ, play_cons]
    cases compilation with
    | finished result =>
      rw [step_finished h]
      exact ih h (.finished result)
    | interns text resume =>
      obtain ⟨k, same, shorter⟩ := within.rest
      cases same
      obtain ⟨interner, there⟩ := step_interns h
      have rest := ih there (shorter _)
      rw [interner] at rest
      exact rest

/-- A compilation without interruption is a sequence of moves as well. -/
theorem play_compile (session : Session) (request : Request) :
    let compiled := session.interner.compile request.reading request.name request.text
    let index := session.compilations.length
    let after := session.play
      (.compile request :: List.replicate request.text.length (.resume index))
    after.interner = compiled.2 ∧
      after.compilations[index]? = some (request, .finished compiled.1) := by
  have begun : (session.step (.compile request)).compilations[session.compilations.length]? =
      some (request, request.compilation) := List.getElem?_concat_length
  exact play_resumes begun (Compilation.within_ofText request.reading request.name request.text)

end Session

open Session

/-- Whatever is interned, directly or by any number of compilations at the same time: two shares
that were handed out are in one allocation exactly if their texts are equal, and compare equal
exactly then; and a text stays in memory where it was put. What a compilation comes to is what is
read from its text, with the shares that were handed out for the names. Phrases compare equal
exactly if the same was read, and then have the same shares: in particular two compilations of one
text under one name, whatever is interned before, between and after. Every compilation comes to its
end, at the latest when it was resumed as often as its text has characters. -/
theorem interned_names_are_canonical (moves : List Move) :
    let session := ({} : Session).play moves
    (∀ first ∈ session.answers, ∀ second ∈ session.answers,
      (first.name.allocation = second.name.allocation ↔ first.text = second.text) ∧
      (session.interner.sameName first.name second.name ↔ first.text = second.text)) ∧
    (∀ answer ∈ session.answers, ∀ later,
      (session.play later).interner.text? answer.name = some answer.text) ∧
    (∀ request result, (request, .finished result) ∈ session.compilations →
      session.Fulfils request result) ∧
    (∀ request interned other another,
      (request, .finished (.ok interned)) ∈ session.compilations →
      (other, .finished (.ok another)) ∈ session.compilations →
        (session.interner.samePhrase interned another ↔ request.read = other.read) ∧
        (request.read = other.read → interned.names = another.names)) ∧
    (∀ index request compilation, session.compilations[index]? = some (request, compilation) →
      ∀ later, request.text.length ≤ later.count (.resume index) → ∃ result,
        (session.play later).compilations[index]? = some (request, .finished result)) ∧
    ∀ request,
      let compiled := session.interner.compile request.reading request.name request.text
      let index := session.compilations.length
      let after := session.play
        (.compile request :: List.replicate request.text.length (.resume index))
      after.interner = compiled.2 ∧
        after.compilations[index]? = some (request, .finished compiled.1) := by
  intro session
  have sound : session.Sound := Sound.new.play moves
  refine ⟨fun first mem second other ↦ ⟨?_, sound.sameName_iff mem other⟩,
    fun answer mem later ↦ ?_, fun request result mem ↦ sound.fulfils mem,
    fun request interned other another mem there ↦ ⟨?_, fun same ↦ ?_⟩,
    fun index request compilation there later often ↦
      play_finishes there (sound.follows _ _ (List.mem_of_getElem? there)).within often,
    session.play_compile⟩
  · rw [← sound.name_eq_iff mem other, InternedName.ext_iff]
  · exact ((sound.play later).answered _ _).2 (mem_answers_play mem later)
  · obtain ⟨phrase, read, spells⟩ := sound.fulfils mem
    obtain ⟨second, reads, spelled⟩ := sound.fulfils there
    rw [sound.samePhrase_iff spells spelled, read, reads, Except.ok.injEq]
  · cases sound.result_eq mem there same
    rfl

/-- Two compilations at the same time and a call in between. The one that is refused in the end has
interned a name as well, and both have the same share in it. -/
theorem interned_names_are_canonical_race :
    let menu : Request := ⟨.template, "menu", "{name}, {cook}"⟩
    let broken : Request := ⟨.template, "menu", "{name} \x7d"⟩
    let session := ({} : Session).play [.compile broken, .compile menu, .resume 1, .intern "cook",
      .resume 0, .resume 1]
    let interned : InternedPhrase :=
      { name := "menu", pieces := [.placeholder ⟨0⟩, .literal ", ", .placeholder ⟨1⟩] }
    session.answers = [⟨"name", ⟨0⟩⟩, ⟨"cook", ⟨1⟩⟩, ⟨"name", ⟨0⟩⟩, ⟨"cook", ⟨1⟩⟩] ∧
      (broken, .finished (.error ⟨"menu", 7, .unmatchedClose⟩)) ∈ session.compilations ∧
      (menu, .finished (.ok interned)) ∈ session.compilations ∧
      session.Fulfils menu (.ok interned) ∧
      session.interner.samePhrase interned interned = true ∧
      session.interner.sameName ⟨0⟩ ⟨1⟩ = false ∧
      ∀ later, (session.play later).interner.text? ⟨1⟩ = some "cook" := by
  obtain ⟨shares, lasting, fulfilled, compared, -⟩ := interned_names_are_canonical
    [.compile ⟨.template, "menu", "{name} \x7d"⟩, .compile ⟨.template, "menu", "{name}, {cook}"⟩,
      .resume 1, .intern "cook", .resume 0, .resume 1]
  refine ⟨rfl, List.mem_cons_self, List.mem_cons_of_mem _ List.mem_cons_self, ?_, ?_, ?_, ?_⟩
  · exact fulfilled _ _ (List.mem_cons_of_mem _ List.mem_cons_self)
  · have same := compared _ _ _ _ (List.mem_cons_of_mem _ List.mem_cons_self)
      (List.mem_cons_of_mem _ List.mem_cons_self)
    exact same.1.2 rfl
  · refine Bool.eq_false_iff.2 fun same ↦ ?_
    have apart := shares ⟨"name", ⟨0⟩⟩ List.mem_cons_self ⟨"cook", ⟨1⟩⟩
      (List.mem_cons_of_mem _ List.mem_cons_self)
    exact absurd (apart.2.1 same) (by decide)
  · exact lasting ⟨"cook", ⟨1⟩⟩ (List.mem_cons_of_mem _ List.mem_cons_self)

end Interning

end Phrasebook
