import Phrasebook.Proofs.Output.Wording
import Phrasebook.Proofs.Template.Placeholders

/-!
# Phrases with texts for their placeholders

Rendered with texts for its placeholders, a phrase adds its literals and those texts in the order of its
pieces, each as it is. The first placeholder without a text ends the rendering there, and what was added
before stays. A phrase that stands in for a key adds its marker.
-/

namespace Phrasebook

variable {σ : Type}

namespace Bindings

def text? (bindings : Bindings) : Piece → Option String
  | .literal text => some text
  | .placeholder name => bindings.get? name

/-- Whether all names among the pieces are bound. -/
def Covers (bindings : Bindings) (pieces : List Piece) : Prop :=
  ∀ name, .placeholder name ∈ pieces → (bindings.get? name).isSome = true

/-- What a placeholder comes to. -/
def wording (bindings : Bindings) (name : String) (world : σ) : Wording σ Unit :=
  match bindings.get? name with
  | some text => ⟨.ok (), text, world⟩
  | none => ⟨.error (.render (.unknownPlaceholder bindings.key name)), "", world⟩

theorem resolve_writes (bindings : Bindings) (name : String) :
    Compose.Writes (bindings.resolve name : Compose σ Unit) fun _ ↦ bindings.wording name := by
  rw [resolve]
  unfold wording
  cases bindings.get? name with
  | some text => exact .passage (.whole text)
  | none => exact .fail _

variable {bindings : Bindings} {pieces rest : List Piece} {name : String}

/-- The names among pieces are bound, or there is a first one that is not. -/
theorem covers_or_first_unbound (bindings : Bindings) (pieces : List Piece) :
    bindings.Covers pieces ∨
      ∃ first name rest, pieces = first ++ .placeholder name :: rest ∧ bindings.Covers first ∧
        bindings.get? name = none := by
  induction pieces with
  | nil => exact .inl nofun
  | cons piece pieces ih =>
    by_cases bound : bindings.Covers [piece]
    · have onto {others : List Piece} (covers : bindings.Covers others) :
          bindings.Covers (piece :: others) := fun name mem ↦
        (List.mem_cons.1 mem).elim (fun own ↦ bound name (List.mem_singleton.2 own)) (covers name)
      rcases ih with covers | ⟨first, name, rest, rfl, covers, unbound⟩
      · exact .inl (onto covers)
      · exact .inr ⟨piece :: first, name, rest, rfl, onto covers, unbound⟩
    · cases piece with
      | literal text => exact absurd (fun name mem ↦ nomatch List.mem_singleton.1 mem) bound
      | placeholder name =>
        refine .inr ⟨[], name, pieces, rfl, nofun, ?_⟩
        by_contra some_text
        refine bound fun other mem ↦ ?_
        cases List.mem_singleton.1 mem
        exact Option.isSome_iff_ne_none.2 some_text

/-- Pieces whose names are bound come to their texts, and what stands behind them follows. -/
theorem wordPieces_append (covers : bindings.Covers pieces) (rest : List Piece) (world : σ) :
    wordPieces bindings.wording (pieces ++ rest) world =
      { wordPieces bindings.wording rest world with
        text := String.join (pieces.filterMap bindings.text?) ++
          (wordPieces bindings.wording rest world).text } := by
  induction pieces with
  | nil => rw [List.nil_append, List.filterMap_nil, String.join_nil, String.empty_append]
  | cons piece pieces ih =>
    have ih := ih fun name mem ↦ covers name (List.mem_cons_of_mem _ mem)
    have own : ∃ text, bindings.text? piece = some text ∧
        wordPieces bindings.wording (piece :: pieces ++ rest) world =
          Wording.andThen ⟨.ok (), text, world⟩ fun () ↦
            wordPieces bindings.wording (pieces ++ rest) := by
      cases piece with
      | literal text => exact ⟨text, rfl, rfl⟩
      | placeholder name =>
        obtain ⟨text, bound⟩ := Option.isSome_iff_exists.1 (covers name List.mem_cons_self)
        refine ⟨text, bound, ?_⟩
        rw [List.cons_append, wordPieces, wording, bound]
    obtain ⟨text, bound, same⟩ := own
    rw [same, Wording.andThen_of_ok rfl, ih, List.filterMap_cons_some bound, String.join_cons]
    simp only [String.append_assoc]

theorem wordPieces_of_covers (covers : bindings.Covers pieces) (world : σ) :
    wordPieces bindings.wording pieces world =
      ⟨.ok (), String.join (pieces.filterMap bindings.text?), world⟩ := by
  have words := wordPieces_append covers [] world
  rw [List.append_nil] at words
  rw [words, wordPieces, String.append_empty]

theorem wordPieces_of_unbound (covers : bindings.Covers pieces) (unbound : bindings.get? name = none)
    (rest : List Piece) (world : σ) :
    wordPieces bindings.wording (pieces ++ .placeholder name :: rest) world =
      ⟨.error (.render (.unknownPlaceholder bindings.key name)),
        String.join (pieces.filterMap bindings.text?), world⟩ := by
  have stops : bindings.wording name world =
      ⟨.error (.render (.unknownPlaceholder bindings.key name)), "", world⟩ := by
    rw [wording, unbound]
  rw [wordPieces_append covers, wordPieces, stops, Wording.andThen_of_error rfl, String.append_empty]

end Bindings

/-- What comes of rendering a phrase with texts for its placeholders into an output. -/
structure Phrase.Interpreted (phrase : Phrase) (bindings : Bindings) (before : Desk σ)
    (after : Except Failure Unit × Desk σ) : Prop where
  missing : phrase.isMissing = true → after.1 = .ok () ∧
    after.2.output.text = before.output.text ++ ("<MISSING: " ++ phrase.name ++ ">")
  succeeds : phrase.isMissing = false →
    (after.1 = .ok () ↔ ∀ name ∈ phrase.placeholders, (bindings.get? name).isSome = true)
  /-- All texts are there, in the order of the pieces. -/
  complete : phrase.isMissing = false → after.1 = .ok () →
    after.2.output.text = before.output.text ++ String.join (phrase.pieces.filterMap bindings.text?)
  /-- The texts before the first name that is not bound are there, and the failure tells that name. -/
  stops : after.1 ≠ .ok () → ∃ first name rest,
    phrase.pieces = first ++ .placeholder name :: rest ∧ bindings.Covers first ∧
    bindings.get? name = none ∧
    after.1 = .error (.render (.unknownPlaceholder bindings.key name)) ∧
    after.2.output.text = before.output.text ++ String.join (first.filterMap bindings.text?)
  world : after.2.world = before.world
  format : after.2.output.format = before.output.format
  unsealed : after.2.output.isSealed = false

namespace Phrase

variable {bindings : Bindings} {desk : Desk σ} {name : String} {pieces : List Piece}
  {after : Except Failure Unit × Desk σ}

theorem interpreted_of_missing
    (comesTo : Compose.ComesTo desk ((missing name).wording bindings.wording desk.world) after) :
    (missing name).Interpreted bindings desk after where
  missing _ := ⟨comesTo.result, comesTo.text⟩
  succeeds present := absurd present.symm Bool.false_ne_true
  complete present := absurd present.symm Bool.false_ne_true
  stops failed := absurd comesTo.result failed
  world := comesTo.world
  format := comesTo.format
  unsealed := comesTo.unsealed

theorem interpreted_of_covers (covers : bindings.Covers pieces)
    (comesTo : Compose.ComesTo desk ((defined name pieces).wording bindings.wording desk.world) after) :
    (defined name pieces).Interpreted bindings desk after := by
  rw [wording, Bindings.wordPieces_of_covers covers] at comesTo
  exact {
    missing := fun absent ↦ absurd absent Bool.false_ne_true
    succeeds := fun _ ↦ iff_of_true comesTo.result fun id mem ↦ covers id (mem_placeholders.1 mem)
    complete := fun _ _ ↦ comesTo.text
    stops := fun failed ↦ absurd comesTo.result failed
    world := comesTo.world
    format := comesTo.format
    unsealed := comesTo.unsealed }

/-- The first unbound name ends the rendering, behind the text of what stands before it. -/
theorem interpreted_of_unbound {id : String} {rest : List Piece} (covers : bindings.Covers pieces)
    (unbound : bindings.get? id = none)
    (comesTo : Compose.ComesTo desk
      ((defined name (pieces ++ .placeholder id :: rest)).wording bindings.wording desk.world) after) :
    (defined name (pieces ++ .placeholder id :: rest)).Interpreted bindings desk after := by
  rw [wording, Bindings.wordPieces_of_unbound covers unbound] at comesTo
  have failed : after.1 ≠ .ok () := by
    intro ok
    cases comesTo.result.symm.trans ok
  have named : id ∈ (defined name (pieces ++ .placeholder id :: rest)).placeholders :=
    mem_placeholders.2 (List.mem_append_right _ List.mem_cons_self)
  have unmet : ¬ ∀ name ∈ (defined name (pieces ++ .placeholder id :: rest)).placeholders,
      (bindings.get? name).isSome = true := by
    intro bound
    have some_text := bound id named
    rw [unbound] at some_text
    cases some_text
  exact {
    missing := fun absent ↦ absurd absent Bool.false_ne_true
    succeeds := fun _ ↦ iff_of_false failed unmet
    complete := fun _ ok ↦ absurd ok failed
    stops := fun _ ↦
      ⟨pieces, id, rest, rfl, covers, unbound, comesTo.result, comesTo.text⟩
    world := comesTo.world
    format := comesTo.format
    unsealed := comesTo.unsealed }

end Phrase

/-- A phrase is interpreted piece by piece in front of every output that is not sealed. The names that
have to be bound are listed once each, in the order of their first use, and rendering a phrase alone is
rendering it into an empty output. -/
theorem phrases_interpreted_piece_by_piece (phrase : Phrase) (bindings : Bindings) {desk : Desk σ}
    {others : Multiset Buffer} (unsealed : desk.output.isSealed = false)
    (circulates : Circulates desk.pool (desk.output.held + others)) :
    phrase.Interpreted bindings desk (phrase.render bindings.resolve desk) ∧
    (phrase.placeholders.Nodup ∧
      (∀ name, name ∈ phrase.placeholders ↔ .placeholder name ∈ phrase.pieces) ∧
      phrase.placeholders.Pairwise fun first second ↦
        phrase.pieces.idxOf (.placeholder first) < phrase.pieces.idxOf (.placeholder second)) ∧
    ∀ pool, (phrase.renderAlone bindings.resolve pool).1 =
      (phrase.render bindings.resolve { output := {}, pool := pool, world := () }).1.map fun () ↦
        (phrase.render bindings.resolve
          { output := {}, pool := pool, world := () }).2.output.text := by
  refine ⟨?_, ⟨?_, fun name ↦ Phrase.mem_placeholders, phrase.pairwise_placeholders⟩,
    phrase.renderAlone_fst bindings.resolve⟩
  · have comesTo := (phrase.render_writes bindings.resolve_writes).comesTo unsealed circulates
    cases phrase with
    | missing name => exact Phrase.interpreted_of_missing comesTo
    | defined name pieces =>
      rcases bindings.covers_or_first_unbound pieces with
        covers | ⟨first, id, rest, rfl, covers, unbound⟩
      · exact Phrase.interpreted_of_covers covers comesTo
      · exact Phrase.interpreted_of_unbound covers unbound comesTo
  · refine phrase.pairwise_placeholders.imp ?_
    rintro name _ before rfl
    exact Nat.lt_irrefl _ before

/-- A text with braces is added twice as it is, and the price that nobody knows ends the rendering. -/
theorem phrases_interpreted_piece_by_piece_menu :
    let phrase : Phrase := .defined "menu" [.placeholder "dish", .literal ", ", .placeholder "dish",
      .literal " for ", .placeholder "price", .literal "."]
    let bindings := ({ key := "card" } : Bindings).insert "dish" "\x7bsoup\x7d"
    let desk : Desk Unit := { output := { body := .whole "Today: " }, pool := {}, world := () }
    let after := phrase.render bindings.resolve desk
    desk.output.isSealed = false ∧ Circulates desk.pool (desk.output.held + 0) ∧
      phrase.Interpreted bindings desk after ∧ phrase.placeholders = ["dish", "price"] ∧
      after.1 = .error (.render (.unknownPlaceholder "card" "price")) ∧
      after.2.output.text = "Today: \x7bsoup\x7d, \x7bsoup\x7d for " := by
  intro phrase bindings desk after
  have circulates : Circulates desk.pool (desk.output.held + 0) := .start
  have interpreted := (phrases_interpreted_piece_by_piece phrase bindings rfl circulates).1
  exact ⟨rfl, circulates, interpreted, rfl, by decide +kernel, by decide +kernel⟩

end Phrasebook
