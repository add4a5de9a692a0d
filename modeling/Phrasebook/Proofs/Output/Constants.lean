import Phrasebook.Output.Bindings
import Phrasebook.Proofs.Output.Steps
import Phrasebook.Proofs.Template.Placeholders

/-!
# Constant phrases

Whether a phrase is constant is read off the number of its pieces and the first of them. That is enough
because no two literals stand side by side in the phrases that are made: one without placeholders is the
stand-in for a key, or it is empty, or it is one literal. These have their text before anything is
rendered, and rendering comes to the same text without asking for anything.
-/

namespace Phrasebook

/-- The ways in which phrases are made: by reading a text, by taking it as it is, and to stand in for a
key that was looked up in vain. -/
inductive Phrase.Made : Phrase → Prop
  | read {reading : Reading} {name text : String} {phrase : Phrase}
      (h : Phrase.read reading name text = .ok phrase) : Made phrase
  | raw (name text : String) : Made (.raw name text)
  | missing (name : String) : Made (.missing name)

theorem Phrase.Made.merged {phrase : Phrase} (made : phrase.Made) : Merged phrase.pieces := by
  cases made with
  | read h =>
    obtain ⟨tokens, -, rfl⟩ := read_eq_ok_iff_scan.1 h
    exact merged_joinTokens [] tokens
  | raw name text =>
    rw [Phrase.raw, Phrase.pieces]
    split
    · exact .nil
    · next some_text => exact .singleton fun empty ↦ some_text (String.isEmpty_iff.2 empty)
  | missing name => exact .nil

/-! ## Phrases without placeholders -/

/-- A phrase that has no placeholder, and its text. -/
inductive Phrase.Constant : Phrase → String → Prop
  | missing (name : String) : Constant (.missing name) (Phrase.missing name).missingText
  | empty (name : String) : Constant (.defined name []) ""
  | literal (name text : String) : Constant (.defined name [.literal text]) text

namespace Phrase

variable {phrase : Phrase} {text : String}

theorem isConstant_iff : phrase.isConstant = true ↔ ∃ text, phrase.Constant text := by
  constructor
  · intro constant
    obtain ⟨name, pieces⟩ | name := phrase
    · rw [isConstant, Phrase.pieces] at constant
      split at constant
      · exact ⟨_, .empty name⟩
      · exact ⟨_, .literal name _⟩
      · cases constant
    · exact ⟨_, .missing name⟩
  · rintro ⟨_, _ | _ | _⟩ <;> rfl

/-- A text is given for constant phrases only, and it is theirs. -/
theorem constantText_eq_ok_iff : phrase.constantText = .ok text ↔ phrase.Constant text := by
  constructor
  · intro h
    rw [constantText] at h
    split at h
    · next found =>
      cases h
      rw [constantText?.eq_def] at found
      split at found
      · cases found
        exact .missing _
      · cases found
        exact .empty _
      · cases found
        exact .literal _ _
      · cases found
    · cases h
  · rintro (_ | _ | _) <;> rfl

theorem constantText_of_not_isConstant (h : phrase.isConstant = false) :
    phrase.constantText = .error (.notALiteral phrase.name) := by
  rw [constantText]
  split
  · next text found =>
    have constant : phrase.Constant text := by
      rw [← constantText_eq_ok_iff, constantText, found]
    rw [isConstant_iff.2 ⟨text, constant⟩] at h
    cases h
  · rfl

/-- Literals that could be made one would hide that a phrase has no placeholder. -/
theorem isConstant_iff_of_merged (merged : Merged phrase.pieces) :
    phrase.isConstant = true ↔ ∀ name, .placeholder name ∉ phrase.pieces := by
  rw [isConstant_iff]
  constructor
  · rintro ⟨_, _ | _ | _⟩ name <;> simp [pieces]
  · intro none_there
    obtain ⟨name, _ | ⟨first, _ | ⟨second, rest⟩⟩⟩ | name := phrase
    · exact ⟨_, .empty name⟩
    · cases first with
      | literal text => exact ⟨_, .literal name text⟩
      | placeholder id => exact absurd List.mem_cons_self (none_there id)
    · cases first with
      | placeholder id => exact absurd List.mem_cons_self (none_there id)
      | literal text =>
        cases second with
        | placeholder id =>
          exact absurd (List.mem_cons_of_mem _ List.mem_cons_self) (none_there id)
        | literal other => exact absurd ⟨rfl, rfl⟩ (List.isChain_cons_cons.1 merged.apart).1
    · exact ⟨_, .missing name⟩

theorem placeholders_eq_nil_iff :
    phrase.placeholders = [] ↔ ∀ name, .placeholder name ∉ phrase.pieces := by
  simp only [List.eq_nil_iff_forall_not_mem, mem_placeholders]

end Phrase

/-! ## Rendering them -/

/-- A resolver that has no value for any placeholder. -/
def Resolver.KnowsNothing {σ : Type} (resolve : Resolver σ) : Prop :=
  ∀ name desk, ∃ e after, resolve name desk = (.error e, after)

theorem Bindings.knowsNothing {bindings : Bindings} (unbound : ∀ name, bindings.get? name = none)
    (σ : Type) : (bindings.resolve : Resolver σ).KnowsNothing := by
  intro name desk
  rw [resolve, unbound]
  exact ⟨_, _, rfl⟩

section

variable {σ : Type} {phrase : Phrase} {text : String}

theorem Output.appendWhole_of_unsealed {output : Output} (unsealed : output.isSealed = false)
    (s : String) (pool : BufferPool) : ∃ after, appendWhole s (output, pool) = .ok after := by
  obtain ⟨body, format⟩ := output
  cases body with
  | sealed => cases unsealed
  | empty | whole | buffered => exact ⟨_, rfl⟩

/-- A constant phrase is rendered in one step, or none, that has nothing to do with the resolver. -/
theorem Phrase.Constant.render_congr (constant : phrase.Constant text)
    (first second : Resolver σ) : phrase.render first = phrase.render second := by
  cases constant <;> rfl

theorem Phrase.Constant.render_of_unsealed (constant : phrase.Constant text)
    (resolve : Resolver σ) {desk : Desk σ} (unsealed : desk.output.isSealed = false) :
    ∃ after, phrase.render resolve desk = (.ok (), after) := by
  cases constant with
  | missing name =>
    obtain ⟨after, appended⟩ := Output.appendWhole_of_unsealed unsealed
      (Phrase.missing name).missingText desk.pool
    exact ⟨_, Compose.append_of_ok appended⟩
  | empty name => exact ⟨desk, rfl⟩
  | literal name text =>
    obtain ⟨after, appended⟩ := Output.appendWhole_of_unsealed unsealed text desk.pool
    exact ⟨_, Compose.bind_of_ok (Compose.append_of_ok appended) _⟩

theorem Phrase.Constant.renderAlone_eq (constant : phrase.Constant text)
    (resolve : Resolver Unit) (pool : BufferPool) :
    phrase.renderAlone resolve pool = (.ok text, pool) := by
  cases constant <;> rfl

/-- The first placeholder ends a rendering that has no values for any. -/
theorem renderPieces_of_knowsNothing {resolve : Resolver σ} (unknown : resolve.KnowsNothing)
    {pieces : List Piece} {name : String} (mem : .placeholder name ∈ pieces) (desk : Desk σ) :
    ∃ e after, renderPieces resolve pieces desk = (.error e, after) := by
  induction pieces generalizing desk with
  | nil => cases mem
  | cons piece rest ih =>
    cases piece with
    | placeholder first =>
      obtain ⟨e, after, failed⟩ := unknown first desk
      exact ⟨e, after, Compose.bind_of_error failed _⟩
    | literal text =>
      have later : .placeholder name ∈ rest := by simpa using mem
      cases appended : Output.appendWhole text (desk.output, desk.pool) with
      | error e => exact ⟨_, _, Compose.bind_of_error (Compose.append_of_error appended) _⟩
      | ok pooled =>
        obtain ⟨e, after, failed⟩ := ih later ⟨pooled.1, pooled.2, desk.world⟩
        exact ⟨e, after, (Compose.bind_of_ok (Compose.append_of_ok appended) _).trans failed⟩

/-- A phrase with a placeholder cannot be rendered without values. -/
theorem Phrase.render_of_knowsNothing {resolve : Resolver σ} (unknown : resolve.KnowsNothing)
    {name : String} (mem : .placeholder name ∈ phrase.pieces) (desk : Desk σ) :
    ∃ e after, phrase.render resolve desk = (.error e, after) := by
  cases phrase with
  | missing key => cases mem
  | defined key pieces => exact renderPieces_of_knowsNothing unknown mem desk

end

/-! ## Texts without anything to read into them -/

theorem spelled_map_plain {text : List Char} (backslash : '\\' ∉ text) (opening : '{' ∉ text)
    (closing : '}' ∉ text) (reading : Reading) : Spelled reading (text.map .plain) text := by
  induction text with
  | nil => exact .nil
  | cons c rest ih =>
    have grammar : (Token.plain c).InGrammar reading :=
      .plain (List.ne_of_not_mem_cons backslash).symm (List.ne_of_not_mem_cons opening).symm
        (List.ne_of_not_mem_cons closing).symm
    exact .cons grammar nofun (ih (List.not_mem_of_not_mem_cons backslash)
      (List.not_mem_of_not_mem_cons opening) (List.not_mem_of_not_mem_cons closing))

theorem joinTokens_map_plain (run text : List Char) :
    joinTokens run (text.map .plain) = Piece.literalOnto (run.reverse ++ text) [] := by
  induction text generalizing run with
  | nil => rw [List.map_nil, joinTokens, List.append_nil]
  | cons c rest ih =>
    rw [List.map_cons, joinTokens, ih, List.reverse_cons, List.append_assoc, List.singleton_append]

/-- A text without backslashes and braces is read as it is. -/
theorem read_eq_raw {text : String} (backslash : '\\' ∉ text.toList) (opening : '{' ∉ text.toList)
    (closing : '}' ∉ text.toList) (reading : Reading) (name : String) :
    Phrase.read reading name text = .ok (.raw name text) := by
  have spelled := spelled_map_plain backslash opening closing reading
  refine read_eq_ok_iff_scan.2 ⟨_, scanText_eq_ok_of_spelled spelled 0, ?_⟩
  rw [joinTokens_map_plain, List.reverse_nil, List.nil_append, Piece.literalOnto,
    String.ofList_toList, Phrase.raw]
  simp only [List.isEmpty_iff, String.toList_eq_nil_iff, String.isEmpty_iff]

theorem Phrase.constant_raw (name text : String) : (Phrase.raw name text).Constant text := by
  rw [raw]
  split
  · next empty =>
    rw [String.isEmpty_iff.1 empty]
    exact .empty name
  · exact .literal name text

/-! ## The short cut -/

/-- What makes it safe to take the text of a constant phrase without rendering it. -/
structure Phrase.ShortCut (phrase : Phrase) : Prop where
  placeholders : phrase.isConstant = true ↔ phrase.placeholders = []
  constantText : phrase.isConstant = true ↔ ∃ text, phrase.constantText = .ok text
  /-- The constant phrases are those that can be rendered without a value for any placeholder. -/
  renders : ∀ ⦃σ : Type⦄ (resolve : Resolver σ) (desk : Desk σ), desk.output.isSealed = false →
    resolve.KnowsNothing → (phrase.isConstant = true ↔ (phrase.render resolve desk).1 = .ok ())
  alone : ∀ text, phrase.constantText = .ok text → ∀ resolve pool,
    (phrase.renderAlone resolve pool).1 = .ok text
  /-- Whatever a resolver would do, it is not asked. -/
  unasked : phrase.isConstant = true →
    ∀ ⦃σ : Type⦄ (first second : Resolver σ), phrase.render first = phrase.render second
  refused : phrase.isConstant = false →
    phrase.constantText = .error (.notALiteral phrase.name)

/-- The text of a constant phrase is what every rendering of it comes to, for all phrases that are made;
and a text without backslashes and braces makes the same constant phrase in every way. -/
theorem constant_phrases_take_short_cut :
    (∀ phrase : Phrase, phrase.Made → phrase.ShortCut) ∧
    ∀ name text : String, '\\' ∉ text.toList → '{' ∉ text.toList → '}' ∉ text.toList →
      Phrase.read .template name text = .ok (.raw name text) ∧
      Phrase.read .escapesOnly name text = .ok (.raw name text) ∧
      (Phrase.raw name text).constantText = .ok text := by
  refine ⟨fun phrase made ↦ ?_, fun name text backslash opening closing ↦ ⟨?_, ?_, ?_⟩⟩
  · have constant := Phrase.isConstant_iff_of_merged made.merged
    refine ⟨constant.trans Phrase.placeholders_eq_nil_iff.symm, ?_, ?_, ?_, ?_,
      Phrase.constantText_of_not_isConstant⟩
    · simp only [Phrase.isConstant_iff, Phrase.constantText_eq_ok_iff]
    · intro σ resolve desk unsealed unknown
      constructor
      · intro h
        obtain ⟨text, h⟩ := Phrase.isConstant_iff.1 h
        obtain ⟨after, rendered⟩ := h.render_of_unsealed resolve unsealed
        rw [rendered]
      · intro rendered
        refine constant.2 fun name mem ↦ ?_
        obtain ⟨e, after, failed⟩ := Phrase.render_of_knowsNothing unknown mem desk
        rw [failed] at rendered
        cases rendered
    · intro text h resolve pool
      rw [(Phrase.constantText_eq_ok_iff.1 h).renderAlone_eq]
    · intro h σ first second
      obtain ⟨text, h⟩ := Phrase.isConstant_iff.1 h
      exact h.render_congr first second
  · exact read_eq_raw backslash opening closing .template name
  · exact read_eq_raw backslash opening closing .escapesOnly name
  · exact Phrase.constantText_eq_ok_iff.2 (Phrase.constant_raw name text)

/-- A text with an escape is constant, one with a placeholder is not, and one with neither is read as it
is. -/
theorem constant_phrases_take_short_cut_menu :
    let soup := Phrase.defined "soup" [.literal "Soup & bread"]
    let dish := Phrase.defined "dish" [.literal "Soup with ", .placeholder "side"]
    let nothing : Bindings := { key := "dish" }
    let desk : Desk Unit := { output := {}, pool := {}, world := () }
    soup.Made ∧ dish.Made ∧ (nothing.resolve : Resolver Unit).KnowsNothing ∧
      (∀ resolve pool, (soup.renderAlone resolve pool).1 = .ok "Soup & bread") ∧
      (dish.render nothing.resolve desk).1 ≠ .ok () ∧
      dish.constantText = .error (.notALiteral "dish") ∧
      Phrase.read .template "bread" "Bread" = .ok (.raw "bread" "Bread") := by
  have hsoup : Phrase.read .template "soup" "Soup \\u0026 bread" =
      .ok (.defined "soup" [.literal "Soup & bread"]) := rfl
  have hdish : Phrase.read .template "dish" "Soup with \x7bside\x7d" =
      .ok (.defined "dish" [.literal "Soup with ", .placeholder "side"]) := rfl
  intro soup dish nothing desk
  have unknown : (nothing.resolve : Resolver Unit).KnowsNothing :=
    Bindings.knowsNothing (fun name ↦ Std.TreeMap.getElem?_emptyc) Unit
  obtain ⟨made, plain⟩ := constant_phrases_take_short_cut
  have renders := (made dish (.read hdish)).renders nothing.resolve desk rfl unknown
  exact ⟨.read hsoup, .read hdish, unknown, (made soup (.read hsoup)).alone _ rfl,
    fun rendered ↦ Bool.false_ne_true (renders.2 rendered), (made dish (.read hdish)).refused rfl,
    (plain "bread" "Bread" (by decide) (by decide) (by decide)).1⟩

end Phrasebook
