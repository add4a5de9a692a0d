import Phrasebook.Proofs.Template.Meaning

/-!
# Placeholders and where they stand

The names of the placeholders of a phrase are listed once each, in the order of first use. A reserved
name among them is reported at the sum of the lengths of the pieces before it. In the text its
placeholder begins later by as many characters as were spent there on escapes and doubled braces beyond
the one character that each of them stands for.
-/

namespace Phrasebook

/-! ## The names of placeholders -/

def Piece.name? : Piece → Option String
  | .literal _ => none
  | .placeholder name => some name

theorem Piece.name?_eq_some_iff {piece : Piece} {name : String} :
    piece.name? = some name ↔ piece = .placeholder name := by
  cases piece <;> simp [Piece.name?]

theorem Phrase.placeholders_eq (phrase : Phrase) :
    phrase.placeholders = distinct (phrase.pieces.filterMap Piece.name?) := by
  rw [placeholders]
  refine congrArg (fun f ↦ distinct (phrase.pieces.filterMap f)) (funext fun piece ↦ ?_)
  cases piece <;> rfl

namespace Phrase

theorem mem_distinct {name : String} {names : List String} :
    name ∈ distinct names ↔ name ∈ names := by
  induction names with
  | nil => rfl
  | cons first rest ih =>
    rw [distinct, List.mem_cons, List.mem_filter, ih, List.mem_cons]
    by_cases same : name = first <;> simp [same]

/-- The names come in the order in which their first placeholders stand. -/
theorem pairwise_distinct_names (pieces : List Piece) :
    (distinct (pieces.filterMap Piece.name?)).Pairwise fun first second ↦
      pieces.idxOf (.placeholder first) < pieces.idxOf (.placeholder second) := by
  induction pieces with
  | nil => exact .nil
  | cons piece rest ih =>
    cases piece with
    | literal text =>
      have apart (name : String) : Piece.literal text ≠ .placeholder name := nofun
      refine ih.imp fun {first second} before ↦ ?_
      rw [List.idxOf_cons_ne _ (apart first), List.idxOf_cons_ne _ (apart second)]
      exact Nat.succ_lt_succ before
    | placeholder name =>
      let others := (distinct (rest.filterMap Piece.name?)).filter (· ≠ name)
      have apart {other : String} (later : other ∈ others) :
          Piece.placeholder name ≠ .placeholder other := by
        rintro ⟨⟩
        simpa using (List.mem_filter.1 later).2
      refine .cons (fun other later ↦ ?_) ?_
      · rw [List.idxOf_cons_self, List.idxOf_cons_ne _ (apart later)]
        exact Nat.succ_pos _
      · refine (ih.filter _).imp_of_mem fun {first second} hfirst hsecond before ↦ ?_
        rw [List.idxOf_cons_ne _ (apart hfirst), List.idxOf_cons_ne _ (apart hsecond)]
        exact Nat.succ_lt_succ before

theorem pairwise_placeholders (phrase : Phrase) :
    phrase.placeholders.Pairwise fun first second ↦
      phrase.pieces.idxOf (.placeholder first) < phrase.pieces.idxOf (.placeholder second) := by
  rw [placeholders_eq]
  exact pairwise_distinct_names phrase.pieces

theorem mem_placeholders {phrase : Phrase} {name : String} :
    name ∈ phrase.placeholders ↔ .placeholder name ∈ phrase.pieces := by
  rw [placeholders_eq, mem_distinct, List.mem_filterMap]
  simp only [Piece.name?_eq_some_iff, exists_eq_right]

end Phrase

/-! ## Reserved names -/

theorem reservedNames_contains_iff {name : String} :
    reservedNames.contains name = true ↔ name = "this" := by
  simp [reservedNames]

theorem reservedFault?_eq_none_iff {offset : ℕ} {pieces : List Piece} :
    reservedFault? offset pieces = none ↔ .placeholder "this" ∉ pieces := by
  induction pieces generalizing offset with
  | nil => simp [reservedFault?]
  | cons piece rest ih =>
    cases piece with
    | literal text => simp [reservedFault?, ih]
    | placeholder name =>
      by_cases reserved : name = "this"
      · simp [reservedFault?, reservedNames, reserved]
      · simp [reservedFault?, reservedNames, ih, reserved, Ne.symm reserved]

theorem checkReserved_eq_ok_iff {phrase : Phrase} :
    phrase.checkReserved = .ok () ↔ .placeholder "this" ∉ phrase.pieces := by
  rw [← @reservedFault?_eq_none_iff 0, Phrase.checkReserved]
  cases reservedFault? 0 phrase.pieces <;> simp

namespace Token

/-- The number of characters that a token amounts to in the pieces of a phrase, where a placeholder
has its braces. -/
def width : Token → ℕ
  | .plain _ | .escape .. | .doubled _ => 1
  | .placeholder name => name.length + 2

/-- The characters in which a token is spelled beyond those that it amounts to. -/
def surplus : Token → ℕ
  | .plain _ | .placeholder _ => 0
  | .escape letters _ => letters.length
  | .doubled _ => 1

/-- Whether a token stands in the text as what it means. -/
def isVerbatim : Token → Bool
  | .plain _ | .placeholder _ => true
  | .escape .. | .doubled _ => false

theorem width_add_surplus (token : Token) :
    token.width + token.surplus = token.spelling.length := by
  cases token <;> simp +arith [width, surplus, spelling]

theorem InGrammar.surplus_eq_zero_iff {reading : Reading} {token : Token}
    (grammar : token.InGrammar reading) : token.surplus = 0 ↔ token.isVerbatim := by
  cases grammar <;> simp [surplus, isVerbatim]

end Token

theorem sum_width_add_sum_surplus (tokens : List Token) :
    (tokens.map Token.width).sum + (tokens.map Token.surplus).sum =
      (tokens.flatMap Token.spelling).length := by
  induction tokens with
  | nil => rfl
  | cons token rest ih =>
    have own := token.width_add_surplus
    rw [List.map_cons, List.sum_cons, List.map_cons, List.sum_cons, List.flatMap_cons,
      List.length_append]
    omega

theorem Spelled.text_eq {reading : Reading} {tokens : List Token} {text : List Char}
    (h : Spelled reading tokens text) : text = tokens.flatMap Token.spelling := by
  induction h with
  | nil => rfl
  | cons _ _ _ ih => rw [ih, List.flatMap_cons]

theorem reservedFault?_literalOnto (offset : ℕ) (run : List Char) (pieces : List Piece) :
    reservedFault? offset (Piece.literalOnto run pieces) =
      reservedFault? (offset + run.length) pieces := by
  rw [Piece.literalOnto]
  split
  · next h => rw [List.isEmpty_iff.1 h, List.length_nil, Nat.add_zero]
  · rw [reservedFault?, String.length_ofList]

/-- A reserved name is placed behind what the tokens before it amount to. -/
theorem reservedFault?_joinTokens {before : List Token}
    (first : .placeholder "this".toList ∉ before) (rest : List Token) (offset : ℕ)
    (run : List Char) :
    reservedFault? offset (joinTokens run (before ++ .placeholder "this".toList :: rest)) =
      some ⟨offset + run.length + (before.map Token.width).sum, .reservedPlaceholder "this"⟩ := by
  induction before generalizing offset run with
  | nil =>
    rw [List.nil_append, joinTokens, reservedFault?_literalOnto, List.length_reverse,
      reservedFault?, String.ofList_toList, if_pos (reservedNames_contains_iff.2 rfl)]
    rfl
  | cons token before ih =>
    have apart := List.ne_of_not_mem_cons first
    have later := List.not_mem_of_not_mem_cons first
    cases token with
    | placeholder name =>
      have other : ¬ reservedNames.contains (String.ofList name) = true := by
        rw [reservedNames_contains_iff]
        rintro same
        rw [← same, String.toList_ofList] at apart
        exact apart rfl
      rw [List.cons_append, joinTokens, reservedFault?_literalOnto, List.length_reverse,
        reservedFault?, if_neg other, ih later, String.length_ofList, List.map_cons,
        List.sum_cons, Token.width, List.length_nil]
      simp only [Nat.add_assoc, Nat.add_zero]
    | plain c | escape letters c | doubled c =>
      rw [List.cons_append, joinTokens, ih later, List.length_cons, List.map_cons, List.sum_cons,
        Token.width]
      simp only [Nat.add_assoc]

/-- A phrase is refused exactly if a placeholder of it is called by the reserved name. The fault names
the first one, and falls short of the brace that opens it by the surplus of the tokens before it: it
points at the brace exactly if each of these is written as what it means. -/
theorem reserved_name_in_place_iff_verbatim_before {name text : String} {phrase : Phrase}
    (h : Phrase.read .template name text = .ok phrase) :
    (phrase.checkReserved = .ok () ↔ .placeholder "this" ∉ phrase.pieces) ∧
    (.placeholder "this" ∈ phrase.pieces →
      ∃ before rest, Spelled .template (before ++ .placeholder "this".toList :: rest) text.toList ∧
        .placeholder "this".toList ∉ before ∧
        let place := (before.flatMap Token.spelling).length
        text.toList[place]? = some '{' ∧
        ∃ offset, phrase.checkReserved = .error ⟨name, offset, .reservedPlaceholder "this"⟩ ∧
          offset + (before.map Token.surplus).sum = place ∧
          (offset = place ↔ ∀ token ∈ before, token.isVerbatim)) := by
  refine ⟨checkReserved_eq_ok_iff, fun named ↦ ?_⟩
  obtain ⟨tokens, scanned, rfl⟩ := read_eq_ok_iff_scan.1 h
  have spelled := spelled_of_scanText_eq_ok scanned
  obtain ⟨id, mem, same⟩ := placeholder_mem_joinTokens_iff.1 named
  obtain rfl : id = "this".toList := by rw [← same, String.toList_ofList]
  obtain ⟨before, rest, rfl, first⟩ := List.eq_append_cons_of_mem mem
  have sum := sum_width_add_sum_surplus before
  refine ⟨before, rest, spelled, first, ?_, (before.map Token.width).sum, ?_, sum, ?_⟩
  · rw [spelled.text_eq, List.flatMap_append, List.getElem?_append_right le_rfl, Nat.sub_self]
    rfl
  · rw [Phrase.checkReserved, Phrase.pieces, reservedFault?_joinTokens first]
    simp [Fault.within, Phrase.name]
  · rw [← sum, Nat.left_eq_add, List.sum_eq_zero_iff_forall_eq_nat, List.forall_mem_map]
    exact forall₂_congr fun token mem ↦
      (spelled.inGrammar (List.mem_append_left _ mem)).surplus_eq_zero_iff

/-- An escape by code point and a doubled brace come before the reserved name, and eleven characters of
the text amount to five. -/
theorem reserved_name_in_place_iff_verbatim_before_menu :
    let text := "\x7ba\x7d\\u0041\x7b\x7b\x7bthis\x7d"
    let phrase : Phrase :=
      .defined "menu" [.placeholder "a", .literal "A\x7b", .placeholder "this"]
    Phrase.read .template "menu" text = .ok phrase ∧ .placeholder "this" ∈ phrase.pieces ∧
      ∃ before rest, Spelled .template (before ++ .placeholder "this".toList :: rest) text.toList ∧
        .placeholder "this".toList ∉ before ∧
        let place := (before.flatMap Token.spelling).length
        text.toList[place]? = some '{' ∧
        ∃ offset, phrase.checkReserved = .error ⟨"menu", offset, .reservedPlaceholder "this"⟩ ∧
          offset + (before.map Token.surplus).sum = place ∧
          (offset = place ↔ ∀ token ∈ before, token.isVerbatim) := by
  have h : Phrase.read .template "menu" "\x7ba\x7d\\u0041\x7b\x7b\x7bthis\x7d" =
      .ok (.defined "menu" [.placeholder "a", .literal "A\x7b", .placeholder "this"]) := rfl
  intro text phrase
  have named : .placeholder "this" ∈ phrase.pieces := by decide
  exact ⟨h, named, (reserved_name_in_place_iff_verbatim_before h).2 named⟩

/-- The reserved name is reported at the letter of the escape in front of its brace. -/
theorem reserved_name_behind_escape_misplaced :
    let text := "\\n\x7bthis\x7d"
    ∃ phrase, Phrase.read .template "menu" text = .ok phrase ∧
      phrase.pieces = [.literal "\n", .placeholder "this"] ∧
      phrase.checkReserved = .error ⟨"menu", 1, .reservedPlaceholder "this"⟩ ∧
      text.toList[1]? = some 'n' ∧ text.toList[2]? = some '{' :=
  ⟨_, rfl, rfl, rfl, rfl, rfl⟩

end Phrasebook
