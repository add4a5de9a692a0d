import Phrasebook.Proofs.Template.Meaning

/-!
# Texts put together

What a text means in front of another one. Tokens that can be spelled apart can be spelled one
after the other, unless a closing brace comes to stand directly behind a placeholder: the scanner
takes the two braces for a doubled one. In no other way do two readable texts spoil each other. They
are read together as the pieces of both, with the literals that meet at the seam made one.
-/

namespace Phrasebook

/-! ## Pieces put together -/

/-- Pieces one after the other; a literal at the end of the first and one at the beginning of the
second become one. -/
def joinPieces (left right : List Piece) : List Piece :=
  match left.getLast?, right with
  | some (.literal s), .literal t :: rest => left.dropLast ++ .literal (s ++ t) :: rest
  | _, _ => left ++ right

theorem joinPieces_literal (left right : List Piece) (s t : String) :
    joinPieces (left ++ [.literal s]) (.literal t :: right) =
      left ++ .literal (s ++ t) :: right := by
  simp only [joinPieces, List.getLast?_concat, List.dropLast_concat]

theorem joinPieces_of_apart {left right : List Piece}
    (h : ∀ a ∈ left.getLast?, ∀ b ∈ right.head?, ¬ (a.isLiteral ∧ b.isLiteral)) :
    joinPieces left right = left ++ right := by
  unfold joinPieces
  split
  · next s t rest hlast => exact absurd ⟨rfl, rfl⟩ (h _ hlast (.literal t) rfl)
  · rfl

/-- Pieces are either put side by side, or they meet in two literals. -/
theorem apart_or_literals (left right : List Piece) :
    (∀ a ∈ left.getLast?, ∀ b ∈ right.head?, ¬ (a.isLiteral ∧ b.isLiteral)) ∨
      ∃ before s t after, left = before ++ [.literal s] ∧ right = .literal t :: after := by
  by_cases h : ∀ a ∈ left.getLast?, ∀ b ∈ right.head?, ¬ (a.isLiteral ∧ b.isLiteral)
  · exact .inl h
  · push Not at h
    obtain ⟨a, hlast, b, hhead, ha, hb⟩ := h
    obtain ⟨before, rfl⟩ := List.getLast?_eq_some_iff.1 hlast
    obtain ⟨after, rfl⟩ := List.head?_eq_some_iff.1 hhead
    cases a with
    | placeholder name => cases ha
    | literal s =>
      cases b with
      | placeholder name => cases hb
      | literal t => exact .inr ⟨before, s, t, after, rfl, rfl⟩

theorem symbols_joinPieces (left right : List Piece) :
    (joinPieces left right).flatMap Piece.symbols =
      left.flatMap Piece.symbols ++ right.flatMap Piece.symbols := by
  obtain apart | ⟨before, s, t, after, rfl, rfl⟩ := apart_or_literals left right
  · rw [joinPieces_of_apart apart, List.flatMap_append]
  · simp [joinPieces_literal, Piece.symbols]

theorem Merged.joinPieces {left right : List Piece} (hleft : Merged left) (hright : Merged right) :
    Merged (joinPieces left right) := by
  obtain apart | ⟨before, s, t, after, rfl, rfl⟩ := apart_or_literals left right
  · rw [joinPieces_of_apart apart]
    exact ⟨by simpa using ⟨hleft.nonempty, hright.nonempty⟩,
      hleft.apart.append hright.apart apart⟩
  · rw [joinPieces_literal]
    refine ⟨?_, List.isChain_split.2 ⟨?_, ?_⟩⟩
    · have hbefore := hleft.nonempty
      have hafter := hright.nonempty
      simp_all
    -- Whether pieces are apart does not hang on the text of a literal.
    · simpa [List.isChain_append, Piece.isLiteral] using hleft.apart
    · simpa [List.isChain_cons, Piece.isLiteral] using hright.apart

theorem joinTokens_append (left right : List Token) :
    joinTokens [] (left ++ right) = joinPieces (joinTokens [] left) (joinTokens [] right) := by
  have merged := (merged_joinTokens [] left).joinPieces (merged_joinTokens [] right)
  refine joinTokens_eq_iff.2 ⟨merged, ?_⟩
  rw [symbols_joinPieces, symbols_joinTokens, symbols_joinTokens, List.map_append]
  rfl

/-! ## Tokens put together -/

/-- A text that tokens spell can be cut where they are cut. -/
theorem Spelled.of_append {reading : Reading} {left right : List Token} {text : List Char}
    (h : Spelled reading (left ++ right) text) :
    ∃ before after, text = before ++ after ∧ Spelled reading left before ∧ Apart left after ∧
      Spelled reading right after := by
  induction left generalizing text with
  | nil => exact ⟨[], text, rfl, .nil, nofun, h⟩
  | cons token left ih =>
    cases h with
    | cons grammar own rest =>
      obtain ⟨before, after, rfl, spelled, apart, hright⟩ := ih rest
      obtain ⟨own, apart⟩ := spelled.apart_cons_iff.2 ⟨own, apart⟩
      exact ⟨token.spelling ++ before, after, (List.append_assoc _ _ _).symm,
        .cons grammar own spelled, apart, hright⟩

/-- Merged pieces end in a placeholder when their meaning does. -/
theorem Merged.getLast?_eq_placeholder_iff {pieces : List Piece} (h : Merged pieces)
    {id : String} :
    pieces.getLast? = some (.placeholder id) ↔
      (pieces.flatMap Piece.symbols).getLast? = some (.name id) := by
  obtain rfl | ⟨before, last, rfl⟩ := List.eq_nil_or_concat' pieces
  · simp
  · rw [List.getLast?_concat, List.flatMap_append, List.flatMap_singleton]
    cases last with
    | placeholder name => simp [Piece.symbols]
    | literal text =>
      have hchars : text.toList ≠ [] := by
        intro hempty
        rw [String.toList_eq_nil_iff] at hempty
        exact h.nonempty (by simp [hempty])
      obtain ⟨chars, c, hconcat⟩ := (List.eq_nil_or_concat' text.toList).resolve_left hchars
      simp [Piece.symbols, hconcat]

theorem joinTokens_getLast?_iff {tokens : List Token} {id : String} :
    (joinTokens [] tokens).getLast? = some (.placeholder id) ↔
      ∃ name, tokens.getLast? = some (.placeholder name) ∧ String.ofList name = id := by
  rw [(merged_joinTokens [] tokens).getLast?_eq_placeholder_iff, symbols_joinTokens,
    List.reverse_nil, List.map_nil, List.nil_append, List.getLast?_map, Option.map_eq_some_iff]
  simp only [Token.symbol_eq_name_iff]
  constructor
  · rintro ⟨_, hlast, name, rfl, rfl⟩
    exact ⟨name, hlast, rfl⟩
  · rintro ⟨name, hlast, rfl⟩
    exact ⟨_, hlast, name, rfl, rfl⟩

/-! ## Texts put together -/

/-- A phrase that ends in a placeholder, and a text behind it that doubles the closing brace of that
placeholder. It matters only where braces mark placeholders. -/
def ClosesTwice (reading : Reading) (left : Phrase) (behind : String) : Prop :=
  reading = .template ∧ (∃ id, left.pieces.getLast? = some (.placeholder id)) ∧
    behind.toList.head? = some '}'

/-- Behind a placeholder at the end of a text, a closing brace makes a fault of the last character
of that text. -/
theorem refused_of_closing_behind {tokens : List Token} {name text rest : List Char}
    (spelled : Spelled .template tokens text)
    (hlast : tokens.getLast? = some (.placeholder name)) :
    Refused .template .escapedCloseInPlaceholder (text.length - 1) (text ++ '}' :: rest) := by
  obtain ⟨tokens, rfl⟩ := List.getLast?_eq_some_iff.1 hlast
  obtain ⟨before, after, rfl, hbefore, -, hafter⟩ := spelled.of_append
  cases hafter with
  | cons grammar own hnil =>
    cases hnil
    cases grammar with
    | placeholder nonempty opening closing =>
      have apart : Apart tokens ('{' :: (name ++ '}' :: '}' :: rest)) := .of_opening rfl
      have h := Refused.intro hbefore apart (.escapedCloseInPlaceholder ⟨opening, closing⟩)
      have hplace : (before ++ ((Token.placeholder name).spelling ++ [])).length - 1 =
          before.length + (name.length + 1) := by
        simp [Token.spelling]
      rw [hplace]
      simpa [Token.spelling] using h

theorem apart_of_not_closesTwice {reading : Reading} {tokens : List Token} {text : List Char}
    {name behind : String} (spelled : Spelled reading tokens text)
    (h : ¬ ClosesTwice reading (.defined name (joinTokens [] tokens)) behind) :
    Apart tokens behind.toList := by
  intro token hlast hplaceholder hclosing
  cases token with
  | placeholder id =>
    have htemplate : reading = .template := by
      cases spelled.inGrammar (List.mem_of_getLast? hlast)
      rfl
    exact h ⟨htemplate, ⟨_, joinTokens_getLast?_iff.2 ⟨id, hlast, rfl⟩⟩, hclosing⟩
  | _ => cases hplaceholder

/-- Two texts that can be read are read together as the pieces of the one behind those of the other.
There is one exception: if the first ends in a placeholder and the second begins with a closing
brace, the text is refused at the last character of the first. -/
theorem read_append {reading : Reading} {first second a b : String} {left right : Phrase}
    (ha : Phrase.read reading first a = .ok left) (hb : Phrase.read reading second b = .ok right)
    (name : String) :
    (ClosesTwice reading left b →
      Phrase.read reading name (a ++ b) =
        .error ⟨name, a.length - 1, .escapedCloseInPlaceholder⟩) ∧
    (¬ ClosesTwice reading left b →
      Phrase.read reading name (a ++ b) =
        .ok (.defined name (joinPieces left.pieces right.pieces))) := by
  obtain ⟨before, hbefore, rfl⟩ := read_eq_ok_iff_scan.1 ha
  obtain ⟨after, hafter, rfl⟩ := read_eq_ok_iff_scan.1 hb
  have spelled := spelled_of_scanText_eq_ok hbefore
  constructor
  · rintro ⟨rfl, ⟨id, hlast⟩, hclosing⟩
    obtain ⟨letters, hlast, -⟩ := joinTokens_getLast?_iff.1 hlast
    obtain ⟨rest, hrest⟩ := List.head?_eq_some_iff.1 hclosing
    refine read_eq_error_iff.2 ⟨rfl, ?_⟩
    rw [String.toList_append, hrest]
    exact refused_of_closing_behind spelled hlast
  · intro h
    refine read_eq_ok_iff_scan.2 ⟨before ++ after, ?_, ?_⟩
    · rw [String.toList_append, scanText_append spelled (apart_of_not_closesTwice spelled h),
        scanText_eq_ok_of_spelled (spelled_of_scanText_eq_ok hafter)]
      rfl
    · rw [joinTokens_append]
      rfl

/-- The same text behind a placeholder and behind a literal. -/
theorem read_append_menu :
    let soup := Phrase.read .template "soup" "Soup {name}"
    let dish := Phrase.read .template "dish" "{name} soup"
    let cook := Phrase.read .template "cook" "\x7d\x7d, {cook}"
    soup = .ok (.defined "soup" [.literal "Soup ", .placeholder "name"]) ∧
      dish = .ok (.defined "dish" [.placeholder "name", .literal " soup"]) ∧
      cook = .ok (.defined "cook" [.literal "\x7d, ", .placeholder "cook"]) ∧
      Phrase.read .template "menu" ("Soup {name}" ++ "\x7d\x7d, {cook}") =
        .error ⟨"menu", 10, .escapedCloseInPlaceholder⟩ ∧
      Phrase.read .template "menu" ("{name} soup" ++ "\x7d\x7d, {cook}") =
        .ok (.defined "menu"
          [.placeholder "name", .literal " soup\x7d, ", .placeholder "cook"]) := by
  intro soup dish cook
  have hsoup : soup = .ok (.defined "soup" [.literal "Soup ", .placeholder "name"]) := rfl
  have hdish : dish = .ok (.defined "dish" [.placeholder "name", .literal " soup"]) := rfl
  have hcook : cook = .ok (.defined "cook" [.literal "\x7d, ", .placeholder "cook"]) := rfl
  have hclosing : "\x7d\x7d, {cook}".toList.head? = some '}' := rfl
  have hlength : "Soup {name}".length - 1 = 10 := rfl
  refine ⟨hsoup, hdish, hcook, ?_, (read_append hdish hcook "menu").2 ?_⟩
  · rw [← hlength]
    exact (read_append hsoup hcook "menu").1 ⟨rfl, ⟨_, rfl⟩, hclosing⟩
  · rintro ⟨-, ⟨id, hlast⟩, -⟩
    cases hlast

end Phrasebook
