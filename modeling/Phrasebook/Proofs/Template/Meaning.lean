import Mathlib.Data.List.Chain
import Phrasebook.Proofs.Template.Refusal

/-!
# The meaning of template texts

A token means one `Symbol`, a character or the name of a placeholder, and a piece stands for a
sequence of symbols. Pieces are `Merged` if no two of their literals could be made one and none is
empty; merged pieces are determined by their symbols. A text can be read exactly when the grammar
derives it, and then its pieces are the merged meanings of its tokens.
-/

namespace Phrasebook

inductive Symbol where
  | char (c : Char)
  | name (s : String)
deriving DecidableEq

def Token.symbol : Token → Symbol
  | .plain c => .char c
  | .escape _ c => .char c
  | .doubled c => .char c
  | .placeholder name => .name (String.ofList name)

theorem Token.symbol_eq_name_iff {token : Token} {id : String} :
    token.symbol = .name id ↔ ∃ name, token = .placeholder name ∧ String.ofList name = id := by
  cases token <;> simp [Token.symbol]

def Piece.symbols : Piece → List Symbol
  | .literal text => text.toList.map .char
  | .placeholder name => [.name name]

def Piece.isLiteral : Piece → Bool
  | .literal _ => true
  | .placeholder _ => false

/-- No literal is empty, and no two literals stand side by side. -/
structure Merged (pieces : List Piece) : Prop where
  nonempty : .literal "" ∉ pieces
  apart : pieces.IsChain fun a b ↦ ¬ (a.isLiteral ∧ b.isLiteral)

namespace Merged

theorem nil : Merged [] := ⟨List.not_mem_nil, .nil⟩

theorem tail {piece : Piece} {pieces : List Piece} (h : Merged (piece :: pieces)) :
    Merged pieces :=
  ⟨fun hmem ↦ h.nonempty (List.mem_cons_of_mem _ hmem), h.apart.tail⟩

theorem placeholder {name : String} {pieces : List Piece} (h : Merged pieces) :
    Merged (.placeholder name :: pieces) := by
  refine ⟨?_, ?_⟩
  · simpa using h.nonempty
  · cases pieces with
    | nil => exact .singleton _
    | cons piece pieces => exact .cons_cons (by simp [Piece.isLiteral]) h.apart

theorem literal_placeholder {text name : String} {pieces : List Piece} (nonempty : text ≠ "")
    (h : Merged pieces) : Merged (.literal text :: .placeholder name :: pieces) := by
  refine ⟨?_, .cons_cons (by simp [Piece.isLiteral]) h.placeholder.apart⟩
  have hpieces := h.nonempty
  simp only [List.mem_cons, Piece.literal.injEq, reduceCtorEq, false_or, not_or]
  exact ⟨Ne.symm nonempty, hpieces⟩

theorem singleton {text : String} (nonempty : text ≠ "") : Merged [.literal text] :=
  ⟨by simpa using Ne.symm nonempty, .singleton _⟩

end Merged

/-- Characters in front of symbols that do not begin with one can be told from those symbols. -/
theorem chars_append_inj {s t : List Char} {xs ys : List Symbol}
    (hx : ∀ c, xs.head? ≠ some (.char c))
    (hy : ∀ c, ys.head? ≠ some (.char c))
    (h : s.map Symbol.char ++ xs = t.map Symbol.char ++ ys) : s = t ∧ xs = ys := by
  induction s generalizing t with
  | nil =>
    cases t with
    | nil => exact ⟨rfl, h⟩
    | cons c t =>
      rw [List.map_nil, List.nil_append] at h
      subst h
      exact absurd rfl (hx c)
  | cons c s ih =>
    cases t with
    | nil =>
      rw [List.map_nil, List.nil_append] at h
      subst h
      exact absurd rfl (hy c)
    | cons d t =>
      simp only [List.map_cons, List.cons_append, List.cons.injEq, Symbol.char.injEq] at h
      obtain ⟨rfl, h⟩ := h
      obtain ⟨rfl, rfl⟩ := ih h
      exact ⟨rfl, rfl⟩

theorem Merged.head_symbols_ne_char {text : String} {pieces : List Piece}
    (h : Merged (.literal text :: pieces)) (c : Char) :
    (pieces.flatMap Piece.symbols).head? ≠ some (.char c) := by
  cases pieces with
  | nil => simp
  | cons piece pieces =>
    cases piece with
    | literal other =>
      have happart := h.apart
      simp [Piece.isLiteral] at happart
    | placeholder name => simp [Piece.symbols]

theorem Merged.head_ne_empty {piece : Piece} {pieces : List Piece} (h : Merged (piece :: pieces)) :
    piece ≠ .literal "" := by
  rintro rfl
  exact h.nonempty List.mem_cons_self

theorem Piece.symbols_ne_nil {piece : Piece} (h : piece ≠ .literal "") : piece.symbols ≠ [] := by
  cases piece with
  | literal text => simpa [Piece.symbols] using h
  | placeholder name => simp [Piece.symbols]

theorem literal_symbols_append_ne_name {text name : String} {xs ys : List Symbol}
    (h : Piece.literal text ≠ .literal "") :
    (Piece.literal text).symbols ++ xs ≠ .name name :: ys := by
  have hchars : text.toList ≠ [] := by simpa using h
  obtain ⟨c, rest, hcons⟩ := List.exists_cons_of_ne_nil hchars
  simp [Piece.symbols, hcons]

/-- Merged pieces are determined by what they stand for. -/
theorem Merged.eq_of_symbols_eq {left right : List Piece} (hleft : Merged left)
    (hright : Merged right) (h : left.flatMap Piece.symbols = right.flatMap Piece.symbols) :
    left = right := by
  induction left generalizing right with
  | nil =>
    cases right with
    | nil => rfl
    | cons second right =>
      rw [List.flatMap_nil, List.flatMap_cons] at h
      exact absurd (List.append_eq_nil_iff.1 h.symm).1 (Piece.symbols_ne_nil hright.head_ne_empty)
  | cons first left ih =>
    cases right with
    | nil =>
      rw [List.flatMap_nil, List.flatMap_cons] at h
      exact absurd (List.append_eq_nil_iff.1 h).1 (Piece.symbols_ne_nil hleft.head_ne_empty)
    | cons second right =>
      rw [List.flatMap_cons, List.flatMap_cons] at h
      cases first with
      | literal s =>
        cases second with
        | literal t =>
          obtain ⟨hst, hrest⟩ :=
            chars_append_inj hleft.head_symbols_ne_char hright.head_symbols_ne_char h
          rw [String.toList_inj.1 hst, ih hleft.tail hright.tail hrest]
        | placeholder name =>
          exact absurd h (literal_symbols_append_ne_name hleft.head_ne_empty)
      | placeholder name =>
        cases second with
        | literal t =>
          exact absurd h.symm (literal_symbols_append_ne_name hright.head_ne_empty)
        | placeholder other =>
          simp only [Piece.symbols, List.singleton_append, List.cons.injEq, Symbol.name.injEq] at h
          rw [h.1, ih hleft.tail hright.tail h.2]

/-! ## The pieces of a text -/

theorem symbols_literalOnto (run : List Char) (pieces : List Piece) :
    (Piece.literalOnto run pieces).flatMap Piece.symbols =
      run.map .char ++ pieces.flatMap Piece.symbols := by
  unfold Piece.literalOnto
  split
  · next h => rw [List.isEmpty_iff.1 h, List.map_nil, List.nil_append]
  · rw [List.flatMap_cons, Piece.symbols, String.toList_ofList]

/-- Joining tokens keeps what they mean. -/
theorem symbols_joinTokens (run : List Char) (tokens : List Token) :
    (joinTokens run tokens).flatMap Piece.symbols =
      run.reverse.map .char ++ tokens.map Token.symbol := by
  induction tokens generalizing run with
  | nil => rw [joinTokens, symbols_literalOnto, List.flatMap_nil, List.map_nil]
  | cons token tokens ih =>
    cases token with
    | placeholder name =>
      rw [joinTokens, symbols_literalOnto, List.flatMap_cons, ih]
      rfl
    | plain c => simp [joinTokens, ih, Token.symbol]
    | escape letters c => simp [joinTokens, ih, Token.symbol]
    | doubled c => simp [joinTokens, ih, Token.symbol]

theorem ofList_ne_empty {run : List Char} (h : ¬ run.isEmpty) : String.ofList run ≠ "" := by
  intro hrun
  have hrun := congrArg String.toList hrun
  rw [String.toList_ofList] at hrun
  exact h (List.isEmpty_iff.2 hrun)

/-- Joined tokens are merged: a run ends only in front of a placeholder or at the end. -/
theorem merged_joinTokens (run : List Char) (tokens : List Token) :
    Merged (joinTokens run tokens) := by
  induction tokens generalizing run with
  | nil =>
    unfold joinTokens Piece.literalOnto
    split
    · exact .nil
    · next h => exact .singleton (ofList_ne_empty h)
  | cons token tokens ih =>
    cases token with
    | placeholder name =>
      unfold joinTokens Piece.literalOnto
      split
      · exact (ih []).placeholder
      · next h => exact .literal_placeholder (ofList_ne_empty h) (ih [])
    | plain c => exact ih _
    | escape letters c => exact ih _
    | doubled c => exact ih _

theorem joinTokens_eq_iff {tokens : List Token} {pieces : List Piece} :
    joinTokens [] tokens = pieces ↔
      Merged pieces ∧ pieces.flatMap Piece.symbols = tokens.map Token.symbol := by
  constructor
  · rintro rfl
    exact ⟨merged_joinTokens [] tokens, symbols_joinTokens [] tokens⟩
  · rintro ⟨merged, hsymbols⟩
    exact (merged_joinTokens [] tokens).eq_of_symbols_eq merged
      ((symbols_joinTokens [] tokens).trans hsymbols.symm)

theorem placeholder_mem_iff {pieces : List Piece} {id : String} :
    .placeholder id ∈ pieces ↔ .name id ∈ pieces.flatMap Piece.symbols := by
  rw [List.mem_flatMap]
  constructor
  · intro h
    exact ⟨_, h, List.mem_singleton_self _⟩
  · rintro ⟨piece, hmem, hname⟩
    cases piece with
    | literal text => simp [Piece.symbols] at hname
    | placeholder other => simp_all [Piece.symbols]

/-- The placeholders of joined tokens are those among the tokens. -/
theorem placeholder_mem_joinTokens_iff {tokens : List Token} {id : String} :
    .placeholder id ∈ joinTokens [] tokens ↔
      ∃ name, .placeholder name ∈ tokens ∧ String.ofList name = id := by
  rw [placeholder_mem_iff, symbols_joinTokens, List.reverse_nil, List.map_nil, List.nil_append,
    List.mem_map]
  simp only [Token.symbol_eq_name_iff]
  constructor
  · rintro ⟨_, hmem, name, rfl, rfl⟩
    exact ⟨name, hmem, rfl⟩
  · rintro ⟨name, hmem, rfl⟩
    exact ⟨_, hmem, name, rfl, rfl⟩

theorem read_eq_ok_iff_scan {reading : Reading} {name text : String} {phrase : Phrase} :
    Phrase.read reading name text = .ok phrase ↔
      ∃ tokens, scanText reading 0 text.toList = .ok tokens ∧
        phrase = .defined name (joinTokens [] tokens) := by
  unfold Phrase.read
  cases scanText reading 0 text.toList with
  | ok tokens => simp [eq_comm]
  | error fault => simp

theorem read_eq_error_iff {reading : Reading} {name text : String} {e : TemplateError} :
    Phrase.read reading name text = .error e ↔
      e.key = name ∧ Refused reading e.kind e.offset text.toList := by
  have hfault : Refused reading e.kind e.offset text.toList ↔
      scanText reading 0 text.toList = .error ⟨e.offset, e.kind⟩ :=
    (@scanText_eq_error_iff _ _ ⟨e.offset, e.kind⟩).symm
  rw [hfault]
  unfold Phrase.read
  cases scanText reading 0 text.toList with
  | ok tokens => simp
  | error fault => cases e; cases fault; simp [Fault.within, eq_comm]

/-- A template text can be read exactly when the grammar derives it. Whichever tokens spell it, the
phrase has the given name, is not missing, and its pieces are those merged ones that mean what these
tokens mean. -/
theorem read_template_iff_spelled (name text : String) :
    ((∃ phrase, Phrase.read .template name text = .ok phrase) ↔
      ∃ tokens, Spelled .template tokens text.toList) ∧
    ∀ tokens, Spelled .template tokens text.toList →
      ∃ phrase, Phrase.read .template name text = .ok phrase ∧ phrase.name = name ∧
        phrase.isMissing = false ∧
        ∀ pieces, phrase.pieces = pieces ↔
          Merged pieces ∧ pieces.flatMap Piece.symbols = tokens.map Token.symbol := by
  have hread (tokens : List Token) (spelled : Spelled .template tokens text.toList) :
      Phrase.read .template name text = .ok (.defined name (joinTokens [] tokens)) :=
    read_eq_ok_iff_scan.2 ⟨tokens, scanText_eq_ok_of_spelled spelled 0, rfl⟩
  refine ⟨⟨?_, ?_⟩, ?_⟩
  · rintro ⟨phrase, h⟩
    obtain ⟨tokens, hscan, -⟩ := read_eq_ok_iff_scan.1 h
    exact ⟨tokens, spelled_of_scanText_eq_ok hscan⟩
  · rintro ⟨tokens, spelled⟩
    exact ⟨_, hread tokens spelled⟩
  · intro tokens spelled
    exact ⟨_, hread tokens spelled, rfl, rfl, fun pieces ↦ joinTokens_eq_iff⟩

end Phrasebook
