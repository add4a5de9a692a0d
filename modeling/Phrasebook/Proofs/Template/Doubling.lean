import Phrasebook.Proofs.Template.Meaning

/-!
# Braces as ordinary characters

The two ways to read a text agree once its braces are doubled: where braces mark placeholders, a
text with doubled braces means what the text itself means where they are ordinary characters. Tokens
correspond to tokens and flaws to flaws, so that a text is refused for the same reason, with the
fault moved by the braces in front of it. Doubling never repairs an escape: no brace is a letter of
one, so four digits of the doubled text are four digits of the text.
-/

namespace Phrasebook

def isBrace (c : Char) : Bool := c = '{' ∨ c = '}'

/-- The characters of a text with every brace written twice. -/
def doubleBraces (text : List Char) : List Char :=
  text.flatMap fun c ↦ if isBrace c then [c, c] else [c]

def withBracesDoubled (text : String) : String := String.ofList (doubleBraces text.toList)

theorem doubleBraces_append (left right : List Char) :
    doubleBraces (left ++ right) = doubleBraces left ++ doubleBraces right :=
  List.flatMap_append

theorem doubleBraces_cons_of_not_isBrace {c : Char} (h : isBrace c = false) (rest : List Char) :
    doubleBraces (c :: rest) = c :: doubleBraces rest := by
  simp [doubleBraces, h]

theorem exists_doubleBraces_cons (c : Char) (rest : List Char) :
    ∃ tail, doubleBraces (c :: rest) = c :: tail := by
  cases h : isBrace c <;> simp [doubleBraces, h]

theorem length_doubleBraces (text : List Char) :
    (doubleBraces text).length = text.length + text.countP isBrace := by
  induction text with
  | nil => rfl
  | cons c rest ih =>
    have hlength : (doubleBraces (c :: rest)).length =
        (if isBrace c then 2 else 1) + (doubleBraces rest).length := by
      cases h : isBrace c <;> simp [doubleBraces, h] <;> omega
    rw [hlength, ih, List.length_cons, List.countP_cons]
    split <;> omega

/-! ## Words without braces -/

section BracelessWord

variable {word : List Char} (braceless : ∀ c ∈ word, isBrace c = false)
include braceless

theorem doubleBraces_eq_self : doubleBraces word = word := by
  induction word with
  | nil => rfl
  | cons c word ih =>
    obtain ⟨hc, hword⟩ := List.forall_mem_cons.1 braceless
    rw [doubleBraces_cons_of_not_isBrace hc, ih hword]

/-- Such a word begins a text if it does once the braces are doubled. -/
theorem exists_append_of_doubleBraces {text tail : List Char}
    (h : doubleBraces text = word ++ tail) : ∃ rest, text = word ++ rest := by
  induction word generalizing text with
  | nil => exact ⟨text, rfl⟩
  | cons c word ih =>
    obtain ⟨hc, hword⟩ := List.forall_mem_cons.1 braceless
    cases text with
    | nil => cases h
    | cons d text =>
      obtain ⟨rest, hrest⟩ := exists_doubleBraces_cons d text
      have hdc : d = c := (List.cons.inj (hrest.symm.trans h)).1
      subst hdc
      rw [doubleBraces_cons_of_not_isBrace hc] at h
      obtain ⟨rest, rfl⟩ := ih hword (List.cons.inj h).2
      exact ⟨rest, rfl⟩

end BracelessWord

theorem HexDigit.isBrace_eq_false {c : Char} {value : ℕ} (h : HexDigit c value) :
    isBrace c = false := by
  have hvalue := hexValue_eq_some_iff.2 h
  have hopening : Numeral.hexValue '{' = none := by decide
  have hclosing : Numeral.hexValue '}' = none := by decide
  rw [isBrace, decide_eq_false_iff_not]
  rintro (rfl | rfl)
  · rw [hopening] at hvalue
    cases hvalue
  · rw [hclosing] at hvalue
    cases hvalue

theorem isBrace_eq_false_of_hexNumber? {a b c d : Char} {n : ℕ}
    (h : hexNumber? [a, b, c, d] = some n) : ∀ x ∈ [a, b, c, d], isBrace x = false := by
  obtain ⟨p, q, r, s, hp, hq, hr, hs, -⟩ := hexNumber?_eq_some_iff.1 h
  simp [hp.isBrace_eq_false, hq.isBrace_eq_false, hr.isBrace_eq_false, hs.isBrace_eq_false]

/-! ## Tokens and flaws correspond -/

/-- A token written with its braces doubled is a token that means the same. -/
theorem Token.InGrammar.exists_doubled {token : Token} (h : token.InGrammar .escapesOnly) :
    ∃ doubled : Token, doubled.InGrammar .template ∧ doubled.isPlaceholder = false ∧
      doubled.spelling = doubleBraces token.spelling ∧ doubled.symbol = token.symbol := by
  cases h with
  | @plain _ c backslash opening closing =>
    have hbrace : isBrace c = false := by simp [isBrace, opening, closing]
    exact ⟨.plain c, .plain backslash opening closing, rfl,
      (doubleBraces_cons_of_not_isBrace hbrace []).symm, rfl⟩
  | plainBrace brace =>
    rcases brace with rfl | rfl
    · exact ⟨.doubled '{', .openingBrace, rfl, rfl, rfl⟩
    · exact ⟨.doubled '}', .closingBrace, rfl, rfl, rfl⟩
  | tab => exact ⟨_, .tab, rfl, rfl, rfl⟩
  | carriageReturn => exact ⟨_, .carriageReturn, rfl, rfl, rfl⟩
  | newline => exact ⟨_, .newline, rfl, rfl, rfl⟩
  | nul => exact ⟨_, .nul, rfl, rfl, rfl⟩
  | codePoint first second third fourth scalar =>
    have hnumber := hexNumber?_eq_some_iff.2 ⟨_, _, _, _, first, second, third, fourth, rfl⟩
    refine ⟨_, .codePoint first second third fourth scalar, rfl, ?_, rfl⟩
    rw [Token.spelling, doubleBraces_cons_of_not_isBrace rfl, doubleBraces_cons_of_not_isBrace rfl,
      doubleBraces_eq_self (isBrace_eq_false_of_hexNumber? hnumber)]

theorem Spelled.exists_doubled {tokens : List Token} {text : List Char}
    (h : Spelled .escapesOnly tokens text) :
    ∃ doubled, Spelled .template doubled (doubleBraces text) ∧
      (∀ token ∈ doubled, token.isPlaceholder = false) ∧
      doubled.map Token.symbol = tokens.map Token.symbol := by
  induction h with
  | nil => exact ⟨[], .nil, nofun, rfl⟩
  | cons grammar apart rest ih =>
    obtain ⟨token, htoken, hplaceholder, hspelling, hsymbol⟩ := grammar.exists_doubled
    obtain ⟨doubled, spelled, hplaceholders, hsymbols⟩ := ih
    refine ⟨token :: doubled, ?_, List.forall_mem_cons.2 ⟨hplaceholder, hplaceholders⟩, ?_⟩
    · rw [doubleBraces_append, ← hspelling]
      exact .cons htoken (by simp [hplaceholder]) spelled
    · rw [List.map_cons, List.map_cons, hsymbol, hsymbols]

/-- What is wrong with a text where braces are plain is wrong, at the same distance, with the text
in which they are doubled. -/
theorem Flaw.doubled {kind : FaultKind} {distance : ℕ} {text : List Char}
    (h : Flaw .escapesOnly kind distance text) :
    Flaw .template kind distance (doubleBraces text) := by
  cases h with
  | danglingEscape => exact .danglingEscape
  | @unsupportedEscape _ letter rest code unknown =>
    obtain ⟨tail, htail⟩ := exists_doubleBraces_cons letter rest
    rw [doubleBraces_cons_of_not_isBrace rfl, htail]
    exact .unsupportedEscape code unknown
  | @invalidUnicodeEscape _ rest digits =>
    rw [doubleBraces_cons_of_not_isBrace rfl, doubleBraces_cons_of_not_isBrace rfl]
    refine .invalidUnicodeEscape fun a b c d tail htail ↦ ?_
    cases hnumber : hexNumber? [a, b, c, d] with
    | none => rfl
    | some n =>
      obtain ⟨rest, rfl⟩ :=
        exists_append_of_doubleBraces (isBrace_eq_false_of_hexNumber? hnumber) htail
      exact hnumber.symm.trans (digits a b c d rest rfl)
  | @invalidCodePoint _ a b c d rest n digits surrogate =>
    have hword : doubleBraces [a, b, c, d] = [a, b, c, d] :=
      doubleBraces_eq_self (isBrace_eq_false_of_hexNumber? digits)
    have htext : doubleBraces ('\\' :: 'u' :: a :: b :: c :: d :: rest) =
        '\\' :: 'u' :: a :: b :: c :: d :: doubleBraces rest := by
      rw [doubleBraces_cons_of_not_isBrace rfl, doubleBraces_cons_of_not_isBrace rfl]
      change '\\' :: 'u' :: doubleBraces ([a, b, c, d] ++ rest) = _
      rw [doubleBraces_append, hword]
      rfl
    rw [htext]
    exact .invalidCodePoint digits surrogate

theorem Flaw.distance_eq_zero_of_escapesOnly {kind : FaultKind} {distance : ℕ} {text : List Char}
    (h : Flaw .escapesOnly kind distance text) : distance = 0 := by
  cases h <;> rfl

/-- A text that is refused stays refused, and each brace in front of the fault moves it by one. -/
theorem Refused.doubled {kind : FaultKind} {place : ℕ} {text : List Char}
    (h : Refused .escapesOnly kind place text) :
    Refused .template kind (place + (text.take place).countP isBrace) (doubleBraces text) := by
  obtain @⟨tokens, before, tail, kind, distance, spelled, apart, flaw⟩ := h
  obtain ⟨doubled, hdoubled, hplaceholder, -⟩ := spelled.exists_doubled
  have hzero : distance = 0 := flaw.distance_eq_zero_of_escapesOnly
  have hapart : Apart doubled (doubleBraces tail) := by
    intro token hlast h
    rw [hplaceholder token (List.mem_of_getLast? hlast)] at h
    cases h
  have h := Refused.intro hdoubled hapart flaw.doubled
  rw [length_doubleBraces, ← doubleBraces_append] at h
  rw [hzero, Nat.add_zero] at h ⊢
  rwa [List.take_left]

/-! ## Phrases without placeholders -/

theorem Merged.eq_nil_or_literal {pieces : List Piece} (h : Merged pieces)
    (literals : ∀ name, .placeholder name ∉ pieces) :
    pieces = [] ∨ ∃ text, pieces = [.literal text] := by
  match pieces with
  | [] => exact .inl rfl
  | [.literal text] => exact .inr ⟨text, rfl⟩
  | .placeholder name :: _ => exact absurd List.mem_cons_self (literals name)
  | .literal _ :: .placeholder name :: _ =>
    exact absurd (List.mem_cons_of_mem _ List.mem_cons_self) (literals name)
  | .literal _ :: .literal _ :: _ =>
    have happart := h.apart
    simp [Piece.isLiteral] at happart

theorem isConstant_of_merged {name : String} {pieces : List Piece} (h : Merged pieces)
    (literals : ∀ name, .placeholder name ∉ pieces) :
    (Phrase.defined name pieces).isConstant = true ∧
      (Phrase.defined name pieces).placeholders = [] := by
  obtain rfl | ⟨text, rfl⟩ := h.eq_nil_or_literal literals
  · exact ⟨rfl, rfl⟩
  · exact ⟨rfl, rfl⟩

/-- A text read with braces as ordinary characters, and the text with every brace doubled read with
braces as marks. Either both give the same phrase, which is constant and has no placeholders, or
both are refused for the same reason, and the place of the fault moves by the braces in front of
it. -/
theorem read_withBracesDoubled (name text : String) :
    (∃ phrase, Phrase.read .escapesOnly name text = .ok phrase ∧
      Phrase.read .template name (withBracesDoubled text) = .ok phrase ∧
      phrase.isConstant = true ∧ phrase.placeholders = []) ∨
    ∃ e, Phrase.read .escapesOnly name text = .error e ∧
      Phrase.read .template name (withBracesDoubled text) =
        .error { e with offset := e.offset + (text.toList.take e.offset).countP isBrace } := by
  obtain ⟨tokens, spelled⟩ | ⟨kind, place, refused⟩ :=
    spelled_or_refused .escapesOnly text.toList
  · obtain ⟨doubled, hdoubled, hplaceholder, hsymbols⟩ := spelled.exists_doubled
    have hjoin : joinTokens [] doubled = joinTokens [] tokens := by
      refine joinTokens_eq_iff.2 ⟨merged_joinTokens [] tokens, ?_⟩
      rw [symbols_joinTokens, hsymbols]
      rfl
    refine .inl ⟨.defined name (joinTokens [] tokens), ?_, ?_, ?_⟩
    · exact read_eq_ok_iff_scan.2 ⟨tokens, scanText_eq_ok_of_spelled spelled 0, rfl⟩
    · refine read_eq_ok_iff_scan.2 ⟨doubled, ?_, by rw [hjoin]⟩
      rw [withBracesDoubled, String.toList_ofList, scanText_eq_ok_of_spelled hdoubled]
    · refine isConstant_of_merged (merged_joinTokens [] tokens) fun id hmem ↦ ?_
      obtain ⟨letters, hmem, -⟩ := placeholder_mem_joinTokens_iff.1 hmem
      cases spelled.inGrammar hmem
  · refine .inr ⟨⟨name, place, kind⟩, read_eq_error_iff.2 ⟨rfl, refused⟩, ?_⟩
    refine read_eq_error_iff.2 ⟨rfl, ?_⟩
    rw [withBracesDoubled, String.toList_ofList]
    exact refused.doubled

end Phrasebook
