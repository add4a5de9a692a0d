import Mathlib.Tactic.IntervalCases
import Phrasebook.Template.Token

/-!
# The template grammar

The grammar of template texts, said without a scanner: `Token.InGrammar` says what one token may be,
`Token.spelling` how it is written, and `Spelled` how tokens follow one another. The scanner takes
one token where one is spelled, and so reads every spelled text as the tokens that spell it.
-/

namespace Phrasebook

/-! ## Tokens and texts -/

/-- The place of a hexadecimal digit of either case in the row of the sixteen digits. -/
def HexDigit (c : Char) (value : ℕ) : Prop :=
  "0123456789abcdef".toList[value]? = some c ∨ "0123456789ABCDEF".toList[value]? = some c

instance (c : Char) (value : ℕ) : Decidable (HexDigit c value) :=
  inferInstanceAs (Decidable (_ ∨ _))

def IsSurrogate (code : ℕ) : Prop := 0xD800 ≤ code ∧ code ≤ 0xDFFF

/-- What a single token of a text may be. Braces are plain where they mark no placeholders. -/
inductive Token.InGrammar : Reading → Token → Prop where
  | plain {reading : Reading} {c : Char} (backslash : c ≠ '\\') (opening : c ≠ '{')
      (closing : c ≠ '}') : InGrammar reading (.plain c)
  | plainBrace {c : Char} (brace : c = '{' ∨ c = '}') : InGrammar .escapesOnly (.plain c)
  | tab {reading : Reading} : InGrammar reading (.escape ['t'] '\t')
  | carriageReturn {reading : Reading} : InGrammar reading (.escape ['r'] '\r')
  | newline {reading : Reading} : InGrammar reading (.escape ['n'] '\n')
  | nul {reading : Reading} : InGrammar reading (.escape ['0'] '\x00')
  | codePoint {reading : Reading} {a b c d : Char} {p q r s : ℕ} (first : HexDigit a p)
      (second : HexDigit b q) (third : HexDigit c r) (fourth : HexDigit d s)
      (scalar : ¬ IsSurrogate (4096 * p + 256 * q + 16 * r + s)) :
      InGrammar reading
        (.escape ['u', a, b, c, d] (Char.ofNat (4096 * p + 256 * q + 16 * r + s)))
  | openingBrace : InGrammar .template (.doubled '{')
  | closingBrace : InGrammar .template (.doubled '}')
  | placeholder {name : List Char} (nonempty : name ≠ []) (opening : '{' ∉ name)
      (closing : '}' ∉ name) : InGrammar .template (.placeholder name)

/-- The characters of a token as they stand in the text. -/
def Token.spelling : Token → List Char
  | .plain c => [c]
  | .escape letters _ => '\\' :: letters
  | .doubled brace => [brace, brace]
  | .placeholder name => '{' :: (name ++ ['}'])

def Token.isPlaceholder : Token → Bool
  | .placeholder _ => true
  | _ => false

/-- Tokens of the grammar one after the other, with their text. A placeholder is never directly
followed by a closing brace. -/
inductive Spelled (reading : Reading) : List Token → List Char → Prop where
  | nil : Spelled reading [] []
  | cons {token : Token} {tokens : List Token} {text : List Char}
      (grammar : token.InGrammar reading) (apart : token.isPlaceholder → text.head? ≠ some '}')
      (rest : Spelled reading tokens text) :
      Spelled reading (token :: tokens) (token.spelling ++ text)

theorem Spelled.inGrammar {reading : Reading} {tokens : List Token} {text : List Char}
    (h : Spelled reading tokens text) {token : Token} (hmem : token ∈ tokens) :
    token.InGrammar reading := by
  induction h with
  | nil => cases hmem
  | cons grammar apart rest ih =>
    obtain rfl | hmem := List.mem_cons.1 hmem
    · exact grammar
    · exact ih hmem

/-! ## Escapes by code point -/

theorem hexValue_eq_some_iff {c : Char} {value : ℕ} :
    Numeral.hexValue c = some value ↔ HexDigit c value := by
  constructor
  · intro h
    have hc : Char.ofNat c.toNat = c := Char.ofNat_toNat c
    simp only [Numeral.hexValue, Bool.and_eq_true, decide_eq_true_eq, Char.le_def,
      UInt32.le_iff_toNat_le] at h
    change (if 48 ≤ c.toNat ∧ c.toNat ≤ 57 then _ else if 97 ≤ c.toNat ∧ c.toNat ≤ 102 then _
      else if 65 ≤ c.toNat ∧ c.toNat ≤ 70 then _ else _) = _ at h
    generalize c.toNat = n at h hc
    subst hc
    split_ifs at h with hdigit hlower hupper
    all_goals
      injection h with h
      subst h
      obtain ⟨hlow, hhigh⟩ := ‹_ ∧ _›
      interval_cases n <;> decide
  · intro h
    have hlt : value < 16 := by
      rcases h with h | h
      all_goals exact (List.getElem?_eq_some_iff.1 h).1
    interval_cases value
    all_goals
      rcases h with h | h
      all_goals
        injection h with h
        subst h
        decide

theorem HexDigit.lt {c : Char} {value : ℕ} (h : HexDigit c value) : value < 16 := by
  rcases h with h | h
  all_goals exact (List.getElem?_eq_some_iff.1 h).1

theorem fourDigits_lt {a b c d : Char} {p q r s : ℕ} (hp : HexDigit a p) (hq : HexDigit b q)
    (hr : HexDigit c r) (hs : HexDigit d s) : 4096 * p + 256 * q + 16 * r + s < 0x10000 := by
  have hp := hp.lt
  have hq := hq.lt
  have hr := hr.lt
  have hs := hs.lt
  omega

theorem hexNumber?_eq_some_iff {a b c d : Char} {n : ℕ} :
    hexNumber? [a, b, c, d] = some n ↔
      ∃ p q r s, HexDigit a p ∧ HexDigit b q ∧ HexDigit c r ∧ HexDigit d s ∧
        n = 4096 * p + 256 * q + 16 * r + s := by
  simp only [hexNumber?, List.foldlM_cons, List.foldlM_nil, Option.bind_eq_bind,
    Option.bind_eq_some_iff, Option.map_eq_some_iff, hexValue_eq_some_iff, Option.pure_def,
    Option.some.injEq]
  constructor
  · rintro ⟨_, ⟨p, hp, rfl⟩, _, ⟨q, hq, rfl⟩, _, ⟨r, hr, rfl⟩, _, ⟨s, hs, rfl⟩, rfl⟩
    exact ⟨p, q, r, s, hp, hq, hr, hs, by omega⟩
  · rintro ⟨p, q, r, s, hp, hq, hr, hs, rfl⟩
    exact ⟨_, ⟨p, hp, rfl⟩, _, ⟨q, hq, rfl⟩, _, ⟨r, hr, rfl⟩, _, ⟨s, hs, rfl⟩, by omega⟩

theorem scalar?_eq_some_iff {n : ℕ} (h : n < 0x10000) {c : Char} :
    scalar? n = some c ↔ ¬ IsSurrogate n ∧ Char.ofNat n = c := by
  have hvalid : n.isValidChar ↔ ¬ IsSurrogate n := by
    unfold Nat.isValidChar IsSurrogate
    omega
  simp only [scalar?, ← hvalid]
  split <;> simp_all

/-- The scanner takes four digits for a character exactly when the grammar does. -/
theorem inGrammar_codePoint_iff {reading : Reading} {a b c d meaning : Char} :
    (hexNumber? [a, b, c, d]).bind scalar? = some meaning ↔
      (Token.escape ['u', a, b, c, d] meaning).InGrammar reading := by
  rw [Option.bind_eq_some_iff]
  constructor
  · rintro ⟨n, hn, hscalar⟩
    obtain ⟨p, q, r, s, hp, hq, hr, hs, rfl⟩ := hexNumber?_eq_some_iff.1 hn
    obtain ⟨hsurrogate, rfl⟩ := (scalar?_eq_some_iff (fourDigits_lt hp hq hr hs)).1 hscalar
    exact .codePoint hp hq hr hs hsurrogate
  · intro h
    cases h with
    | @codePoint _ _ _ _ _ p q r s hp hq hr hs hsurrogate =>
      exact ⟨_, hexNumber?_eq_some_iff.2 ⟨p, q, r, s, hp, hq, hr, hs, rfl⟩,
        (scalar?_eq_some_iff (fourDigits_lt hp hq hr hs)).2 ⟨hsurrogate, rfl⟩⟩

theorem inGrammar_control_iff {reading : Reading} {letter meaning : Char} :
    controlEscape? letter = some meaning ↔
      (Token.escape [letter] meaning).InGrammar reading := by
  constructor
  · intro h
    unfold controlEscape? at h
    split at h
    all_goals cases h
    exacts [.tab, .carriageReturn, .newline, .nul]
  · intro h
    cases h <;> rfl

/-! ## The scanner reads the grammar -/

/-- Characters that could stand in the name of a placeholder. -/
structure BraceFree (name : List Char) : Prop where
  opening : '{' ∉ name
  closing : '}' ∉ name

/-- The scanner gets through characters of a name and keeps them in reverse. -/
theorem scanName_braceFree_append {name rest : List Char} (free : BraceFree name)
    (start offset : ℕ) (held : List Char) :
    scanName start held offset (name ++ rest) =
      scanName start (name.reverse ++ held) (offset + name.length) rest := by
  induction name generalizing offset held with
  | nil => rfl
  | cons c name ih =>
    have hopening := List.ne_of_not_mem_cons free.opening
    have hclosing := List.ne_of_not_mem_cons free.closing
    have free : BraceFree name :=
      ⟨List.not_mem_of_not_mem_cons free.opening, List.not_mem_of_not_mem_cons free.closing⟩
    rw [List.cons_append, scanName, ih free, List.reverse_cons, List.append_assoc,
      List.singleton_append, List.length_cons, Nat.add_assoc, Nat.add_comm 1]
    · exact hopening.symm
    · exact fun _ h _ ↦ hclosing h.symm
    · exact hclosing.symm

/-- A name is read up to the closing brace behind it, unless that brace is doubled. -/
theorem scanName_append {name held rest : List Char} {start offset : ℕ}
    (nonempty : held.reverse ++ name ≠ []) (opening : '{' ∉ name) (closing : '}' ∉ name)
    (apart : rest.head? ≠ some '}') :
    scanName start held offset (name ++ '}' :: rest) =
      (scanText .template (offset + name.length + 1) rest).map
        (.placeholder (held.reverse ++ name) :: ·) := by
  have hheld : ¬ (name.reverse ++ held).isEmpty := by
    rintro h
    rw [List.isEmpty_iff, List.append_eq_nil_iff, List.reverse_eq_nil_iff] at h
    exact nonempty (by simp [h.1, h.2])
  rw [scanName_braceFree_append ⟨opening, closing⟩, scanName, if_neg hheld, List.reverse_append,
    List.reverse_reverse]
  rintro tail rfl
  exact apart rfl

/-- Where a token of the grammar is spelled, the scanner takes that token. -/
theorem scanText_spelling_append {reading : Reading} {token : Token} {rest : List Char}
    (grammar : token.InGrammar reading) (apart : token.isPlaceholder → rest.head? ≠ some '}')
    (offset : ℕ) :
    scanText reading offset (token.spelling ++ rest) =
      (scanText reading (offset + token.spelling.length) rest).map (token :: ·) := by
  cases grammar with
  | @plain reading c backslash opening closing =>
    rw [Token.spelling, List.singleton_append, scanText]
    · rfl
    all_goals simp_all
  | plainBrace brace =>
    rcases brace with rfl | rfl
    · rw [Token.spelling, List.singleton_append, scanText]
      rfl
    · rw [Token.spelling, List.singleton_append, scanText]
      rfl
  | tab => simp [Token.spelling, scanText, controlEscape?]
  | carriageReturn => simp [Token.spelling, scanText, controlEscape?]
  | newline => simp [Token.spelling, scanText, controlEscape?]
  | nul => simp [Token.spelling, scanText, controlEscape?]
  | codePoint first second third fourth scalar =>
    have h := (@inGrammar_codePoint_iff reading _ _ _ _ _).2
      (.codePoint first second third fourth scalar)
    simp [Token.spelling, scanText, h]
  | openingBrace => simp [Token.spelling, scanText]
  | closingBrace => simp [Token.spelling, scanText]
  | @placeholder name nonempty opening closing =>
    have hoffset : offset + 1 + name.length + 1 = offset + ('{' :: (name ++ ['}'])).length := by
      simp only [List.length_cons, List.length_append, List.length_nil]
      omega
    rw [Token.spelling, List.cons_append, List.append_assoc, List.singleton_append, scanText,
      scanName_append (by simpa using nonempty) opening closing (apart rfl), hoffset]
    · rfl
    · intro tail h
      cases name <;> simp_all

/-- The scanner reads every spelled text as its tokens. -/
theorem scanText_eq_ok_of_spelled {reading : Reading} {tokens : List Token} {text : List Char}
    (h : Spelled reading tokens text) (offset : ℕ) : scanText reading offset text = .ok tokens := by
  induction h generalizing offset with
  | nil => rw [scanText]
  | cons grammar apart rest ih =>
    rw [scanText_spelling_append grammar apart, ih]
    rfl

end Phrasebook
