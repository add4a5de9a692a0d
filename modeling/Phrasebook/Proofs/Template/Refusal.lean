import Mathlib.Data.List.Basic
import Phrasebook.Proofs.Template.Grammar

/-!
# Where template texts are refused

The counterpart of the grammar for texts that cannot be read. `Flaw` says what stands at a place
where no token can be taken, and how far from there the fault points. At each place of a text there
is a token or a flaw, so that every text is spelled either to its end or up to a flaw. The scanner
gets through what is spelled and reports the flaw it then meets: it reads exactly the spelled texts,
each as the tokens that spell it, and refuses exactly the others.
-/

namespace Phrasebook

/-! ## Flaws -/

/-- What begins a text of which no token can be read, the kind of the fault, and the number of
characters between the beginning and the place of the fault. Only a fault inside an open placeholder
lies behind the beginning. -/
inductive Flaw : Reading → FaultKind → ℕ → List Char → Prop where
  | danglingEscape {reading : Reading} : Flaw reading .danglingEscape 0 ['\\']
  | unsupportedEscape {reading : Reading} {letter : Char} {rest : List Char} (code : letter ≠ 'u')
      (unknown : controlEscape? letter = none) :
      Flaw reading (.unsupportedEscape letter) 0 ('\\' :: letter :: rest)
  | invalidUnicodeEscape {reading : Reading} {rest : List Char}
      (digits : ∀ a b c d tail, rest = a :: b :: c :: d :: tail → hexNumber? [a, b, c, d] = none) :
      Flaw reading .invalidUnicodeEscape 0 ('\\' :: 'u' :: rest)
  | invalidCodePoint {reading : Reading} {a b c d : Char} {rest : List Char} {n : ℕ}
      (digits : hexNumber? [a, b, c, d] = some n) (surrogate : scalar? n = none) :
      Flaw reading (.invalidCodePoint n) 0 ('\\' :: 'u' :: a :: b :: c :: d :: rest)
  | unmatchedClose {rest : List Char} (single : rest.head? ≠ some '}') :
      Flaw .template .unmatchedClose 0 ('}' :: rest)
  | unterminatedPlaceholder {name : List Char} (free : BraceFree name) :
      Flaw .template .unterminatedPlaceholder 0 ('{' :: name)
  | emptyPlaceholder {rest : List Char} (single : rest.head? ≠ some '}') :
      Flaw .template .emptyPlaceholder 0 ('{' :: '}' :: rest)
  | nestedPlaceholder {name rest : List Char} (nonempty : name ≠ []) (free : BraceFree name) :
      Flaw .template .nestedPlaceholder (name.length + 1) ('{' :: (name ++ '{' :: rest))
  | escapedCloseInPlaceholder {name rest : List Char} (free : BraceFree name) :
      Flaw .template .escapedCloseInPlaceholder (name.length + 1)
        ('{' :: (name ++ '}' :: '}' :: rest))

/-! ## A token or a flaw -/

/-- A text that begins with a token of the grammar. -/
def BeginsWithToken (reading : Reading) (text : List Char) : Prop :=
  ∃ (token : Token) (rest : List Char), text = token.spelling ++ rest ∧ token.InGrammar reading ∧
    (token.isPlaceholder → rest.head? ≠ some '}')

theorem exists_braceFree_prefix (text : List Char) :
    ∃ name rest, text = name ++ rest ∧ BraceFree name ∧
      (rest = [] ∨ rest.head? = some '{' ∨ rest.head? = some '}') := by
  induction text with
  | nil => exact ⟨[], [], rfl, ⟨List.not_mem_nil, List.not_mem_nil⟩, .inl rfl⟩
  | cons c text ih =>
    by_cases hbrace : c = '{' ∨ c = '}'
    · refine ⟨[], c :: text, rfl, ⟨List.not_mem_nil, List.not_mem_nil⟩, .inr ?_⟩
      simpa using hbrace
    · obtain ⟨name, rest, rfl, free, hrest⟩ := ih
      rw [not_or] at hbrace
      refine ⟨c :: name, rest, rfl, ⟨?_, ?_⟩, hrest⟩
      · exact List.not_mem_cons_of_ne_of_not_mem (Ne.symm hbrace.1) free.opening
      · exact List.not_mem_cons_of_ne_of_not_mem (Ne.symm hbrace.2) free.closing

theorem token_or_flaw_of_code (reading : Reading) (rest : List Char) :
    BeginsWithToken reading ('\\' :: 'u' :: rest) ∨
      ∃ kind distance, Flaw reading kind distance ('\\' :: 'u' :: rest) := by
  by_cases hdigits : ∀ a b c d tail, rest = a :: b :: c :: d :: tail →
      hexNumber? [a, b, c, d] = none
  · exact .inr ⟨_, _, .invalidUnicodeEscape hdigits⟩
  · push Not at hdigits
    obtain ⟨a, b, c, d, tail, rfl, hdigits⟩ := hdigits
    obtain ⟨n, hn⟩ := Option.ne_none_iff_exists'.1 hdigits
    cases hscalar : scalar? n with
    | none => exact .inr ⟨_, _, .invalidCodePoint hn hscalar⟩
    | some meaning =>
      have hcode : (hexNumber? [a, b, c, d]).bind scalar? = some meaning := by
        rw [hn, Option.bind_some, hscalar]
      exact .inl ⟨_, tail, rfl, inGrammar_codePoint_iff.1 hcode, nofun⟩

theorem token_or_flaw_of_backslash (reading : Reading) (rest : List Char) :
    BeginsWithToken reading ('\\' :: rest) ∨
      ∃ kind distance, Flaw reading kind distance ('\\' :: rest) := by
  cases rest with
  | nil => exact .inr ⟨_, _, .danglingEscape⟩
  | cons letter rest =>
    by_cases hcode : letter = 'u'
    · subst hcode
      exact token_or_flaw_of_code reading rest
    · cases hcontrol : controlEscape? letter with
      | none => exact .inr ⟨_, _, .unsupportedEscape hcode hcontrol⟩
      | some meaning => exact .inl ⟨_, rest, rfl, inGrammar_control_iff.1 hcontrol, nofun⟩

/-- Behind an opening brace, the first brace decides. -/
theorem token_or_flaw_of_opening (rest : List Char) :
    BeginsWithToken .template ('{' :: rest) ∨
      ∃ kind distance, Flaw .template kind distance ('{' :: rest) := by
  obtain ⟨name, rest, rfl, free, rfl | hopening | hclosing⟩ := exists_braceFree_prefix rest
  · rw [List.append_nil]
    exact .inr ⟨_, _, .unterminatedPlaceholder free⟩
  · obtain ⟨rest, rfl⟩ := List.head?_eq_some_iff.1 hopening
    by_cases hname : name = []
    · subst hname
      exact .inl ⟨.doubled '{', rest, rfl, .openingBrace, nofun⟩
    · exact .inr ⟨_, _, .nestedPlaceholder hname free⟩
  · obtain ⟨rest, rfl⟩ := List.head?_eq_some_iff.1 hclosing
    by_cases hsingle : rest.head? = some '}'
    · obtain ⟨rest, rfl⟩ := List.head?_eq_some_iff.1 hsingle
      exact .inr ⟨_, _, .escapedCloseInPlaceholder free⟩
    · by_cases hname : name = []
      · subst hname
        exact .inr ⟨_, _, .emptyPlaceholder hsingle⟩
      · refine .inl ⟨.placeholder name, rest, ?_, .placeholder hname free.opening free.closing,
          fun _ ↦ hsingle⟩
        simp [Token.spelling]

theorem token_or_flaw_of_closing (rest : List Char) :
    BeginsWithToken .template ('}' :: rest) ∨
      ∃ kind distance, Flaw .template kind distance ('}' :: rest) := by
  by_cases hsingle : rest.head? = some '}'
  · obtain ⟨rest, rfl⟩ := List.head?_eq_some_iff.1 hsingle
    exact .inl ⟨.doubled '}', rest, rfl, .closingBrace, nofun⟩
  · exact .inr ⟨_, _, .unmatchedClose hsingle⟩

/-- At every place before the end of a text there is either a token or a flaw. -/
theorem token_or_flaw (reading : Reading) (c : Char) (rest : List Char) :
    BeginsWithToken reading (c :: rest) ∨
      ∃ kind distance, Flaw reading kind distance (c :: rest) := by
  by_cases hbackslash : c = '\\'
  · subst hbackslash
    exact token_or_flaw_of_backslash reading rest
  by_cases hbrace : c = '{' ∨ c = '}'
  · cases reading with
    | escapesOnly => exact .inl ⟨.plain c, rest, rfl, .plainBrace hbrace, nofun⟩
    | template =>
      rcases hbrace with rfl | rfl
      · exact token_or_flaw_of_opening rest
      · exact token_or_flaw_of_closing rest
  · rw [not_or] at hbrace
    exact .inl ⟨.plain c, rest, rfl, .plain hbackslash hbrace.1 hbrace.2, nofun⟩

/-! ## Texts that are spelled up to a flaw -/

/-- Tokens and a text that may follow them: no closing brace stands directly behind a
placeholder. -/
def Apart (tokens : List Token) (text : List Char) : Prop :=
  ∀ token ∈ tokens.getLast?, token.isPlaceholder → text.head? ≠ some '}'

theorem Apart.of_opening {tokens : List Token} {text : List Char} (h : text.head? = some '{') :
    Apart tokens text := by
  intro _ _ _
  rw [h]
  decide

/-- A text that is spelled up to a flaw, the kind of the fault and the place it points to. -/
inductive Refused (reading : Reading) : FaultKind → ℕ → List Char → Prop where
  | intro {tokens : List Token} {before tail : List Char} {kind : FaultKind} {distance : ℕ}
      (spelled : Spelled reading tokens before) (apart : Apart tokens tail)
      (flaw : Flaw reading kind distance tail) :
      Refused reading kind (before.length + distance) (before ++ tail)

theorem Token.spelling_ne_nil (token : Token) : token.spelling ≠ [] := by
  cases token <;> simp [Token.spelling]

/-- Whether a token may stand in front of a spelled text and its rest is decided by the text, or by
the rest where the text is empty. -/
theorem Spelled.apart_cons_iff {reading : Reading} {token : Token} {tokens : List Token}
    {text rest : List Char} (spelled : Spelled reading tokens text) :
    ((token.isPlaceholder → text.head? ≠ some '}') ∧ Apart (token :: tokens) rest) ↔
      (token.isPlaceholder → (text ++ rest).head? ≠ some '}') ∧ Apart tokens rest := by
  cases spelled with
  | nil => simp [Apart]
  | @cons next tokens text =>
    have hlast : (token :: next :: tokens).getLast? = (next :: tokens).getLast? :=
      List.getLast?_cons_cons
    rw [List.append_assoc, List.head?_append_of_ne_nil _ next.spelling_ne_nil,
      List.head?_append_of_ne_nil _ next.spelling_ne_nil, Apart, hlast, Apart]

/-- The scanner gets through a spelled text and goes on with the rest. -/
theorem scanText_append {reading : Reading} {tokens : List Token} {text rest : List Char}
    (spelled : Spelled reading tokens text) (apart : Apart tokens rest) (offset : ℕ) :
    scanText reading offset (text ++ rest) =
      (scanText reading (offset + text.length) rest).map (tokens ++ ·) := by
  induction spelled generalizing offset with
  | nil =>
    rw [List.nil_append, List.length_nil, Nat.add_zero]
    cases scanText reading offset rest <;> rfl
  | @cons token tokens text grammar own spelled ih =>
    obtain ⟨own, apart⟩ := spelled.apart_cons_iff.1 ⟨own, apart⟩
    rw [List.append_assoc, scanText_spelling_append grammar own, ih apart, List.length_append,
      Nat.add_assoc]
    cases scanText reading (offset + (token.spelling.length + text.length)) rest <;> rfl

/-- An opening brace that is not doubled opens a placeholder. -/
theorem scanText_opening_append {name rest : List Char} (free : BraceFree name)
    (single : name = [] → rest.head? ≠ some '{') (offset : ℕ) :
    scanText .template offset ('{' :: (name ++ rest)) =
      scanName offset name.reverse (offset + (name.length + 1)) rest := by
  rw [scanText, scanName_braceFree_append free, List.append_nil, Nat.add_assoc, Nat.add_comm 1]
  intro tail h
  cases name with
  | nil =>
    rw [List.nil_append] at h
    exact single rfl (by rw [h, List.head?_cons])
  | cons c name =>
    cases h
    exact free.opening List.mem_cons_self

/-- Where a flaw stands, the scanner reports it. -/
theorem scanText_of_flaw {reading : Reading} {kind : FaultKind} {distance : ℕ} {text : List Char}
    (h : Flaw reading kind distance text) (offset : ℕ) :
    scanText reading offset text = .error ⟨offset + distance, kind⟩ := by
  cases h with
  | danglingEscape => rw [scanText, Nat.add_zero]
  | @unsupportedEscape _ letter rest code unknown =>
    rw [scanText, unknown, Nat.add_zero]
    · rfl
    · exact fun _ _ _ _ _ h _ ↦ code h
    · exact code
  | @invalidUnicodeEscape _ rest digits =>
    rcases rest with _ | ⟨a, _ | ⟨b, _ | ⟨c, _ | ⟨d, rest⟩⟩⟩⟩
    case cons.cons.cons.cons =>
      rw [scanText, codePointFault, digits a b c d rest rfl, Nat.add_zero]
      rfl
    all_goals
      rw [scanText, Nat.add_zero]
      simp
  | @invalidCodePoint _ a b c d rest n digits surrogate =>
    rw [scanText, codePointFault, digits, Option.bind_some, surrogate, Nat.add_zero]
    rfl
  | unmatchedClose single =>
    rw [scanText, Nat.add_zero]
    rintro tail rfl
    exact single rfl
  | @unterminatedPlaceholder name free =>
    rw [← List.append_nil name, scanText_opening_append free fun _ ↦ by simp, scanName,
      Nat.add_zero]
  | @emptyPlaceholder rest single =>
    have free : BraceFree [] := ⟨List.not_mem_nil, List.not_mem_nil⟩
    rw [← List.nil_append ('}' :: rest), scanText_opening_append free fun _ ↦ by simp, scanName,
      Nat.add_zero]
    · rfl
    · rintro tail rfl
      exact single rfl
  | nestedPlaceholder nonempty free =>
    rw [scanText_opening_append free fun h ↦ absurd h nonempty, scanName]
  | escapedCloseInPlaceholder free =>
    rw [scanText_opening_append free fun _ ↦ by simp, scanName]

/-! ## Every text is read or refused -/

/-- A spelled token in front of a refused text moves the place of the fault. -/
theorem Refused.cons {reading : Reading} {kind : FaultKind} {place : ℕ} {token : Token}
    {text : List Char} (grammar : token.InGrammar reading)
    (own : token.isPlaceholder → text.head? ≠ some '}') (h : Refused reading kind place text) :
    Refused reading kind (token.spelling.length + place) (token.spelling ++ text) := by
  obtain ⟨spelled, apart, flaw⟩ := h
  obtain ⟨own, apart⟩ := spelled.apart_cons_iff.2 ⟨own, apart⟩
  have h := Refused.intro (.cons grammar own spelled) apart flaw
  rwa [List.length_append, Nat.add_assoc, List.append_assoc] at h

theorem Flaw.refused {reading : Reading} {kind : FaultKind} {distance : ℕ} {text : List Char}
    (h : Flaw reading kind distance text) : Refused reading kind distance text := by
  have h := Refused.intro .nil nofun h
  rwa [List.length_nil, Nat.zero_add, List.nil_append] at h

/-- Every text is spelled to its end or up to a flaw. -/
theorem spelled_or_refused (reading : Reading) (text : List Char) :
    (∃ tokens, Spelled reading tokens text) ∨ ∃ kind place, Refused reading kind place text := by
  -- On the length of the text: behind a token there is less of it left.
  induction hlength : text.length using Nat.strong_induction_on generalizing text with
  | _ length ih =>
    cases text with
    | nil => exact .inl ⟨[], .nil⟩
    | cons c rest =>
      obtain ⟨token, rest', htext, grammar, own⟩ | ⟨kind, distance, flaw⟩ :=
        token_or_flaw reading c rest
      · have hspelling := List.length_pos_iff.2 token.spelling_ne_nil
        have hlt : rest'.length < length := by
          rw [← hlength, htext, List.length_append]
          omega
        rw [htext]
        obtain ⟨tokens, spelled⟩ | ⟨kind, place, refused⟩ := ih _ hlt rest' rfl
        · exact .inl ⟨token :: tokens, .cons grammar own spelled⟩
        · exact .inr ⟨kind, _, refused.cons grammar own⟩
      · exact .inr ⟨kind, distance, flaw.refused⟩

theorem scanText_of_refused {reading : Reading} {kind : FaultKind} {place : ℕ} {text : List Char}
    (h : Refused reading kind place text) (offset : ℕ) :
    scanText reading offset text = .error ⟨offset + place, kind⟩ := by
  obtain ⟨spelled, apart, flaw⟩ := h
  rw [scanText_append spelled apart, scanText_of_flaw flaw, Nat.add_assoc]
  rfl

/-- The scanner reports a fault exactly where a text stops being spelled. -/
theorem scanText_eq_error_iff {reading : Reading} {text : List Char} {fault : Fault} :
    scanText reading 0 text = .error fault ↔ Refused reading fault.kind fault.offset text := by
  constructor
  · intro h
    obtain ⟨tokens, spelled⟩ | ⟨kind, place, refused⟩ := spelled_or_refused reading text
    · rw [scanText_eq_ok_of_spelled spelled] at h
      cases h
    · rw [scanText_of_refused refused, Nat.zero_add] at h
      cases h
      exact refused
  · intro h
    rw [scanText_of_refused h, Nat.zero_add]

/-- Whatever the scanner reads is spelled by the tokens it finds. -/
theorem spelled_of_scanText_eq_ok {reading : Reading} {offset : ℕ} {text : List Char}
    {tokens : List Token} (h : scanText reading offset text = .ok tokens) :
    Spelled reading tokens text := by
  obtain ⟨found, spelled⟩ | ⟨kind, place, refused⟩ := spelled_or_refused reading text
  · rw [scanText_eq_ok_of_spelled spelled] at h
    cases h
    exact spelled
  · rw [scanText_of_refused refused] at h
    cases h

end Phrasebook
