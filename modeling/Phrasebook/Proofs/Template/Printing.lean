import Phrasebook.Proofs.Template.Meaning

/-!
# Template texts of phrases

A phrase is written as a template text by putting its placeholders in braces, doubling the braces of
its literals and writing their backslashes by code point. Only one character needs its neighbour: a
closing brace at the beginning of a literal would be read together with the brace that closes the
placeholder before it, and is written by code point as well. Reading the text gives the phrase back,
for exactly those phrases that can be read at all.
-/

namespace Phrasebook

def printChar : Char → List Char
  | '{' => ['{', '{']
  | '}' => ['}', '}']
  | '\\' => ['\\', 'u', '0', '0', '5', 'C']
  | c => [c]

/-- The characters of a literal. A closing brace at its beginning is kept apart from a placeholder
that stands before it. -/
def printLiteral (behindPlaceholder : Bool) : List Char → List Char
  | [] => []
  | c :: rest =>
    (if behindPlaceholder ∧ c = '}' then ['\\', 'u', '0', '0', '7', 'D'] else printChar c) ++
      rest.flatMap printChar

def Piece.print (behindPlaceholder : Bool) : Piece → List Char
  | .literal text => printLiteral behindPlaceholder text.toList
  | .placeholder name => '{' :: (name.toList ++ ['}'])

def printPieces (behindPlaceholder : Bool) : List Piece → List Char
  | [] => []
  | piece :: rest => piece.print behindPlaceholder ++ printPieces (!piece.isLiteral) rest

def templateText (pieces : List Piece) : String := String.ofList (printPieces false pieces)

/-- Pieces that a template text can stand for. -/
structure Printable (pieces : List Piece) : Prop where
  merged : Merged pieces
  named : ∀ name, .placeholder name ∈ pieces → name ≠ "" ∧ BraceFree name.toList

/-! ## Meanings and their spellings -/

/-- A template text that spells a sequence of symbols. -/
def Means (symbols : List Symbol) (text : List Char) : Prop :=
  ∃ tokens, Spelled .template tokens text ∧ tokens.map Token.symbol = symbols

/-- One of the ways to write a character of a literal. -/
def WritesChar (c : Char) (letters : List Char) : Prop :=
  ∃ token : Token, token.InGrammar .template ∧ token.isPlaceholder = false ∧
    token.spelling = letters ∧ token.symbol = .char c

theorem writesChar_code {a b c d meaning : Char}
    (h : (hexNumber? [a, b, c, d]).bind scalar? = some meaning) :
    WritesChar meaning ['\\', 'u', a, b, c, d] :=
  ⟨_, inGrammar_codePoint_iff.1 h, rfl, rfl, rfl⟩

theorem writesChar_printChar (c : Char) : WritesChar c (printChar c) := by
  unfold printChar
  split
  · exact ⟨_, .openingBrace, rfl, rfl, rfl⟩
  · exact ⟨_, .closingBrace, rfl, rfl, rfl⟩
  · exact writesChar_code (by decide)
  · next hopening hclosing hbackslash =>
    exact ⟨_, .plain hbackslash hopening hclosing, rfl, rfl, rfl⟩

namespace Means

variable {symbols : List Symbol} {text : List Char}

theorem char {c : Char} {letters : List Char} (hc : WritesChar c letters)
    (h : Means symbols text) : Means (.char c :: symbols) (letters ++ text) := by
  obtain ⟨token, grammar, hplaceholder, rfl, hsymbol⟩ := hc
  obtain ⟨tokens, spelled, rfl⟩ := h
  refine ⟨token :: tokens, .cons grammar (fun h ↦ ?_) spelled, by rw [List.map_cons, hsymbol]⟩
  rw [hplaceholder] at h
  cases h

theorem chars (h : Means symbols text) (cs : List Char) :
    Means (cs.map .char ++ symbols) (cs.flatMap printChar ++ text) := by
  induction cs with
  | nil => exact h
  | cons c cs ih =>
    rw [List.flatMap_cons, List.append_assoc]
    exact ih.char (writesChar_printChar c)

theorem literal (h : Means symbols text) (behindPlaceholder : Bool) (cs : List Char) :
    Means (cs.map .char ++ symbols) (printLiteral behindPlaceholder cs ++ text) := by
  cases cs with
  | nil => exact h
  | cons c cs =>
    rw [printLiteral, List.append_assoc]
    refine (h.chars cs).char ?_
    split
    · next hclosing =>
      rw [hclosing.2]
      exact writesChar_code (by decide)
    · exact writesChar_printChar c

theorem placeholder {name : String} (hname : name ≠ "" ∧ BraceFree name.toList)
    (apart : text.head? ≠ some '}') (h : Means symbols text) :
    Means (.name name :: symbols) ('{' :: (name.toList ++ ['}']) ++ text) := by
  obtain ⟨tokens, spelled, rfl⟩ := h
  obtain ⟨nonempty, free⟩ := hname
  have grammar : (Token.placeholder name.toList).InGrammar .template :=
    .placeholder (by simpa using nonempty) free.opening free.closing
  refine ⟨_, .cons grammar (fun _ ↦ apart) spelled, ?_⟩
  rw [List.map_cons, Token.symbol, String.ofList_toList]

end Means

/-! ## The text of a phrase is read as the phrase -/

theorem Printable.tail {piece : Piece} {pieces : List Piece} (h : Printable (piece :: pieces)) :
    Printable pieces :=
  ⟨h.merged.tail, fun name hmem ↦ h.named name (List.mem_cons_of_mem _ hmem)⟩

theorem head?_printChar (c : Char) : (printChar c).head? = some c := by
  unfold printChar
  split <;> rfl

theorem head?_printLiteral_ne {cs : List Char} (nonempty : cs ≠ []) (rest : List Char) :
    (printLiteral true cs ++ rest).head? ≠ some '}' := by
  cases cs with
  | nil => exact absurd rfl nonempty
  | cons c cs =>
    rw [printLiteral]
    split
    · simp
    · next hclosing =>
      rw [List.append_assoc, List.head?_append, head?_printChar, Option.some_or]
      simpa using hclosing

/-- Behind a placeholder no text begins with a closing brace. -/
theorem Printable.head?_printPieces_ne {pieces : List Piece} (h : Printable pieces) :
    (printPieces true pieces).head? ≠ some '}' := by
  cases pieces with
  | nil => exact nofun
  | cons piece pieces =>
    cases piece with
    | placeholder name => simp [printPieces, Piece.print]
    | literal text =>
      have nonempty : text.toList ≠ [] := by simpa using h.merged.head_ne_empty
      exact head?_printLiteral_ne nonempty _

theorem Printable.means {pieces : List Piece} (h : Printable pieces) (behindPlaceholder : Bool) :
    Means (pieces.flatMap Piece.symbols) (printPieces behindPlaceholder pieces) := by
  induction pieces generalizing behindPlaceholder with
  | nil => exact ⟨[], .nil, rfl⟩
  | cons piece pieces ih =>
    rw [List.flatMap_cons, printPieces]
    cases piece with
    | literal text => exact (ih h.tail false).literal behindPlaceholder text.toList
    | placeholder name =>
      exact (ih h.tail true).placeholder (h.named name List.mem_cons_self)
        h.tail.head?_printPieces_ne

theorem Printable.read_templateText {pieces : List Piece} (h : Printable pieces) (name : String) :
    Phrase.read .template name (templateText pieces) = .ok (.defined name pieces) := by
  obtain ⟨tokens, spelled, hsymbols⟩ := h.means false
  refine read_eq_ok_iff_scan.2 ⟨tokens, ?_, ?_⟩
  · rw [templateText, String.toList_ofList, scanText_eq_ok_of_spelled spelled]
  · rw [joinTokens_eq_iff.2 ⟨h.merged, hsymbols.symm⟩]

theorem printable_of_read {reading : Reading} {name text : String} {phrase : Phrase}
    (h : Phrase.read reading name text = .ok phrase) : Printable phrase.pieces := by
  obtain ⟨tokens, hscan, rfl⟩ := read_eq_ok_iff_scan.1 h
  have spelled := spelled_of_scanText_eq_ok hscan
  refine ⟨merged_joinTokens [] tokens, ?_⟩
  intro id hmem
  obtain ⟨letters, hletters, rfl⟩ := placeholder_mem_joinTokens_iff.1 hmem
  cases spelled.inGrammar hletters with
  | placeholder nonempty opening closing =>
    rw [String.toList_ofList]
    exact ⟨ofList_ne_empty (by simpa using nonempty), opening, closing⟩

theorem printable_raw (name text : String) : Printable (Phrase.raw name text).pieces := by
  change Printable (if text.isEmpty then [] else [.literal text])
  split
  · exact ⟨.nil, fun _ h ↦ absurd h List.not_mem_nil⟩
  · next nonempty => exact ⟨.singleton (by simpa using nonempty), by simp⟩

/-- Printing and reading are inverse. The template text of printable pieces is read as these pieces;
what is read from a text, in either way, or taken as it stands has printable pieces, so that reading
its template text gives the phrase again. -/
theorem read_templateText_eq (name : String) :
    (∀ pieces, Printable pieces →
      Phrase.read .template name (templateText pieces) = .ok (.defined name pieces)) ∧
    (∀ reading text phrase, Phrase.read reading name text = .ok phrase →
      Printable phrase.pieces ∧
        Phrase.read .template name (templateText phrase.pieces) = .ok phrase) ∧
    ∀ text, Printable (Phrase.raw name text).pieces ∧
      Phrase.read .template name (templateText (Phrase.raw name text).pieces) =
        .ok (Phrase.raw name text) := by
  refine ⟨fun pieces h ↦ h.read_templateText name, ?_, ?_⟩
  · intro reading text phrase h
    have printable := printable_of_read h
    obtain ⟨tokens, -, rfl⟩ := read_eq_ok_iff_scan.1 h
    exact ⟨printable, printable.read_templateText name⟩
  · intro text
    have printable := printable_raw name text
    exact ⟨printable, printable.read_templateText name⟩

theorem read_templateText_menu :
    let pieces : List Piece :=
      [.placeholder "name", .literal "\x7d\x7d\\ \x7b", .placeholder "cook"]
    Printable pieces ∧
      templateText pieces = "{name}\\u007D\x7d\x7d\\u005C \x7b\x7b{cook}" ∧
      Phrase.read .template "menu" (templateText pieces) = .ok (.defined "menu" pieces) := by
  intro pieces
  have hread : Phrase.read .template "menu" "{name}\\u007D\x7d\x7d\\u005C \x7b\x7b{cook}" =
      .ok (.defined "menu" pieces) := rfl
  obtain ⟨printable, -⟩ := (read_templateText_eq "menu").2.1 _ _ _ hread
  exact ⟨printable, rfl, (read_templateText_eq "menu").1 pieces printable⟩

end Phrasebook
