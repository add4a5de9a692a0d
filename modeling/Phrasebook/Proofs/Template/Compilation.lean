import Mathlib.Data.List.Basic
import Phrasebook.Template.Compilation

/-!
# What compilations come to

A compilation scans its text on its own and asks the interner for names on the way. Whatever shares
it gets, it comes to the phrase that is read from the text, with the shares in place of the names of
its placeholders, or to the fault of the text. It asks at most once for each character.
-/

namespace Phrasebook

namespace Compilation

/-- What a compilation comes to if every text has the given share. -/
def outcome (share : String → InternedName) :
    Compilation → Except TemplateError InternedPhrase
  | finished result => result
  | interns text resume => (resume (share text)).outcome share

/-- At most so many names are interned until the end, whatever shares are handed out. -/
inductive Within : ℕ → Compilation → Prop where
  | finished {n : ℕ} (result : Except TemplateError InternedPhrase) : Within n (.finished result)
  | interns {n : ℕ} {text : String} {resume : InternedName → Compilation}
      (rest : ∀ name, Within n (resume name)) : Within (n + 1) (.interns text resume)

theorem Within.mono {n m : ℕ} {compilation : Compilation} (h : compilation.Within n)
    (le : n ≤ m) : compilation.Within m := by
  induction h generalizing m with
  | finished result => exact .finished result
  | interns _ ih =>
    obtain ⟨k, rfl⟩ := Nat.exists_eq_add_of_le' (Nat.one_le_of_lt le)
    exact .interns fun name ↦ ih name (Nat.le_of_succ_le_succ le)

theorem Within.rest {n : ℕ} {text : String} {resume : InternedName → Compilation}
    (h : (Compilation.interns text resume).Within n) :
    ∃ k, n = k + 1 ∧ ∀ name, (resume name).Within k := by
  cases h with
  | interns rest => exact ⟨_, rfl, rest⟩

theorem Within.eq_finished {compilation : Compilation} (h : compilation.Within 0) :
    ∃ result, compilation = .finished result := by
  cases h with
  | finished result => exact ⟨result, rfl⟩

end Compilation

namespace Assembly

/-! ## Assemblies and the tokens behind them -/

/-- What an assembly comes to with the tokens that follow, or with the fault behind it. -/
def complete (share : String → InternedName) (assembly : Assembly) :
    Except Fault (List Token) → Except TemplateError InternedPhrase
  | .ok tokens => .ok
    { name := assembly.key
      pieces := assembly.pieces.reverse ++ (joinTokens assembly.run tokens).map (Piece.link share) }
  | .error fault => .error (fault.within assembly.key)

/-- What compiling from a certain place on has to do with scanning from there: it comes to the
tokens that are scanned, and no more names are interned than characters are left. -/
structure Settles (assembly : Assembly) (n : ℕ) (scanned : Except Fault (List Token))
    (compilation : Compilation) : Prop where
  within : compilation.Within n
  outcome : ∀ share, compilation.outcome share = assembly.complete share scanned

variable {assembly : Assembly} {n m : ℕ} {scanned : Except Fault (List Token)}
  {compilation : Compilation}

theorem reverse_flushed (share : String → InternedName) (assembly : Assembly)
    (pieces : List Piece) :
    assembly.flushed.reverse ++ pieces.map (Piece.link share) =
      assembly.pieces.reverse ++
        (Piece.literalOnto assembly.run.reverse pieces).map (Piece.link share) := by
  rw [flushed, Piece.literalOnto, List.isEmpty_reverse]
  split
  · rfl
  · rw [List.reverse_cons, List.append_assoc, List.map_cons]
    rfl

theorem complete_addName (share : String → InternedName) (assembly : Assembly) (name : List Char)
    (scanned : Except Fault (List Token)) :
    (assembly.addName (share (String.ofList name))).complete share scanned =
      assembly.complete share (scanned.map (.placeholder name :: ·)) := by
  cases scanned with
  | error fault => rfl
  | ok tokens =>
    have flushed := reverse_flushed share assembly
      (.placeholder (String.ofList name) :: joinTokens [] tokens)
    rw [Except.map, complete, complete, joinTokens, ← flushed, addName, List.reverse_cons,
      List.append_assoc, List.map_cons]
    rfl

theorem settles_finish (assembly : Assembly) (n : ℕ) :
    assembly.Settles n (.ok []) assembly.finish := by
  refine ⟨.finished _, fun share ↦ ?_⟩
  have flushed := reverse_flushed share assembly []
  rw [List.map_nil, List.append_nil] at flushed
  rw [finish, Compilation.outcome, flushed, complete, joinTokens]

@[simp] theorem settles_refuse (assembly : Assembly) (n : ℕ) (fault : Fault) :
    assembly.Settles n (.error fault) (assembly.refuse fault) :=
  ⟨.finished _, fun _ ↦ rfl⟩

namespace Settles

theorem mono (h : assembly.Settles n scanned compilation) (le : n ≤ m) :
    assembly.Settles m scanned compilation :=
  ⟨h.within.mono le, h.outcome⟩

/-- A token that stands for one character. -/
theorem char {c : Char} {token : Token}
    (h : (assembly.addChar c).Settles n scanned compilation)
    (joins : ∀ run rest, joinTokens run (token :: rest) = joinTokens (c :: run) rest)
    (le : n ≤ m) : assembly.Settles m (scanned.map (token :: ·)) compilation := by
  refine ⟨h.within.mono le, fun share ↦ ?_⟩
  rw [h.outcome]
  cases scanned with
  | error fault => rfl
  | ok tokens =>
    rw [Except.map, complete, complete, joins]
    rfl

theorem name {resume : InternedName → Compilation} {name : List Char}
    (h : ∀ shared, (assembly.addName shared).Settles n scanned (resume shared)) :
    assembly.Settles (n + 1) (scanned.map (.placeholder name :: ·))
      (.interns (String.ofList name) resume) := by
  refine ⟨.interns fun shared ↦ (h shared).within, fun share ↦ ?_⟩
  rw [Compilation.outcome, (h _).outcome, complete_addName]

end Settles

/-! ## Compiling follows scanning

Both read on by the same cases: a text is refused for the same fault, or the same token is taken
off it.
-/

attribute [local simp] scanText scanName readText readName

def SettlesText (reading : Reading) (offset : ℕ) (text : List Char) : Prop :=
  ∀ assembly : Assembly, assembly.Settles text.length (scanText reading offset text)
    (assembly.readText reading offset text)

def SettlesName (start : ℕ) (name : List Char) (offset : ℕ) (text : List Char) : Prop :=
  ∀ assembly : Assembly, assembly.Settles text.length (scanName start name offset text)
    (assembly.readName start name offset text)

namespace SettlesText

variable {reading : Reading} {offset : ℕ} {a b c d letter meaning : Char} {rest : List Char}

theorem finish : SettlesText reading offset [] := by
  intro assembly
  rw [scanText, readText]
  exact assembly.settles_finish _

theorem dangling : SettlesText reading offset ['\\'] := fun assembly ↦ by simp

theorem codePoint (known : (hexNumber? [a, b, c, d]).bind scalar? = some meaning)
    (ih : SettlesText reading (offset + 6) rest) :
    SettlesText reading offset ('\\' :: 'u' :: a :: b :: c :: d :: rest) := by
  intro assembly
  rw [scanText, readText, known]
  exact (ih _).char (fun _ _ ↦ rfl) (Nat.le_add_right _ 6)

theorem noCodePoint (unknown : (hexNumber? [a, b, c, d]).bind scalar? = none) :
    SettlesText reading offset ('\\' :: 'u' :: a :: b :: c :: d :: rest) :=
  fun assembly ↦ by simp [unknown]

theorem shortCodePoint (short : ∀ a b c d more, rest = a :: b :: c :: d :: more → False) :
    SettlesText reading offset ('\\' :: 'u' :: rest) :=
  fun assembly ↦ by simp

theorem control (other : letter ≠ 'u') (known : controlEscape? letter = some meaning)
    (ih : SettlesText reading (offset + 2) rest) :
    SettlesText reading offset ('\\' :: letter :: rest) := by
  intro assembly
  rw [scanText, readText, known]
  · exact (ih _).char (fun _ _ ↦ rfl) (Nat.le_add_right _ 2)
  all_goals intros; contradiction

theorem unsupported (other : letter ≠ 'u') (unknown : controlEscape? letter = none) :
    SettlesText reading offset ('\\' :: letter :: rest) :=
  fun assembly ↦ by simp [other, unknown]

theorem plainBrace (brace : c = '{' ∨ c = '}')
    (ih : SettlesText .escapesOnly (offset + 1) rest) :
    SettlesText .escapesOnly offset (c :: rest) := by
  intro assembly
  obtain rfl | rfl := brace
  all_goals
    rw [scanText, readText]
    exact (ih _).char (fun _ _ ↦ rfl) (Nat.le_succ _)

theorem doubledBrace (brace : c = '{' ∨ c = '}')
    (ih : SettlesText .template (offset + 2) rest) :
    SettlesText .template offset (c :: c :: rest) := by
  intro assembly
  obtain rfl | rfl := brace
  all_goals
    rw [scanText, readText]
    exact (ih _).char (fun _ _ ↦ rfl) (Nat.le_add_right _ 2)

theorem opening (single : ∀ more, rest = '{' :: more → False)
    (ih : SettlesName offset [] (offset + 1) rest) :
    SettlesText .template offset ('{' :: rest) := by
  intro assembly
  rw [scanText, readText]
  · exact (ih assembly).mono (Nat.le_succ _)
  all_goals assumption

theorem unmatched (single : ∀ more, rest = '}' :: more → False) :
    SettlesText .template offset ('}' :: rest) :=
  fun assembly ↦ by simp

theorem plain (backslash : c ≠ '\\') (opening : c ≠ '{') (closing : c ≠ '}')
    (ih : SettlesText reading (offset + 1) rest) : SettlesText reading offset (c :: rest) := by
  intro assembly
  rw [scanText, readText]
  · exact (ih _).char (fun _ _ ↦ rfl) (Nat.le_succ _)
  all_goals intros; contradiction

end SettlesText

namespace SettlesName

variable {start offset : ℕ} {c : Char} {name rest : List Char}

theorem unterminated : SettlesName start name offset [] := fun assembly ↦ by simp

theorem nested : SettlesName start name offset ('{' :: rest) := fun assembly ↦ by simp

theorem closedTwice : SettlesName start name offset ('}' :: '}' :: rest) :=
  fun assembly ↦ by simp

theorem unnamed (single : ∀ more, rest = '}' :: more → False) (empty : name.isEmpty = true) :
    SettlesName start name offset ('}' :: rest) :=
  fun assembly ↦ by simp [empty]

/-- The name is interned here, and the rest settles whatever share in it is handed out. -/
theorem named (single : ∀ more, rest = '}' :: more → False) (nonempty : ¬ name.isEmpty = true)
    (ih : SettlesText .template (offset + 1) rest) :
    SettlesName start name offset ('}' :: rest) := by
  intro assembly
  rw [scanName, readName, if_neg nonempty, if_neg nonempty]
  · exact .name fun shared ↦ ih _
  all_goals assumption

theorem letter (opening : c ≠ '{') (closing : c ≠ '}')
    (ih : SettlesName start (c :: name) (offset + 1) rest) :
    SettlesName start name offset (c :: rest) := by
  intro assembly
  rw [scanName, readName]
  · exact (ih assembly).mono (Nat.le_succ _)
  all_goals intros; contradiction

end SettlesName

/-- The cases are those of the scanner, outside a placeholder first and then inside one. -/
theorem settles_read : (∀ reading offset text, SettlesText reading offset text) ∧
    ∀ start name offset text, SettlesName start name offset text := by
  refine scanText.mutual_induct SettlesText SettlesName
    (fun _ _ ↦ .finish) (fun _ _ ↦ .dangling) (fun _ _ _ _ _ _ _ _ ↦ .codePoint)
    (fun _ _ _ _ _ _ _ ↦ .noCodePoint) (fun _ _ _ ↦ .shortCodePoint)
    (fun _ _ _ _ _ other _ ↦ .control other) (fun _ _ _ _ _ ↦ .unsupported)
    (fun _ _ ↦ .plainBrace (.inl rfl)) (fun _ _ ↦ .doubledBrace (.inl rfl))
    (fun _ _ ↦ .opening) (fun _ _ ↦ .plainBrace (.inr rfl))
    (fun _ _ ↦ .doubledBrace (.inr rfl)) (fun _ _ ↦ .unmatched) ?plain
    (fun _ _ _ ↦ .unterminated) (fun _ _ _ _ ↦ .nested) (fun _ _ _ _ ↦ .closedTwice)
    (fun _ _ _ _ ↦ .unnamed) (fun _ _ _ _ ↦ .named)
    (fun _ _ _ _ _ opening _ ↦ .letter opening)
  case plain =>
    intro reading offset c rest last _ _ escape opening closing ih
    have backslash : c ≠ '\\' := by
      rintro rfl
      cases rest with
      | nil => exact last rfl rfl
      | cons letter rest => exact escape letter rest rfl rfl
    exact .plain backslash opening closing ih

end Assembly

namespace Compilation

theorem outcome_ofText (share : String → InternedName) (reading : Reading) (name text : String) :
    (ofText reading name text).outcome share =
      (Phrase.read reading name text).map (Phrase.link share) := by
  rw [ofText, (Assembly.settles_read.1 reading 0 text.toList _).outcome, Phrase.read]
  cases scanText reading 0 text.toList <;> rfl

theorem within_ofText (reading : Reading) (name text : String) :
    (ofText reading name text).Within text.length := by
  rw [← String.length_toList]
  exact (Assembly.settles_read.1 reading 0 text.toList _).within

end Compilation

end Phrasebook
