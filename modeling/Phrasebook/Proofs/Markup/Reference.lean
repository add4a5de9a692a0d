import Phrasebook.Markup.Reference
import Phrasebook.Proofs.Text.Utf8

/-!
# Escaped texts

The reserved characters of a text are spelled as references, and reading the references gives the text
back. What is escaped holds none of the characters that end a text or a value.
-/

namespace Phrasebook.Markup

open Phrasebook.Text

/-- Reading a character as it was escaped gives the character. -/
theorem resolveFrom_escapeChar (position : Nat) (c : Char) (rest : List Char) :
    ∃ next, resolveFrom position none (escapeChar c ++ rest) =
      (resolveFrom next none rest).map (c :: ·) := by
  unfold escapeChar
  split
  case h_6 amp _ _ =>
    refine ⟨position + c.utf8Size, ?_⟩
    rw [List.singleton_append, resolveFrom, if_neg amp]
  all_goals exact ⟨_, rfl⟩

theorem resolveFrom_escape (position : Nat) (cs : List Char) :
    resolveFrom position none (cs.flatMap escapeChar) = .ok cs := by
  induction cs generalizing position with
  | nil => rfl
  | cons c cs ih =>
    obtain ⟨next, read⟩ := resolveFrom_escapeChar position c (cs.flatMap escapeChar)
    rw [List.flatMap_cons, read, ih]
    rfl

/-- A text is read back from its references. -/
theorem resolve_escape (s : String) : resolve (escape s) = .ok s := by
  rw [resolve, escape, String.toList_ofList, resolveFrom_escape]
  exact congrArg Except.ok String.ofList_toList

theorem resolveBytes_escape (s : String) : resolveBytes (Utf8.encode (escape s)) = .ok s := by
  rw [resolveBytes, Utf8.decode_encode]
  dsimp only
  rw [resolve_escape]

theorem not_mem_escapeChar {c d : Char} (reserved : d ∈ ['<', '>', '\'', '"']) :
    d ∉ escapeChar c := by
  simp only [List.mem_cons, List.not_mem_nil, or_false] at reserved
  unfold escapeChar
  split
  case h_6 =>
    intro mem
    rw [List.mem_singleton.1 mem] at reserved
    simp_all
  all_goals rcases reserved with rfl | rfl | rfl | rfl <;> decide

/-- What is escaped holds no bracket and no quote. -/
theorem not_mem_escape {s : String} {d : Char} (reserved : d ∈ ['<', '>', '\'', '"']) :
    d ∉ (escape s).toList := by
  rw [escape, String.toList_ofList, List.mem_flatMap]
  rintro ⟨c, -, mem⟩
  exact not_mem_escapeChar reserved mem

theorem not_mem_encode_escape {byte : UInt8} (s : String)
    (reserved : byte ∈ [0x3C, 0x3E, 0x27, 0x22]) : byte ∉ Utf8.encode (escape s) := by
  intro mem
  simp only [List.mem_cons, List.not_mem_nil, or_false] at reserved
  rcases reserved with rfl | rfl | rfl | rfl
  all_goals exact not_mem_escape (by decide) (Utf8.mem_of_mem_encode (by decide) mem)

end Phrasebook.Markup
