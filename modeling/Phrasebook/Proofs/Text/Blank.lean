import Phrasebook.Text.Blank

/-!
# Trimmed texts

A text without white space at its two ends is what trimming leaves of it, and white space around a text
does not change what trimming leaves.
-/

namespace Phrasebook.Text

/-- The characters neither begin nor end with white space. -/
structure Trimmed (cs : List Char) : Prop where
  first : ∀ c, cs.head? = some c → isBlank c = false
  last : ∀ c, cs.getLast? = some c → isBlank c = false

theorem not_blank_of_head_dropWhile {cs : List Char} {c : Char}
    (h : (cs.dropWhile isBlank).head? = some c) : isBlank c = false := by
  have front := List.head?_dropWhile_not isBlank cs
  rwa [h] at front

/-- What trimming leaves is trimmed. -/
theorem trimmed_trimChars (cs : List Char) : Trimmed (trimChars cs) := by
  constructor
  · intro c h
    have front : trimChars cs <+: cs.dropWhile isBlank := by
      rw [trimChars, ← List.reverse_suffix, List.reverse_reverse]
      exact List.dropWhile_suffix isBlank
    obtain ⟨rest, whole⟩ := front
    refine @not_blank_of_head_dropWhile cs c ?_
    rw [← whole, List.head?_append, h]
    rfl
  · intro c h
    rw [trimChars, List.getLast?_reverse] at h
    exact not_blank_of_head_dropWhile h

theorem Trimmed.trimChars_eq {cs : List Char} (trimmed : Trimmed cs) : trimChars cs = cs := by
  have whole {ds : List Char} (h : ∀ c, ds.head? = some c → isBlank c = false) :
      ds.dropWhile isBlank = ds := by
    cases ds with
    | nil => rfl
    | cons d ds => rw [List.dropWhile_cons, h d rfl, if_neg Bool.false_ne_true]
  rw [trimChars, whole trimmed.first, whole, List.reverse_reverse]
  intro c h
  rw [List.head?_reverse] at h
  exact trimmed.last c h

/-- A text that neither begins nor ends with white space is left as it is. -/
theorem Trimmed.trim_eq {s : String} (trimmed : Trimmed s.toList) : trim s = s := by
  rw [trim, trimmed.trimChars_eq, String.ofList_toList]

theorem dropWhile_concat {cs : List Char} {c : Char} (blank : isBlank c = true) :
    (cs ++ [c]).dropWhile isBlank = [] ∧ cs.dropWhile isBlank = [] ∨
      (cs ++ [c]).dropWhile isBlank = cs.dropWhile isBlank ++ [c] := by
  induction cs with
  | nil => exact .inl ⟨by simp [blank], rfl⟩
  | cons d cs ih =>
    rw [List.cons_append, List.dropWhile_cons, List.dropWhile_cons]
    split
    · exact ih
    · exact .inr rfl

/-- White space around a text is trimmed with it. -/
theorem trimChars_surrounded {cs : List Char} {c d : Char} (hc : isBlank c = true)
    (hd : isBlank d = true) : trimChars (c :: cs ++ [d]) = trimChars cs := by
  rw [trimChars, trimChars, List.cons_append, List.dropWhile_cons, if_pos hc]
  rcases @dropWhile_concat cs d hd with ⟨surrounded, none_left⟩ | surrounded
  · rw [surrounded, none_left]
  · rw [surrounded, List.reverse_append, List.reverse_singleton, List.singleton_append,
      List.dropWhile_cons, if_pos hd]

end Phrasebook.Text
