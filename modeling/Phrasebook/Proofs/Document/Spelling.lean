import Phrasebook.Document.Draft
import Phrasebook.Proofs.Text.Blank

/-!
# Spelled comments and texts

The hyphens of a comment are spaced, so that no two stand side by side, and a text is cut into character
sections none of which holds the mark that ends one. The parts of a text make up the text.
-/

namespace Phrasebook.Document

open Phrasebook.Text

/-! ## Comments -/

theorem head_spaceHyphens (cs : List Char) : (spaceHyphens cs).head? = cs.head? := by
  cases cs with
  | nil => rfl
  | cons c cs =>
    rw [spaceHyphens]
    split
    · next both =>
      rw [of_decide_eq_true (Bool.and_eq_true_iff.1 both).1]
      rfl
    · rfl

theorem not_hyphens_cons {c : Char} {cs : List Char} (apart : ¬ ['-', '-'] <:+: cs)
    (first : ¬ (c = '-' ∧ cs.head? = some '-')) : ¬ ['-', '-'] <:+: c :: cs := by
  intro both
  rcases List.infix_cons_iff.1 both with start | inside
  · obtain ⟨rest, split⟩ := start
    obtain ⟨rfl, rfl⟩ := List.cons.inj split
    exact first ⟨rfl, rfl⟩
  · exact apart inside

/-- No two hyphens stand side by side in a comment. -/
theorem not_hyphens_spaceHyphens (cs : List Char) : ¬ ['-', '-'] <:+: spaceHyphens cs := by
  induction cs with
  | nil => simp [spaceHyphens]
  | cons c cs ih =>
    rw [spaceHyphens]
    split
    · have spaced : ¬ ['-', '-'] <:+: ' ' :: spaceHyphens cs :=
        not_hyphens_cons ih fun same ↦ absurd same.1 (by decide)
      refine not_hyphens_cons spaced fun same ↦ ?_
      exact absurd (Option.some.inj same.2) (by decide)
    · next single =>
      refine not_hyphens_cons ih fun ⟨hyphen, next⟩ ↦ single ?_
      rw [head_spaceHyphens] at next
      rw [hyphen, next]
      rfl

/-- A comment without hyphens side by side is written as it is. -/
theorem spaceHyphens_of_not_hyphens {cs : List Char} (apart : ¬ ['-', '-'] <:+: cs) :
    spaceHyphens cs = cs := by
  induction cs with
  | nil => rfl
  | cons c cs ih =>
    have single : ¬ (c = '-' && cs.head? = some '-') = true := by
      intro both
      simp only [Bool.and_eq_true, decide_eq_true_eq] at both
      obtain ⟨rfl, next⟩ := both
      obtain ⟨rest, rfl⟩ := List.head?_eq_some_iff.1 next
      exact apart ⟨[], rest, rfl⟩
    rw [spaceHyphens, if_neg single, ih fun both ↦ apart (List.infix_cons both)]

theorem getLast_spaceHyphens (cs : List Char) : (spaceHyphens cs).getLast? = cs.getLast? := by
  induction cs with
  | nil => rfl
  | cons c cs ih =>
    rw [spaceHyphens, List.getLast?_cons]
    split
    · next both =>
      obtain ⟨rest, rfl⟩ :=
        List.head?_eq_some_iff.1 (of_decide_eq_true (Bool.and_eq_true_iff.1 both).2)
      rw [List.getLast?_cons, List.getLast?_cons, ih, List.getLast?_cons]
      rfl
    · rw [List.getLast?_cons, ih]

def spaced (text : String) : String := String.ofList (spaceHyphens text.toList)

theorem toList_spaced (text : String) : (spaced text).toList = spaceHyphens text.toList :=
  String.toList_ofList

theorem spaceHyphens_spaced (text : String) :
    spaceHyphens (spaced text).toList = spaceHyphens text.toList := by
  rw [toList_spaced, spaceHyphens_of_not_hyphens (not_hyphens_spaceHyphens _)]

theorem spaced_spaced (text : String) : spaced (spaced text) = spaced text := by
  rw [spaced, spaceHyphens_spaced, spaced]

theorem trimmed_spaced {text : String} (trimmed : Trimmed text.toList) :
    Trimmed (spaced text).toList := by
  rw [toList_spaced]
  constructor
  · intro c first
    rw [head_spaceHyphens] at first
    exact trimmed.first c first
  · intro c last
    rw [getLast_spaceHyphens] at last
    exact trimmed.last c last

theorem not_hyphens_comment (cs : List Char) :
    ¬ ['-', '-'] <:+: ' ' :: (spaceHyphens cs ++ [' ']) := by
  refine not_hyphens_cons ?_ fun same ↦ absurd same.1 (by decide)
  intro both
  rcases List.infix_concat_iff.1 both with last | inside
  · obtain ⟨front, split⟩ := last
    have ends := congrArg List.getLast? split
    simp at ends
  · exact not_hyphens_spaceHyphens cs inside

/-! ## Character sections -/

/-- The mark that ends a character section occurs in a text only behind what is held of it. -/
def Unclosed (held cs : List Char) : Prop :=
  ∀ p q, held.reverse ++ cs = p ++ ([']', ']', '>'] ++ q) → held.length ≤ p.length

theorem Unclosed.not_infix {held before after : List Char}
    (unclosed : Unclosed held (before ++ after)) (short : before.length < 3) :
    ¬ [']', ']', '>'] <:+: held.reverse ++ before := by
  rintro ⟨p, q, split⟩
  have bound := unclosed p (q ++ after) (by rw [← List.append_assoc, ← split]; simp)
  have lengths := congrArg List.length split
  simp at lengths
  omega

/-- Behind a cut only the `>` of the mark is held. -/
theorem Unclosed.reopened (rest : List Char) : Unclosed ['>'] rest := by
  intro p q split
  cases p with
  | nil => exact absurd (List.cons.inj split).1 (by decide)
  | cons c p => exact Nat.succ_le_succ (Nat.zero_le _)

theorem Unclosed.cons {held rest : List Char} {c : Char} (unclosed : Unclosed held (c :: rest))
    (other : ∀ more, c = ']' → rest = ']' :: '>' :: more → False) : Unclosed (c :: held) rest := by
  intro p q split
  rw [List.reverse_cons, List.append_assoc, List.singleton_append] at split
  have bound := unclosed p q split
  refine Nat.lt_of_le_of_ne bound fun same ↦ ?_
  obtain ⟨-, mark⟩ := List.append_inj split (by rw [List.length_reverse, same])
  obtain ⟨rfl, rfl⟩ := List.cons.inj mark
  exact other q rfl rfl

/-- No part of a text holds the mark, and the parts make up the text. -/
theorem cdataPartsFrom_spec (held cs : List Char) (unclosed : Unclosed held cs) :
    (∀ part ∈ cdataPartsFrom held cs, ¬ [']', ']', '>'] <:+: part) ∧
      (cdataPartsFrom held cs).flatten = held.reverse ++ cs := by
  induction held, cs using cdataPartsFrom.induct with
  | case1 held rest ih =>
    obtain ⟨others, joined⟩ := ih (.reopened rest)
    rw [cdataPartsFrom]
    constructor
    · intro part h
      rcases List.mem_cons.1 h with rfl | h
      · have first := @Unclosed.not_infix held [']', ']'] ('>' :: rest) unclosed (by decide)
        simpa using first
      · exact others part h
    · rw [List.flatten_cons, joined]
      simp
  | case2 held c rest other ih =>
    obtain ⟨others, joined⟩ := ih (unclosed.cons other)
    rw [cdataPartsFrom]
    · exact ⟨others, by rw [joined]; simp⟩
    · exact other
  | case3 held =>
    rw [cdataPartsFrom]
    have only := @Unclosed.not_infix held [] [] unclosed (by decide)
    rw [List.append_nil] at only
    exact ⟨fun part h ↦ by rwa [List.mem_singleton.1 h], by simp⟩

theorem join_ofList (parts : List (List Char)) :
    String.join (parts.map String.ofList) = String.ofList parts.flatten := by
  induction parts with
  | nil => rfl
  | cons part parts ih =>
    rw [List.map_cons, String.join_cons, ih, List.flatten_cons, String.ofList_append]

theorem cdataParts_spec (s : String) :
    (∀ part ∈ cdataParts s, ¬ [']', ']', '>'] <:+: part.toList) ∧
      String.join (cdataParts s) = s := by
  obtain ⟨parts, joined⟩ := cdataPartsFrom_spec [] s.toList fun _ _ _ ↦ Nat.zero_le _
  constructor
  · intro part h
    obtain ⟨cs, mem, rfl⟩ := List.mem_map.1 h
    rw [String.toList_ofList]
    exact parts cs mem
  · rw [cdataParts, join_ofList, joined]
    exact String.ofList_toList

theorem cdataParts_ne_nil (s : String) : cdataParts s ≠ [] := by
  have parts (held cs : List Char) : cdataPartsFrom held cs ≠ [] := by
    induction held, cs using cdataPartsFrom.induct with
    | case1 held rest ih => exact List.cons_ne_nil _ _
    | case2 held c rest other ih =>
      rw [cdataPartsFrom]
      · exact ih
      · exact other
    | case3 held => exact List.cons_ne_nil _ _
  intro none
  exact parts [] s.toList (List.map_eq_nil_iff.1 none)

end Phrasebook.Document
