import Phrasebook.Proofs.Template.Meaning

/-!
# What faults point at

Each kind of fault names the character at which it points: the backslash of an escape, the opening
brace of a placeholder or the closing brace that has no place. A fault is the first problem of its
text. What stands before it can be read, or, where the fault lies in an open placeholder, lacks
nothing but the end of that placeholder.
-/

namespace Phrasebook

/-! ## The places of flaws -/

/-- The character of the text at which a fault points. Reading finds no reserved names. -/
def FaultKind.mark? : FaultKind → Option Char
  | .unsupportedEscape _ | .danglingEscape | .invalidUnicodeEscape | .invalidCodePoint _ =>
    some '\\'
  | .nestedPlaceholder | .emptyPlaceholder | .unterminatedPlaceholder => some '{'
  | .unmatchedClose | .escapedCloseInPlaceholder => some '}'
  | .reservedPlaceholder _ => none

/-- Whether a fault points into a placeholder that is still open. -/
def FaultKind.isInsidePlaceholder : FaultKind → Bool
  | .nestedPlaceholder | .escapedCloseInPlaceholder => true
  | _ => false

namespace Flaw

variable {reading : Reading} {kind : FaultKind} {distance : ℕ} {text : List Char}

theorem getElem?_distance (h : Flaw reading kind distance text) :
    text[distance]? = kind.mark? := by
  cases h with
  | nestedPlaceholder | escapedCloseInPlaceholder => simp [FaultKind.mark?]
  | _ => rfl

theorem mark?_ne_none (h : Flaw reading kind distance text) : kind.mark? ≠ none := by
  cases h <;> simp [FaultKind.mark?]

theorem distance_eq_zero (h : Flaw reading kind distance text)
    (outside : kind.isInsidePlaceholder = false) : distance = 0 := by
  cases h with
  | nestedPlaceholder | escapedCloseInPlaceholder => cases outside
  | _ => rfl

/-- Up to a fault inside a placeholder, that placeholder is only left open. -/
theorem take_distance (h : Flaw reading kind distance text)
    (inside : kind.isInsidePlaceholder = true) :
    Flaw reading .unterminatedPlaceholder 0 (text.take distance) := by
  cases h with
  | nestedPlaceholder _ free | escapedCloseInPlaceholder free =>
    rw [List.take_succ_cons, List.take_left]
    exact .unterminatedPlaceholder free
  | _ => cases inside

end Flaw

/-! ## The places of faults -/

namespace Refused

variable {reading : Reading} {kind : FaultKind} {place : ℕ} {text : List Char}

theorem getElem?_place (h : Refused reading kind place text) : text[place]? = kind.mark? := by
  obtain ⟨spelled, apart, flaw⟩ := h
  rw [List.getElem?_append_right (Nat.le_add_right _ _), Nat.add_sub_cancel_left,
    flaw.getElem?_distance]

theorem place_lt_length (h : Refused reading kind place text) : place < text.length := by
  have hmark := h.getElem?_place
  obtain ⟨spelled, apart, flaw⟩ := h
  by_contra hle
  rw [List.getElem?_eq_none (Nat.le_of_not_lt hle)] at hmark
  exact flaw.mark?_ne_none hmark.symm

/-- The text in front of a fault is spelled, unless the fault lies in an open placeholder. -/
theorem spelled_take (h : Refused reading kind place text)
    (outside : kind.isInsidePlaceholder = false) :
    ∃ tokens, Spelled reading tokens (text.take place) := by
  obtain ⟨spelled, apart, flaw⟩ := h
  rw [flaw.distance_eq_zero outside, Nat.add_zero, List.take_left]
  exact ⟨_, spelled⟩

/-- The text in front of a fault in an open placeholder lacks the end of that placeholder only. -/
theorem refused_take (h : Refused reading kind place text)
    (inside : kind.isInsidePlaceholder = true) :
    ∃ start, Refused reading .unterminatedPlaceholder start (text.take place) := by
  obtain ⟨spelled, apart, flaw⟩ := h
  rw [List.take_append, List.take_of_length_le (Nat.le_add_right _ _), Nat.add_sub_cancel_left]
  have flaw := flaw.take_distance inside
  refine ⟨_, .intro spelled (.of_opening ?_) flaw⟩
  rw [List.head?_eq_getElem?, flaw.getElem?_distance, FaultKind.mark?]

end Refused

/-- A fault is the first problem of its text. It carries the name of the template and points, inside
the text, at the character that its kind names. The text before that place is read in the same way,
or, if the fault lies in an open placeholder, lacks nothing but the end of that placeholder. -/
theorem refused_at_first_problem {reading : Reading} {name text : String} {e : TemplateError}
    (h : Phrase.read reading name text = .error e) :
    e.key = name ∧ e.offset < text.length ∧ text.toList[e.offset]? = e.kind.mark? ∧
      if e.kind.isInsidePlaceholder then
        ∃ start, Phrase.read reading name (String.ofList (text.toList.take e.offset)) =
          .error ⟨name, start, .unterminatedPlaceholder⟩
      else
        ∃ phrase, Phrase.read reading name (String.ofList (text.toList.take e.offset)) =
          .ok phrase := by
  obtain ⟨hkey, refused⟩ := read_eq_error_iff.1 h
  refine ⟨hkey, refused.place_lt_length, refused.getElem?_place, ?_⟩
  split
  · next inside =>
    obtain ⟨start, hstart⟩ := refused.refused_take inside
    exact ⟨start, read_eq_error_iff.2 ⟨rfl, by rwa [String.toList_ofList]⟩⟩
  · next outside =>
    obtain ⟨tokens, spelled⟩ := refused.spelled_take (Bool.eq_false_of_not_eq_true outside)
    rw [← String.toList_ofList (l := text.toList.take e.offset)] at spelled
    exact ⟨_, read_eq_ok_iff_scan.2 ⟨tokens, scanText_eq_ok_of_spelled spelled 0, rfl⟩⟩

theorem refused_at_first_problem_menu :
    let text := "\x7b\x7b \x7ba\x7d\\n\x7bb\x7bc\x7d"
    Phrase.read .template "menu" text = .error ⟨"menu", 10, .nestedPlaceholder⟩ ∧
      10 < text.length ∧ text.toList[10]? = some '{' ∧
      ∃ start, Phrase.read .template "menu" (String.ofList (text.toList.take 10)) =
        .error ⟨"menu", start, .unterminatedPlaceholder⟩ := by
  have h : Phrase.read .template "menu" "\x7b\x7b \x7ba\x7d\\n\x7bb\x7bc\x7d" =
      .error ⟨"menu", 10, .nestedPlaceholder⟩ := rfl
  obtain ⟨-, hlt, hmark, hbefore⟩ := refused_at_first_problem h
  exact ⟨h, hlt, hmark, hbefore⟩

end Phrasebook
