import Phrasebook.Output.NumberFormat
import Phrasebook.Proofs.Numeral.Integral

/-!
# The text of a number

An integer that a signed word holds is its digits in every format. Of any other number the text is
the one it is displayed with, and the format's separator stands in place of the first point.
-/

namespace Phrasebook

open Numeral

namespace NumberFormat

def withSeparator (format : NumberFormat) (text : String) : String :=
  String.ofList (text.toList.replace '.' format.decimalSeparator)

/-- Only the first point gives way to the separator. -/
theorem localize_eq (format : NumberFormat) (text : String) :
    format.localize text = format.withSeparator text := by
  have parts := List.takeWhile_append_dropWhile (p := (· != '.')) (l := text.toList)
  have no_point : '.' ∉ text.toList.takeWhile (· != '.') :=
    fun within ↦ absurd (List.all_eq_true.1 List.all_takeWhile '.' within) (by decide)
  rw [localize, withSeparator]
  split
  next point fraction cut =>
    have first := List.head?_dropWhile_not (· != '.') text.toList
    rw [cut, List.head?_cons] at first
    obtain rfl : point = '.' := of_not_not fun other ↦ absurd first (by simpa using other)
    rw [cut] at parts
    have replaced := congrArg (List.replace · '.' format.decimalSeparator) parts
    rw [List.replace_append, if_neg no_point, List.replace_cons_self] at replaced
    rw [replaced]
  next cut =>
    rw [cut, List.append_nil] at parts
    rw [parts] at no_point
    rw [List.replace_of_not_mem no_point, String.ofList_toList]

theorem withSeparator_point {format : NumberFormat} (h : format.decimalSeparator = '.')
    (text : String) : format.withSeparator text = text := by
  have same (cs : List Char) : cs.replace '.' '.' = cs := by
    induction cs with
    | nil => rfl
    | cons c cs ih =>
      rw [List.replace_cons]
      split
      next point => rw [beq_iff_eq.1 point]
      next => rw [ih]
  rw [withSeparator, h, same, String.ofList_toList]

/-- The text of a floating-point value: the digits of an integer that fits a signed word, and the
separated text of any other. -/
def floatText (format : NumberFormat) (value : FloatValue) : String :=
  match value.toRat? with
  | none => format.withSeparator value.text
  | some q =>
    if q.isInt ∧ FitsSigned q.num then toString q.num else format.withSeparator value.text

theorem floatText_of_integral {format : NumberFormat} {value : FloatValue} {n : Int}
    (h : value.integral? = some n) : format.floatText value = toString n := by
  obtain ⟨number, fits⟩ := (value.integral?_eq_some_iff n).1 h
  rw [floatText, number]
  dsimp only
  rw [if_pos ⟨rfl, by rwa [Rat.num_intCast]⟩, Rat.num_intCast]

theorem floatText_of_fraction {format : NumberFormat} {value : FloatValue}
    (h : value.integral? = none) : format.floatText value = format.withSeparator value.text := by
  rw [floatText]
  split
  next => rfl
  next q number =>
    refine if_neg ?_
    rintro ⟨whole, fits⟩
    have same : value.toRat? = some (q.num : ℚ) := by
      rw [number, (Rat.den_eq_one_iff q).1 (beq_iff_eq.1 whole)]
    exact nomatch h.symm.trans ((value.integral?_eq_some_iff q.num).2 ⟨same, fits⟩)

end NumberFormat

end Phrasebook
