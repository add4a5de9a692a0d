import Phrasebook.Numeral.Shortest

/-!
# Number Formats

How the fraction of a number is set apart, and which locales set it apart with a comma.
-/

namespace Phrasebook

/-- How numbers that are not integral are written. -/
structure NumberFormat where
  decimalSeparator : Char := '.'
deriving DecidableEq, Repr

namespace NumberFormat

/-- Languages that write `3,5`. -/
def commaLanguages : List String :=
  ["de", "fr", "es", "it", "pt", "ru", "pl", "nl", "sv", "da", "fi", "nb", "cs", "tr", "uk"]

/-- The part of a locale tag before the first hyphen or underscore, with ASCII letters in lower
case. -/
def language (locale : String) : String :=
  String.ofList ((locale.toList.takeWhile fun c => c != '-' && c != '_').map Char.toLower)

def forLocale (locale : String) : NumberFormat :=
  if commaLanguages.contains (language locale) then ⟨','⟩ else {}

/-- A decimal text with its own first point replaced by the separator. -/
def localize (format : NumberFormat) (text : String) : String :=
  let whole := text.toList.takeWhile (· != '.')
  match text.toList.dropWhile (· != '.') with
  | _ :: fraction => String.ofList (whole ++ format.decimalSeparator :: fraction)
  | [] => text

end NumberFormat

end Phrasebook
