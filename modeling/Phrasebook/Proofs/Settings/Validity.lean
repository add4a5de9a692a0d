import Mathlib.Data.List.TakeWhile
import Phrasebook.Proofs.Text.Blank
import Phrasebook.Settings.Basic

/-!
# Valid settings

Settings without problems are meant to keep the files of tables inside of their folders. The locale and
what stands in front of it are searched for separators of paths, but the extension is not: files stay
inside exactly as long as it has none. The settings that variables give are not searched at all. Their
locale is normalized, which leaves separators alone, so they are valid exactly if it has none.
-/

namespace Phrasebook.Settings

open Phrasebook.Text

/-! ## Separators of paths -/

def isSeparator (c : Char) : Bool := c = '/' || c = '\\'

theorem hasSeparator_append (s t : String) :
    hasSeparator (s ++ t) = (hasSeparator s || hasSeparator t) := by
  simp [hasSeparator]

theorem problems_eq_nil_iff {settings : Settings} :
    settings.problems = [] ↔
      isBlankText settings.locale = false ∧ hasSeparator settings.locale = false ∧
      settings.extension ≠ "" ∧ settings.extension.toList.head? ≠ some '.' ∧
      hasSeparator settings.localeSeparator = false := by
  simp [problems]

/-! ## Files inside of folders -/

/-- What stands between a folder and a name inside of it. -/
def joint (folder : String) : String :=
  if folder.toList.getLast?.all isSeparator then "" else "/"

/-- A text that names a file and leads nowhere else. -/
structure IsFileName (file : String) : Prop where
  single : hasSeparator file = false
  named : file ∉ ["", ".", ".."]

/-- A location is that of a file of the folder itself. -/
def LiesIn (folder location : String) : Prop :=
  ∃ file, location = folder ++ joint folder ++ file ∧ IsFileName file

def fileName (locator : Storage.Locator) (name locale : String) : String :=
  name ++ locator.separator ++ locale ++ "." ++ locator.extension

theorem isSeparator_iff {c : Char} : isSeparator c = true ↔ c = '/' ∨ c = '\\' := by
  simp [isSeparator]

/-- A location is the folder and the name of a file in it. -/
theorem locate_eq (locator : Storage.Locator) (folder name locale : String) :
    locator.locate folder name locale = folder ++ joint folder ++ fileName locator name locale := by
  unfold Storage.Locator.locate joint
  cases last : folder.toList.getLast? with
  | none =>
    obtain rfl : folder = "" := by simpa using last
    simp [fileName]
  | some c =>
    have filled : folder.isEmpty = false := by
      rw [Bool.eq_false_iff, Ne, String.isEmpty_iff]
      rintro rfl
      cases last
    rw [filled, if_neg Bool.false_ne_true, Option.all_some]
    split
    case h_1 same | h_2 same =>
      rw [Option.some.inj same, if_pos (by decide), String.append_empty]
      rfl
    case h_3 not_slash not_backslash =>
      rw [if_neg fun separates ↦ ?_]
      · rfl
      · rcases isSeparator_iff.1 separates with rfl | rfl
        · exact not_slash rfl
        · exact not_backslash rfl

/-- The parts of a location in front of the name of a file are those of the folder. -/
theorem liesIn_iff {folder file : String} :
    LiesIn folder (folder ++ joint folder ++ file) ↔ IsFileName file := by
  constructor
  · rintro ⟨other, same, single⟩
    rwa [(String.append_right_inj _).1 same]
  · exact fun single ↦ ⟨file, rfl, single⟩

theorem length_fileName (locator : Storage.Locator) (name locale : String) :
    locale.length + 1 + locator.extension.length ≤ (fileName locator name locale).length := by
  simp only [fileName, String.length_append]
  have point : ".".length = 1 := rfl
  omega

variable {settings : Settings} {name : String}

/-- The name of a file is a plain one if its extension is. -/
theorem isFileName_iff (valid : settings.problems = []) (plain : hasSeparator name = false) :
    IsFileName (fileName settings.locator name settings.locale) ↔
      hasSeparator settings.extension = false := by
  obtain ⟨filled, locale_plain, extended, -, separator_plain⟩ := problems_eq_nil_iff.1 valid
  have separators : hasSeparator (fileName settings.locator name settings.locale) =
      hasSeparator settings.extension := by
    have point : hasSeparator "." = false := rfl
    rw [fileName, hasSeparator_append, hasSeparator_append, hasSeparator_append,
      hasSeparator_append, plain, locale_plain, point, locator, separator_plain]
    rfl
  have long : 3 ≤ (fileName settings.locator name settings.locale).length := by
    have parts : settings.locale.length + 1 + settings.extension.length ≤ _ :=
      length_fileName settings.locator name settings.locale
    have locale_filled : settings.locale.length ≠ 0 := by
      intro empty
      rw [String.length_eq_zero_iff] at empty
      rw [empty] at filled
      cases filled
    have extension_filled : settings.extension.length ≠ 0 := by
      rwa [Ne, String.length_eq_zero_iff]
    omega
  constructor
  · intro file
    rw [← separators]
    exact file.single
  · intro extension_plain
    refine ⟨separators.trans extension_plain, fun named ↦ ?_⟩
    have short : ∀ other ∈ ["", ".", ".."], other.length ≤ 2 := by decide
    exact absurd (short _ named) (by omega)

/-- With valid settings, the location of a table is that of a file of its own folder exactly if the
extension has no separator of paths. -/
theorem locate_liesIn_iff_extension_plain (valid : settings.problems = [])
    (plain : hasSeparator name = false) (folder : String) :
    LiesIn folder (settings.locator.locate folder name settings.locale) ↔
      hasSeparator settings.extension = false := by
  rw [locate_eq, liesIn_iff]
  exact isFileName_iff valid plain

theorem locate_liesIn_iff_extension_plain_menu :
    let settings : Settings := { locale := "de-DE" }
    settings.problems = [] ∧ hasSeparator "menu" = false ∧
      LiesIn "ui" (settings.locator.locate "ui" "menu" settings.locale) := by
  intro settings
  have valid : settings.problems = [] := by decide +kernel
  have plain : hasSeparator "menu" = false := by decide +kernel
  exact ⟨valid, plain, (locate_liesIn_iff_extension_plain valid plain "ui").2 (by decide +kernel)⟩

/-- An extension that leads into another folder is no problem. -/
theorem valid_extension_leads_elsewhere :
    let settings : Settings := { extension := "x/y" }
    settings.problems = [] ∧ settings.locator.locate "d" "n" settings.locale = "d/n_en-US.x/y" ∧
      ¬ LiesIn "d" (settings.locator.locate "d" "n" settings.locale) := by
  intro settings
  have leads : hasSeparator (fileName settings.locator "n" settings.locale) = true := by
    decide +kernel
  refine ⟨by decide +kernel, by decide +kernel, fun inside ↦ ?_⟩
  rw [locate_eq, liesIn_iff] at inside
  rw [inside.single] at leads
  cases leads

/-! ## Locales from variables -/

/-- A locale that normalizing leaves as it is. -/
structure IsNormal (cs : List Char) : Prop where
  trimmed : Trimmed cs
  marks : ∀ c ∈ cs, c ∉ ['.', '@', '_']
  named : cs ∉ [[], ['C'], "POSIX".toList]

/-- The character that normalizing puts in the place of another. -/
def hyphened (c : Char) : Char := if c = '_' then '-' else c

theorem isBlank_hyphened (c : Char) : isBlank (hyphened c) = isBlank c := by
  unfold hyphened
  split
  case isTrue h =>
    rw [h]
    decide
  case isFalse => rfl

theorem Trimmed.map_hyphened {cs : List Char} (trimmed : Trimmed cs) :
    Trimmed (cs.map hyphened) := by
  constructor
  · intro c h
    rw [List.head?_map, Option.map_eq_some_iff] at h
    obtain ⟨first, is_first, rfl⟩ := h
    rw [isBlank_hyphened]
    exact trimmed.first first is_first
  · intro c h
    rw [List.getLast?_map, Option.map_eq_some_iff] at h
    obtain ⟨last, is_last, rfl⟩ := h
    rw [isBlank_hyphened]
    exact trimmed.last last is_last

theorem hyphened_eq_of_ne {c : Char} (h : hyphened c ≠ '-') : hyphened c = c := by
  unfold hyphened at h ⊢
  split
  case isTrue under => exact absurd (if_pos under) h
  case isFalse => rfl

/-- Where no hyphen stands now, none was put in. -/
theorem map_hyphened_eq_self {cs : List Char} (none_in : '-' ∉ cs.map hyphened) :
    cs.map hyphened = cs := by
  refine (List.map_congr_left fun c member ↦ ?_).trans (List.map_id _)
  refine hyphened_eq_of_ne fun same ↦ none_in ?_
  rw [← same]
  exact List.mem_map_of_mem member

theorem IsNormal.map_hyphened {cs : List Char} (trimmed : Trimmed cs)
    (marks : ∀ c ∈ cs, c ∉ ['.', '@']) (named : cs ∉ [[], ['C'], "POSIX".toList]) :
    IsNormal (cs.map hyphened) := by
  refine ⟨Trimmed.map_hyphened trimmed, ?_, ?_⟩
  · rw [List.forall_mem_map]
    intro c member
    unfold hyphened
    split
    case isTrue => decide
    case isFalse other =>
      have unmarked := marks c member
      grind
  · intro h
    have plain : ∀ ds ∈ [[], ['C'], "POSIX".toList], '-' ∉ ds := by decide
    rw [map_hyphened_eq_self (plain _ h)] at h
    exact named h

theorem mem_of_mem_trimChars {cs : List Char} {c : Char} (h : c ∈ trimChars cs) : c ∈ cs := by
  rw [trimChars, List.mem_reverse] at h
  exact (List.dropWhile_sublist _).mem (List.mem_reverse.1 ((List.dropWhile_sublist _).mem h))

/-- Whether normalizing reads on behind a character. -/
def inBase (c : Char) : Bool := c != '.' && c != '@'

theorem normalizeLocale_eq (raw : String) :
    normalizeLocale raw =
      let base := trimChars (raw.toList.takeWhile inBase)
      if base ∈ [[], ['C'], "POSIX".toList] then none
      else some (String.ofList (base.map hyphened)) := by
  simp only [normalizeLocale, List.mem_cons, List.not_mem_nil, or_false, Bool.or_eq_true,
    decide_eq_true_eq, or_assoc]
  rfl

/-- What normalizing gives is normal. -/
theorem isNormal_of_normalizeLocale {raw locale : String} (h : normalizeLocale raw = some locale) :
    IsNormal locale.toList := by
  rw [normalizeLocale_eq] at h
  dsimp only at h
  split at h
  case isTrue => cases h
  case isFalse named =>
    obtain rfl := Option.some.inj h
    rw [String.toList_ofList]
    refine .map_hyphened (trimmed_trimChars _) (fun c member ↦ ?_) named
    have read := List.all_takeWhile (p := inBase) (l := raw.toList)
    have plain := List.all_eq_true.1 read c (mem_of_mem_trimChars member)
    simpa [inBase] using plain

/-- A normal locale stays as it is. -/
theorem normalizeLocale_of_isNormal {locale : String} (normal : IsNormal locale.toList) :
    normalizeLocale locale = some locale := by
  have whole : locale.toList.takeWhile inBase = locale.toList := by
    rw [List.takeWhile_eq_self_iff]
    intro c member
    have marks := normal.marks c member
    simp at marks
    simp [inBase, marks]
  have kept : locale.toList.map hyphened = locale.toList := by
    refine (List.map_congr_left fun c member ↦ if_neg ?_).trans (List.map_id _)
    rintro rfl
    exact absurd (normal.marks _ member) (by decide)
  rw [normalizeLocale_eq, whole, normal.trimmed.trimChars_eq]
  dsimp only
  rw [if_neg normal.named, kept, String.ofList_toList]

theorem isNormal_default : IsNormal ({} : Settings).locale.toList := by
  have chars : ({} : Settings).locale.toList = ['e', 'n', '-', 'U', 'S'] := rfl
  rw [chars]
  refine ⟨⟨?_, ?_⟩, ?_, by decide⟩
  case refine_1 =>
    rintro _ ⟨⟩
    rfl
  case refine_2 =>
    rintro _ ⟨⟩
    rfl
  case refine_3 => simp

/-! ## Settings from variables -/

theorem ofVariables_eq (value? : String → Option String) :
    ofVariables value? =
      { locale := (((value? "FSTR_LOCALE").bind normalizeLocale).or
          ((value? "LANG").bind normalizeLocale)).getD "en-US" } := by
  unfold ofVariables localeVariable
  cases (value? "FSTR_LOCALE").bind normalizeLocale with
  | some locale => rfl
  | none =>
    cases (value? "LANG").bind normalizeLocale with
    | some locale => rfl
    | none => rfl

theorem isNormal_of_bind {value? : Option String} {locale : String}
    (h : value?.bind normalizeLocale = some locale) : IsNormal locale.toList := by
  obtain ⟨raw, -, normalized⟩ := Option.bind_eq_some_iff.1 h
  exact isNormal_of_normalizeLocale normalized

/-- Variables decide nothing but the locale, which is a normal one. -/
theorem exists_locale_of_variables (value? : String → Option String) :
    ∃ locale, IsNormal locale.toList ∧ ofVariables value? = { locale := locale } := by
  refine ⟨_, ?_, ofVariables_eq value?⟩
  cases first : (value? "FSTR_LOCALE").bind normalizeLocale with
  | some locale => exact isNormal_of_bind first
  | none =>
    cases second : (value? "LANG").bind normalizeLocale with
    | some locale => exact isNormal_of_bind second
    | none => exact isNormal_default

theorem IsNormal.not_blank {locale : String} (normal : IsNormal locale.toList) :
    isBlankText locale = false := by
  cases cs : locale.toList with
  | nil =>
    rw [cs] at normal
    exact absurd (.head _) normal.named
  | cons c rest =>
    have first := normal.trimmed.first c
    rw [cs] at first
    rw [isBlankText, cs, List.all_cons, first rfl, Bool.false_and]

/-- Of settings with a normal locale and defaults, only a separator in the locale makes a problem. -/
theorem problems_eq_nil_iff_of_isNormal {locale : String} (normal : IsNormal locale.toList) :
    { locale := locale : Settings }.problems = [] ↔ hasSeparator locale = false := by
  have extension : "xml" ≠ "" ∧ "xml".toList.head? ≠ some '.' := by decide
  have separator : hasSeparator "_" = false := by decide
  rw [problems_eq_nil_iff]
  constructor
  · exact fun valid ↦ valid.2.1
  · exact fun plain ↦ ⟨normal.not_blank, plain, extension.1, extension.2, separator⟩

/-- Whatever the variables are, the locale is that of the first one that has any, normalized, and
normalizing leaves it as it is. The settings are valid exactly if it has no separator of paths. -/
theorem ofVariables_valid_iff_locale_plain (value? : String → Option String) :
    let settings := ofVariables value?
    settings = { locale := (((value? "FSTR_LOCALE").bind normalizeLocale).or
      ((value? "LANG").bind normalizeLocale)).getD "en-US" } ∧
    normalizeLocale settings.locale = some settings.locale ∧
    (settings.problems = [] ↔ hasSeparator settings.locale = false) := by
  obtain ⟨locale, normal, same⟩ := exists_locale_of_variables value?
  refine ⟨ofVariables_eq value?, ?_⟩
  rw [same]
  exact ⟨normalizeLocale_of_isNormal normal, problems_eq_nil_iff_of_isNormal normal⟩

/-- A separator of paths in a variable becomes one in the locale. -/
theorem variable_with_separator_gives_invalid_settings :
    let settings := ofVariables fun name ↦ if name = "FSTR_LOCALE" then some "a/b" else none
    settings.locale = "a/b" ∧
      settings.problems = ["locale must not contain path separators, got \"a/b\""] := by
  decide +kernel

end Phrasebook.Settings
