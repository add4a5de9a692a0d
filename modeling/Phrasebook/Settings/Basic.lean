import Phrasebook.Settings.TomlSyntax
import Phrasebook.Storage.Store
import Phrasebook.Text.Blank
import Phrasebook.Text.Quoted

/-!
# Settings

What a catalog is set up with: a locale, and how the files of tables are named. Settings come from
variables of the environment or from a TOML document, and what is wrong with them can be listed.
-/

namespace Phrasebook

open Phrasebook.Text

structure Settings where
  locale : String := "en-US"
  extension : String := "xml"
  localeSeparator : String := "_"
deriving DecidableEq, Repr

namespace Settings

/-- The variable that decides the locale, if it is set. -/
def localeVariable : String := "FSTR_LOCALE"

/-- A locale as the environment has it, without encoding and modifier and with hyphens for
underscores. The locales that mean none are none. -/
def normalizeLocale (raw : String) : Option String :=
  let base := trimChars (raw.toList.takeWhile fun c => c != '.' && c != '@')
  if base = [] || base = ['C'] || base = "POSIX".toList then none
  else some (String.ofList (base.map fun c => if c = '_' then '-' else c))

/-- Settings from variables: the locale is that of the first of two variables that has one. -/
def ofVariables (value? : String → Option String) : Settings :=
  match (value? localeVariable).bind normalizeLocale <|>
      (value? "LANG").bind normalizeLocale with
  | some locale => { locale := locale }
  | none => {}

/-- Whether a text holds a character that separates the names of a path. -/
def hasSeparator (s : String) : Bool := s.toList.any fun c => c = '/' || c = '\\'

def problems (settings : Settings) : List String :=
  (if isBlankText settings.locale then ["locale must not be empty"] else []) ++
  (if hasSeparator settings.locale then
    ["locale must not contain path separators, got " ++ quoted settings.locale] else []) ++
  (if settings.extension.isEmpty then ["extension must not be empty"] else []) ++
  (if settings.extension.toList.head? = some '.' then
    ["extension is given without the leading dot, got " ++ quoted settings.extension] else []) ++
  (if hasSeparator settings.localeSeparator then
    ["locale_separator must not contain path separators, got " ++
      quoted settings.localeSeparator] else [])

def locator (settings : Settings) : Storage.Locator :=
  ⟨settings.localeSeparator, settings.extension⟩

inductive ReadError where
  /-- It is not well formed, or a setting is not a text. -/
  | malformed
  | invalid (problems : List String)
deriving DecidableEq, Repr

/-- The wording of what is wrong with valid TOML. -/
def ReadError.invalidMessage (problems : List String) : String :=
  "validation errors: " ++ "; ".intercalate problems

/-- A setting of a document, or its default if it is not there. -/
def field (entries : Toml.Entries) (name default : String) : Option String :=
  match entries.lookup name with
  | none => some default
  | some (.text s) => some s
  | some _ => none

/-- Settings from a TOML document, with defaults for what it does not set. -/
def ofToml (document : String) : Except ReadError Settings :=
  let defaults : Settings := {}
  let settings : Option Settings := do
    let entries ← Toml.read document
    let locale ← field entries "locale" defaults.locale
    let extension ← field entries "extension" defaults.extension
    let separator ← field entries "locale_separator" defaults.localeSeparator
    return ⟨locale, extension, separator⟩
  match settings with
  | none => .error .malformed
  | some settings =>
    if settings.problems.isEmpty then .ok settings else .error (.invalid settings.problems)

end Settings

end Phrasebook
