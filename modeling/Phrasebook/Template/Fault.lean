import Phrasebook.Numeral.Digits
import Phrasebook.Text.Quoted

/-!
# Template Faults

Why a template text is not a phrase, why a key leads to no phrase, and why a phrase cannot be
rendered. Offsets count characters of the template text.
-/

namespace Phrasebook

/-- What is wrong at one place of a template text. -/
inductive FaultKind where
  | unsupportedEscape (letter : Char)
  | danglingEscape
  | invalidUnicodeEscape
  | invalidCodePoint (code : Nat)
  | nestedPlaceholder
  | escapedCloseInPlaceholder
  | unmatchedClose
  | unterminatedPlaceholder
  | emptyPlaceholder
  | reservedPlaceholder (name : String)
deriving DecidableEq, Repr

/-- A text set off as code in a message. -/
def code (s : String) : String := "`" ++ s ++ "`"

/-- A code point in at least four upper-case hexadecimal digits. -/
def codePointDigits (n : Nat) : String :=
  let digits := (Nat.toDigits 16 n).map Char.toUpper
  String.ofList (List.replicate (4 - digits.length) '0' ++ digits)

def FaultKind.message : FaultKind → String
  | unsupportedEscape letter => "unsupported escape sequence " ++ code ("\\" ++ letter.toString)
  | danglingEscape => "template ends inside an escape sequence"
  | invalidUnicodeEscape => code "\\u" ++ " escape needs exactly four hex digits"
  | invalidCodePoint n => code ("\\u" ++ codePointDigits n) ++ " is not a valid character"
  | nestedPlaceholder => "unexpected " ++ code "\x7b" ++ " inside placeholder"
  | escapedCloseInPlaceholder => "unexpected " ++ code "\x7d\x7d" ++ " inside placeholder"
  | unmatchedClose => "unmatched " ++ code "\x7d"
  | unterminatedPlaceholder => "placeholder is never closed"
  | emptyPlaceholder => "placeholder name is empty"
  | reservedPlaceholder name => "placeholder name " ++ code name ++ " is reserved"

/-- A fault and the offset of the offending token. -/
structure Fault where
  offset : Nat
  kind : FaultKind
deriving DecidableEq, Repr

/-- A fault in the template of a key. -/
structure TemplateError where
  key : String
  offset : Nat
  kind : FaultKind
deriving DecidableEq, Repr

def Fault.within (fault : Fault) (key : String) : TemplateError := ⟨key, fault.offset, fault.kind⟩

def TemplateError.message (e : TemplateError) : String :=
  "template " ++ code e.key ++ " at offset " ++ Numeral.decimal e.offset ++ ": " ++ e.kind.message

inductive LookupError where
  | blankKey
  | keyNotFound (table key : String)
deriving DecidableEq, Repr

def LookupError.message : LookupError → String
  | blankKey => "string table key must not be blank"
  | keyNotFound table key => "key " ++ code key ++ " not found in string table " ++ code table

inductive RenderError where
  | unknownPlaceholder (key placeholder : String)
  | notALiteral (name : String)
  | noSource (key : String)
  | resolver (key message : String)
  | lookup (error : LookupError)
deriving DecidableEq, Repr

def RenderError.message : RenderError → String
  | unknownPlaceholder key placeholder =>
    "template " ++ code key ++ " has no value for placeholder " ++ code placeholder
  | notALiteral name => code name ++ " is not a literal"
  | noSource key => "no string table configured to render nested template " ++ code key
  | resolver key message => "template " ++ code key ++ ": " ++ message
  | lookup error => error.message

end Phrasebook
