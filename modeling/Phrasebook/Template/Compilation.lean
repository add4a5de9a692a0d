import Phrasebook.Template.Interning
import Phrasebook.Template.Token

/-!
# Compiling Texts

A text is compiled in one pass. The name of a placeholder is interned where its closing brace is
read, so the pieces of the phrase have shares in names instead of texts, and also a text that is
refused in the end leaves names behind. Others may intern names in the meantime: a `Compilation` is
what there is left to do, up to the next name that is interned.
-/

namespace Phrasebook

inductive InternedPiece where
  | literal (text : String)
  | placeholder (name : InternedName)
deriving DecidableEq, Repr

structure InternedPhrase where
  name : String
  pieces : List InternedPiece
  isMissing : Bool := false
deriving DecidableEq, Repr

def InternedPhrase.names (phrase : InternedPhrase) : List InternedName :=
  phrase.pieces.filterMap fun
    | .literal _ => none
    | .placeholder name => some name

/-- A piece with shares in place of names. -/
def Piece.link (share : String → InternedName) : Piece → InternedPiece
  | literal text => .literal text
  | placeholder name => .placeholder (share name)

def Phrase.link (share : String → InternedName) (phrase : Phrase) : InternedPhrase where
  name := phrase.name
  pieces := phrase.pieces.map (Piece.link share)
  isMissing := phrase.isMissing

namespace Interner

def samePiece (interner : Interner) : InternedPiece → InternedPiece → Bool
  | .literal text, .literal other => text == other
  | .placeholder name, .placeholder other => interner.sameName name other
  | _, _ => false

/-- Phrases are compared by their names and piece by piece. -/
def samePhrase (interner : Interner) (phrase other : InternedPhrase) : Bool :=
  phrase.name == other.name && phrase.pieces.isEqv other.pieces interner.samePiece &&
    phrase.isMissing == other.isMissing

end Interner

/-- What is left of a compilation. -/
inductive Compilation where
  | finished (result : Except TemplateError InternedPhrase)
  /-- A text is interned next, and the compilation goes on with the share in it. -/
  | interns (text : String) (resume : InternedName → Compilation)

/-- The part of a phrase that was read so far. Its pieces and the run of characters behind them
stand in reverse. -/
structure Assembly where
  key : String
  pieces : List InternedPiece := []
  run : List Char := []

namespace Assembly

def addChar (assembly : Assembly) (c : Char) : Assembly :=
  { assembly with run := c :: assembly.run }

/-- The pieces with the run of characters made a literal. -/
def flushed (assembly : Assembly) : List InternedPiece :=
  if assembly.run.isEmpty then assembly.pieces
  else .literal (String.ofList assembly.run.reverse) :: assembly.pieces

def addName (assembly : Assembly) (name : InternedName) : Assembly :=
  { assembly with pieces := .placeholder name :: assembly.flushed, run := [] }

def finish (assembly : Assembly) : Compilation :=
  .finished (.ok { name := assembly.key, pieces := assembly.flushed.reverse })

def refuse (assembly : Assembly) (fault : Fault) : Compilation :=
  .finished (.error (fault.within assembly.key))

mutual

/-- Reads on outside a placeholder; `offset` counts the characters read so far. -/
def readText (assembly : Assembly) (reading : Reading) (offset : Nat) : List Char → Compilation
  | [] => assembly.finish
  | '\\' :: [] => assembly.refuse ⟨offset, .danglingEscape⟩
  | '\\' :: 'u' :: a :: b :: c :: d :: rest =>
    match (hexNumber? [a, b, c, d]).bind scalar? with
    | some meaning => (assembly.addChar meaning).readText reading (offset + 6) rest
    | none => assembly.refuse ⟨offset, codePointFault a b c d⟩
  | '\\' :: 'u' :: _ => assembly.refuse ⟨offset, .invalidUnicodeEscape⟩
  | '\\' :: letter :: rest =>
    match controlEscape? letter with
    | some meaning => (assembly.addChar meaning).readText reading (offset + 2) rest
    | none => assembly.refuse ⟨offset, .unsupportedEscape letter⟩
  | '{' :: rest =>
    match reading, rest with
    | .escapesOnly, rest => (assembly.addChar '{').readText .escapesOnly (offset + 1) rest
    | .template, '{' :: rest => (assembly.addChar '{').readText .template (offset + 2) rest
    | .template, rest => assembly.readName offset [] (offset + 1) rest
  | '}' :: rest =>
    match reading, rest with
    | .escapesOnly, rest => (assembly.addChar '}').readText .escapesOnly (offset + 1) rest
    | .template, '}' :: rest => (assembly.addChar '}').readText .template (offset + 2) rest
    | .template, _ => assembly.refuse ⟨offset, .unmatchedClose⟩
  | c :: rest => (assembly.addChar c).readText reading (offset + 1) rest

/-- Reads on inside a placeholder that was opened at `start`, with the characters of its name so
far in reverse. -/
def readName (assembly : Assembly) (start : Nat) (name : List Char) (offset : Nat) :
    List Char → Compilation
  | [] => assembly.refuse ⟨start, .unterminatedPlaceholder⟩
  | '{' :: _ => assembly.refuse ⟨offset, .nestedPlaceholder⟩
  | '}' :: '}' :: _ => assembly.refuse ⟨offset, .escapedCloseInPlaceholder⟩
  | '}' :: rest =>
    if name.isEmpty then assembly.refuse ⟨start, .emptyPlaceholder⟩
    else .interns (String.ofList name.reverse) fun shared =>
      (assembly.addName shared).readText .template (offset + 1) rest
  | c :: rest => assembly.readName start (c :: name) (offset + 1) rest

end

end Assembly

namespace Compilation

def ofText (reading : Reading) (name text : String) : Compilation :=
  ({ key := name } : Assembly).readText reading 0 text.toList

/-- Goes on to the end, with nobody else interning in the meantime. -/
def run : Compilation → Interner → Except TemplateError InternedPhrase × Interner
  | finished result, interner => (result, interner)
  | interns text resume, interner =>
    let (name, interner) := interner.intern text
    (resume name).run interner

end Compilation

def Interner.compile (interner : Interner) (reading : Reading) (name text : String) :
    Except TemplateError InternedPhrase × Interner :=
  (Compilation.ofText reading name text).run interner

end Phrasebook
