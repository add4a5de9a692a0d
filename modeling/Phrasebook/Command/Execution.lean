import Phrasebook.Command.Substitution
import Phrasebook.Document.Audit
import Phrasebook.Document.Canonical
import Phrasebook.Library.Loading
import Phrasebook.Storage.Store

/-!
# Running Commands

A command works on a file tree. It prints lines, may write one file, and may fail; what it printed
before a failure stays printed.
-/

namespace Phrasebook.Command

open Phrasebook.Document Phrasebook.Storage Phrasebook.Text

/-- What a command works on. -/
structure Desktop where
  files : FileTree
  /-- What was printed so far. -/
  printed : String := ""

abbrev CommandM := ExceptT CommandError (StateM Desktop)

def print (s : String) : CommandM Unit :=
  modify fun desktop => { desktop with printed := desktop.printed ++ s }

def printLine (s : String) : CommandM Unit := print (s ++ "\n")

def openDocument (path : String) : CommandM Markup.Stream := do
  let files := (← get).files
  match files.open? path with
  | .error error => throw (.unreadable path error)
  | .ok _ => return markupOf (files.read path)

def summary (path : String) (audit : Audit) : String :=
  path ++ ": " ++ Numeral.decimal audit.sections ++ " section(s), " ++
    Numeral.decimal audit.entries ++ " entries, " ++ Numeral.decimal audit.findings.length ++
    " problem(s)"

def checkFile (allowReserved staleHashes : Bool) (path : String) : CommandM Nat := do
  match Audit.ofStream (← openDocument path) allowReserved with
  | .error fault => throw (.document path fault)
  | .ok audit =>
    audit.findings.forM fun finding => printLine (path ++ ": " ++ finding.message)
    if staleHashes then
      audit.stale.forM fun key => printLine (path ++ ": stale hash for " ++ code key)
    printLine (summary path audit)
    return audit.findings.length

/-- Audits documents, and counts what was found. -/
def checkFiles (allowReserved staleHashes : Bool) : List String → CommandM Nat
  | [] => return 0
  | path :: rest => do
    let found ← checkFile allowReserved staleHashes path
    let more ← checkFiles allowReserved staleHashes rest
    return found + more

/-- The last name on a path without its extension; a path that ends in no name is a document. -/
def fileStem (path : String) : String :=
  match (FileTree.pathNames path).getLast? with
  | none => "document"
  | some name =>
    if name = ".." then "document"
    else
      let rest := name.toList.reverse.dropWhile (· ≠ '.')
      match rest with
      | _ :: c :: stem => String.ofList (c :: stem).reverse
      | _ => name

def renderFile (file key : String) (pairs : List (String × String)) (strict : Bool)
    (format : NumberFormat) : CommandM String := do
  let stream ← openDocument file
  let (id, library) := (Library.addTable (fileStem file) false).run {}
  match (Library.populate id stream true).run library with
  | (.error error, _) => throw (.table error)
  | (.ok _, library) =>
    match (renderEntry id key pairs strict format).run library with
    | (.ok text, _) => return text
    | (.error error, _) => throw error

/-- Writes the canonical form of a document, or prints it if there is nowhere to write it. -/
def normalizeFile (input : String) (output : Option String) (keepStamp : Bool)
    (now : Calendar.Instant) : CommandM Unit := do
  match Canonical.ofStream (← openDocument input) keepStamp now with
  | .error fault => throw (.document input fault)
  | .ok canonical =>
    match output with
    | none => print canonical.text
    | some path =>
      match (← get).files.write path (Utf8.encode canonical.text) with
      | .error error => throw (.unwritable error)
      | .ok files => modify fun desktop => { desktop with files := files }

def hashLine (text label : String) : String := Digest.contentHash text ++ "  " ++ label

def hashLines (texts : List String) : List String := texts.map fun text => hashLine text text

def printHashes (texts : List String) (file : Option String) : CommandM Unit := do
  match file, texts with
  | some path, _ =>
    match (← get).files.readText path with
    | .error error => throw (.unreadable path error)
    | .ok text => printLine (hashLine text path)
  | none, [] => throw (.invalidArgument "nothing to hash: pass TEXT arguments or --file")
  | none, texts => (hashLines texts).forM printLine

/-- Runs a command; `now` is the time for stamps. -/
def run (now : Calendar.Instant) : Command → CommandM Unit
  | .check files allowReserved staleHashes => do
    let found ← checkFiles allowReserved staleHashes files
    if 0 < found then throw (.outcome 1 (Numeral.decimal found ++ " problem(s) found"))
  | .render file key pairs strict locale => do
    let format := match locale with
      | some locale => NumberFormat.forLocale locale
      | none => {}
    printLine (← renderFile file key pairs strict format)
  | .normalize input output keepStamp => normalizeFile input output keepStamp now
  | .hash texts file => printHashes texts file

/-- The outcome of a command on a file tree: its failure, if any, and what it leaves behind. -/
def execute (command : Command) (files : FileTree) (now : Calendar.Instant) :
    Option CommandError × Desktop :=
  match (command.run now).run { files := files } with
  | (.ok (), desktop) => (none, desktop)
  | (.error error, desktop) => (some error, desktop)

end Phrasebook.Command
