import Phrasebook.Command.Execution
import Phrasebook.Command.Invocation
import Std.Time.DateTime.Timestamp

/-!
# The Program

What a command names is brought from the disk into a file tree, the command runs on that tree, and
what it leaves behind is handed on: the text it printed, its failure, and the file it wrote.
-/

namespace Phrasebook.Command

open Phrasebook.Storage

def usageText : String :=
  "Check, render and normalize fstr string table documents\n\n" ++
  "Usage: fstr [-v]... COMMAND\n\n" ++
  "Commands:\n" ++
  "  check [--allow-reserved] [--stale-hashes] FILES...\n" ++
  "  render [--strict] [--locale LOCALE] FILE KEY [NAME=VALUE]...\n" ++
  "  normalize [-o OUTPUT] [--keep-timestamp] INPUT\n" ++
  "  hash TEXTS... | hash --file FILE\n"

/-- The path and the ways to the directories on it. -/
def stages (path : String) : List String :=
  let names := path.splitOn "/"
  (List.range names.length).map fun n => "/".intercalate (names.take (n + 1))

/-- Brings what a path leads to into the tree, if there is something. Paths that can lead to nothing
are left to the tree to refuse. -/
def fetch (tree : FileTree) (path : String) : IO FileTree := do
  try
    let bytes ← IO.FS.readBinFile path
    return tree.put path bytes.toList
  catch
    | .inappropriateType _ 21 _ => return tree.putDirectory path
    | .inappropriateType _ _ _ => return tree
    | .noFileOrDirectory _ _ _ => return tree
    | .invalidArgument _ _ _ => return tree
    | error => throw error

def complain (message : String) : IO Unit := IO.eprintln ("fstr: " ++ message)

/-- Runs a command on the disk; the result is the exit code. -/
def perform (command : Command) : IO UInt32 := do
  let tree ← (command.paths.flatMap stages).foldlM fetch {}
  let now ← Std.Time.Timestamp.now
  let (failure, desktop) :=
    command.execute tree (.ofNanoseconds now.toNanosecondsSinceUnixEpoch.val)
  IO.print desktop.printed
  match failure, command.destination? with
  | some error, _ =>
    complain error.message
    return error.exitCode.toUInt32
  | none, some path =>
    match desktop.files.read path with
    | .ok bytes => IO.FS.writeBinFile path ⟨bytes.toArray⟩
    | .error _ => pure ()
    return 0
  | none, none => return 0

def runProgram (arguments : List String) : IO UInt32 := do
  match Invocation.parse arguments with
  | .error .asked =>
    IO.print usageText
    return 0
  | .error .wrong =>
    IO.eprint usageText
    return 2
  | .ok invocation =>
    try perform invocation.command
    catch error =>
      complain (toString error)
      return 1

end Phrasebook.Command

def main (arguments : List String) : IO UInt32 := Phrasebook.Command.runProgram arguments
