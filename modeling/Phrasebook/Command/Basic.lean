import Phrasebook.Library.Basic
import Phrasebook.Output.Rendering
import Phrasebook.Storage.FileTree

/-!
# Commands

What the command line can ask for, and how a command fails. A failure has an exit code: two for
arguments that make no sense, one for everything else.
-/

namespace Phrasebook

inductive Command where
  /-- Audit documents. -/
  | check (files : List String) (allowReserved staleHashes : Bool)
  /-- Render an entry of a document. -/
  | render (file key : String) (pairs : List (String × String)) (strict : Bool)
      (locale : Option String)
  /-- Write the canonical form of a document. -/
  | normalize (input : String) (output : Option String) (keepStamp : Bool)
  /-- Print content hashes of texts or of a file. -/
  | hash (texts : List String) (file : Option String)
deriving DecidableEq, Repr

namespace Command

def paths : Command → List String
  | check files _ _ => files
  | render file _ _ _ _ => [file]
  | normalize input output _ => input :: output.toList
  | hash _ file => file.toList

def destination? : Command → Option String
  | normalize _ output _ => output
  | _ => none

/-- Something to do, and how much is to be said about it meanwhile. -/
structure Invocation where
  verbosity : Nat
  command : Command
deriving DecidableEq, Repr

/-- The least severity that is reported, by name. -/
def Invocation.level (invocation : Invocation) : String :=
  match invocation.verbosity with
  | 0 => "warn"
  | 1 => "info"
  | 2 => "debug"
  | _ => "trace"

inductive CommandError where
  /-- A result could not be written. -/
  | unwritable (error : Storage.FileError)
  | unreadable (path : String) (error : Storage.FileError)
  | document (path : String) (fault : Document.Fault)
  | table (error : TableError)
  | rendering (failure : Failure)
  | invalidArgument (message : String)
  /-- The command did its work, and the result is bad. -/
  | outcome (code : Nat) (message : String)
deriving DecidableEq, Repr

def failureMessage : Failure → String
  | .render error => error.message
  | .misuse error => error.message

namespace CommandError

def message : CommandError → String
  | unwritable error => "I/O error: " ++ error.message
  | unreadable path error => "cannot read " ++ path ++ ": " ++ error.message
  | document path fault => path ++ ": " ++ fault.message
  | table error => error.message
  | rendering failure => failureMessage failure
  | invalidArgument message => "invalid argument: " ++ message
  | outcome _ message => message

def exitCode : CommandError → Nat
  | outcome code _ => code
  | invalidArgument _ => 2
  | _ => 1

end CommandError

end Command

end Phrasebook
