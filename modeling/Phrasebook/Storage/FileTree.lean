import Phrasebook.Text.Utf8
import Std.Data.TreeMap

/-!
# File Trees

The files around a working directory, as far as opening, reading and writing them can tell. A path is
walked name by name: every name before the last one has to lead to a directory, a single dot included.
A directory can be opened like a file, and only reading it fails. What lies around the working
directory on every system is always there.
-/

namespace Phrasebook.Storage

open Phrasebook.Text

inductive FileError where
  | notFound
  | notDirectory
  | isDirectory
  | nameTooLong
  /-- The path holds the character that ends paths. -/
  | nulInName
  | notUtf8
deriving DecidableEq, Repr

def FileError.message : FileError → String
  | notFound => "No such file or directory (os error 2)"
  | notDirectory => "Not a directory (os error 20)"
  | isDirectory => "Is a directory (os error 21)"
  | nameTooLong => "File name too long (os error 36)"
  | nulInName => "file name contained an unexpected NUL byte"
  | notUtf8 => "stream did not contain valid UTF-8"

inductive Node where
  | file (bytes : Bytes)
  | directory
deriving DecidableEq, Repr

/-- Nodes by the names on the way to them, joined by slashes. The working directory itself has no
names. -/
structure FileTree where
  nodes : Std.TreeMap String Node := ∅

/-- Where a path ends. -/
inductive Destination where
  /-- At a directory that was walked through or started from. -/
  | directory
  /-- At a name in a directory, with or without a slash behind it. Whether there is anything of that
  name is open. -/
  | entry (directory : List String) (name : String) (slash : Bool)

namespace FileTree

def nameLimit : Nat := 255

def pathLimit : Nat := 4095

/-- The names that are written on a path. -/
def writtenNames (path : String) : List String := (path.splitOn "/").filter (· != "")

/-- The names on a path that lead anywhere; a single dot does not. -/
def pathNames (path : String) : List String := (writtenNames path).filter (· != ".")

/-- The directory that a path starts from: the working directory, or the root, whose name is a
slash. -/
def origin (path : String) : List String := if path.startsWith "/" then ["/"] else []

/-- The directory above a directory. Above the working directory two dots are a name like others. -/
def above (names : List String) : List String :=
  match names.getLast? with
  | none => [".."]
  | some ".." => names ++ [".."]
  | some "/" => names
  | some _ => names.dropLast

def rootDirectories : List String := ["dev", "etc", "proc", "tmp", "usr"]

/-- What is always there: the working directory and those above it, the root with some directories,
and the null device, a file that is empty whatever is written to it. -/
def fixedNode? : List String → Option Node
  | ["/"] => some .directory
  | ["/", name] => if rootDirectories.contains name then some .directory else none
  | ["/", "dev", "null"] => some (.file [])
  | names => if names.all (· == "..") then some .directory else none

def node? (tree : FileTree) (names : List String) : Option Node :=
  fixedNode? names <|> tree.nodes["/".intercalate names]?

/-- Puts a node into a directory in place of the one that was there. -/
def insert (tree : FileTree) (directory : List String) (name : String) (node : Node) : FileTree :=
  ⟨tree.nodes.insert ("/".intercalate (directory ++ [name])) node⟩

def child? (tree : FileTree) (directory : List String) (name : String) :
    Except FileError (Option Node) :=
  if nameLimit < name.utf8ByteSize then .error .nameTooLong
  else .ok (tree.node? (directory ++ [name]))

/-- The directory that one more name leads to. -/
def enter (tree : FileTree) (directory : List String) (name : String) :
    Except FileError (List String) := do
  if name = "." then return directory
  if name = ".." then return above directory
  match ← tree.child? directory name with
  | none => throw .notFound
  | some (.file _) => throw .notDirectory
  | some .directory => return directory ++ [name]

/-- Refuses what cannot be a path of anything. -/
def checkPath (path : String) : Except FileError Unit := do
  if path.toList.contains '\x00' then throw .nulInName
  if pathLimit < path.utf8ByteSize then throw .nameTooLong
  if path.isEmpty then throw .notFound

/-- Walks along a path up to its last name. -/
def arrive (tree : FileTree) (path : String) : Except FileError Destination := do
  checkPath path
  let names := writtenNames path
  let directory ← names.dropLast.foldlM tree.enter (origin path)
  match names.getLast? with
  | none => return .directory
  | some "." => return .directory
  | some ".." => return .directory
  | some name => return .entry directory name (path.endsWith "/")

/-- Opens what a path leads to. -/
def open? (tree : FileTree) (path : String) : Except FileError Node := do
  match ← tree.arrive path with
  | .directory => return .directory
  | .entry directory name slash =>
    match ← tree.child? directory name with
    | none => throw .notFound
    | some .directory => return .directory
    | some (.file bytes) => if slash then throw .notDirectory else return .file bytes

def read (tree : FileTree) (path : String) : Except FileError Bytes := do
  match ← tree.open? path with
  | .directory => throw .isDirectory
  | .file bytes => return bytes

def readText (tree : FileTree) (path : String) : Except FileError String := do
  match Utf8.decode (← tree.read path) with
  | .ok text => return text
  | .error _ => throw .notUtf8

/-- Writes a file in place of the one that was there. A name with a slash behind it is never one of a
file that could be written. -/
def write (tree : FileTree) (path : String) (bytes : Bytes) : Except FileError FileTree := do
  match ← tree.arrive path with
  | .directory => throw .isDirectory
  | .entry _ _ true => throw .isDirectory
  | .entry directory name false =>
    match ← tree.child? directory name with
    | some .directory => throw .isDirectory
    | _ => return tree.insert directory name (.file bytes)

/-- Makes the directories along names, from a directory on, as far as they are not there; where that
is impossible, it stops. -/
def makeDirectories (tree : FileTree) (directory : List String) : List String → FileTree
  | [] => tree
  | name :: rest =>
    match tree.enter directory name with
    | .ok directory => tree.makeDirectories directory rest
    | .error .notFound =>
      (tree.insert directory name .directory).makeDirectories (directory ++ [name]) rest
    | .error _ => tree

/-- Puts a directory into the tree, with the directories on the way to it. -/
def putDirectory (tree : FileTree) (path : String) : FileTree :=
  match checkPath path with
  | .error _ => tree
  | .ok () => tree.makeDirectories (origin path) (pathNames path)

/-- Puts a file into the tree, with the directories on the way to it, or a directory if the path ends
in a slash. Nothing is put where nothing can be. -/
def put (tree : FileTree) (path : String) (bytes : Bytes) : FileTree :=
  if path.endsWith "/" then tree.putDirectory path
  else
    match checkPath path with
    | .error _ => tree
    | .ok () =>
      let tree := tree.makeDirectories (origin path) (pathNames path).dropLast
      match tree.write path bytes with
      | .ok tree => tree
      | .error _ => tree

/-- Removes a file, and says whether there was one. -/
def remove (tree : FileTree) (path : String) : Bool × FileTree :=
  match tree.arrive path with
  | .ok (.entry directory name false) =>
    match tree.child? directory name with
    | .ok (some (.file _)) =>
      (true, ⟨tree.nodes.erase ("/".intercalate (directory ++ [name]))⟩)
    | _ => (false, tree)
  | _ => (false, tree)

end FileTree

end Phrasebook.Storage
