/-!
# TOML Tables

The tables of a TOML document while it is being read. A table comes about by a header of its own, as
a step on the way of a longer header, by a dotted key, or as the newest element of an array of tables,
and this decides who may still add to it. Of values only texts matter here.
-/

namespace Phrasebook.Settings.Toml

/-- How a table came about. -/
inductive Shape where
  /-- By a header of its own. -/
  | header
  /-- On the way of a longer header. -/
  | implied
  /-- By a dotted key. -/
  | dotted
  /-- As the newest element of an array of tables. -/
  | element
deriving DecidableEq, Repr

inductive Node where
  | text (s : String)
  /-- A value that is not a text. -/
  | other
  | table (shape : Shape) (entries : List (String × Node))

abbrev Entries := List (String × Node)

namespace Entries

/-- Binds a key in place of the binding that it has, or behind all others. -/
def bind (entries : Entries) (key : String) (node : Node) : Entries :=
  if (entries.lookup key).isSome then
    entries.map fun entry => if entry.1 = key then (key, node) else entry
  else entries ++ [(key, node)]

/-- Binds a key that is not bound yet in the table at the end of a path of dotted keys. The tables on
the path have to be open to dotted keys; `shape` is that of the table at hand, and `atStart` says
whether it is the one that the path starts from. -/
def insertDotted (key : String) (value : Node) (atStart : Bool) (shape : Shape)
    (entries : Entries) : List String → Option Entries
  | [] =>
    if (shape == .dotted) == atStart || (entries.lookup key).isSome then none
    else some (entries.bind key value)
  | step :: rest =>
    match entries.lookup step with
    | none =>
      (insertDotted key value false .dotted [] rest).map fun inner =>
        entries.bind step (.table .dotted inner)
    | some (.table inner content) =>
      if inner = .header then none
      else (insertDotted key value false inner content rest).map fun content =>
        entries.bind step (.table inner content)
    | some _ => none

/-- Binds a key below the table that the last header opened. -/
def insertUnder (path : List String) (key : String) (value : Node) (shape : Shape)
    (entries : Entries) : List String → Option Entries
  | [] => insertDotted key value true shape entries path
  | step :: rest =>
    match entries.lookup step with
    | some (.table inner content) =>
      (insertUnder path key value inner content rest).map fun content =>
        entries.bind step (.table inner content)
    | _ => none

/-- Opens the table that a header names, as a new element of an array of tables if `asElement`. -/
def openTable (asElement : Bool) (entries : Entries) : List String → Option Entries
  | [] => none
  | [key] =>
    match entries.lookup key with
    | none => some (entries.bind key (.table (if asElement then .element else .header) []))
    | some (.table .implied content) =>
      if asElement then none else some (entries.bind key (.table .header content))
    | some (.table .element _) =>
      if asElement then some (entries.bind key (.table .element [])) else none
    | some _ => none
  | step :: rest =>
    match entries.lookup step with
    | none =>
      (openTable asElement [] rest).map fun content => entries.bind step (.table .implied content)
    | some (.table shape content) =>
      (openTable asElement content rest).map fun content =>
        entries.bind step (.table shape content)
    | some _ => none

end Entries

end Phrasebook.Settings.Toml
