import Phrasebook.Markup.Reference

/-!
# Pages

Markup is written item by item to a sink, which may begin to refuse at any point and then refuses
for good. A page keeps the depth of the elements that are open: every tag and every comment stands on
a line of its own, one tab in for each open element, except at the very start and directly after a
text, so that a text keeps its exact extent.
-/

namespace Phrasebook.Markup

/-- Where written text goes. -/
structure Sink where
  text : String := ""
  /-- How many more writes are accepted; no limit if absent. -/
  patience : Option Nat := none
  /-- The system's wording of a refusal. -/
  refusal : String := ""
deriving DecidableEq, Repr

namespace Sink

/-- Writes a text, or is refused and writes nothing. Writing nothing is never refused. -/
def write (sink : Sink) (s : String) : Bool × Sink :=
  if s.isEmpty then (true, sink)
  else match sink.patience with
    | none => (true, { sink with text := sink.text ++ s })
    | some 0 => (false, sink)
    | some (n + 1) => (true, { sink with text := sink.text ++ s, patience := some n })

/-- Writes texts one after the other up to the first refusal. -/
def writeAll (sink : Sink) : List String → Bool × Sink
  | [] => (true, sink)
  | s :: rest =>
    match sink.write s with
    | (true, sink) => sink.writeAll rest
    | (false, sink) => (false, sink)

end Sink

inductive Item where
  | declaration
  | start (name : String) (attributes : List (String × String))
  | empty (name : String) (attributes : List (String × String))
  | close (name : String)
  /-- A text, whose reserved characters are spelled as references. -/
  | text (s : String)
  /-- A text that is written as it is. -/
  | cdata (s : String)
  | comment (s : String)
deriving DecidableEq, Repr

namespace Item

/-- An attribute with the space in front of it. -/
def attributeText (pair : String × String) : String :=
  " " ++ pair.1 ++ "=\"" ++ escape pair.2 ++ "\""

def tagText (name : String) (attributes : List (String × String)) : String :=
  name ++ String.join (attributes.map attributeText)

/-- Whether the item stands on a line of its own. -/
def ownLine : Item → Bool
  | text _ => false
  | cdata _ => false
  | _ => true

/-- The depth behind the item, given the depth in front of it. -/
def depthAfter (depth : Nat) : Item → Nat
  | start _ _ => depth + 1
  | close _ => depth - 1
  | _ => depth

/-- The depth at which the item stands. -/
def depthAt (depth : Nat) : Item → Nat
  | close _ => depth - 1
  | _ => depth

/-- The item itself, as the pieces in which it is written. -/
def pieces : Item → List String
  | declaration => ["<?", "xml version=\"1.0\" encoding=\"utf-8\"", "?>"]
  | start name attributes => ["<", tagText name attributes, ">"]
  | empty name attributes => ["<", tagText name attributes, "/>"]
  | close name => ["</", name, ">"]
  | text s => [escape s]
  | cdata s => ["<![CDATA[", s, "]]>"]
  | comment s => ["<!--", s, "-->"]

end Item

structure Page where
  sink : Sink
  /-- The number of open elements. -/
  depth : Nat := 0
  /-- Whether the next tag or comment starts a line. -/
  breaks : Bool := false
deriving DecidableEq, Repr

namespace Page

/-- The line break and the indent in front of an item. -/
def lead (page : Page) (item : Item) : List String :=
  if item.ownLine && page.breaks then
    ["\n", String.ofList (List.replicate (item.depthAt page.depth) '\t')]
  else []

/-- Writes an item, and says whether the sink took all of it. -/
def write (page : Page) (item : Item) : Bool × Page :=
  let (accepted, sink) := page.sink.writeAll (page.lead item ++ item.pieces)
  (accepted, { sink := sink, depth := item.depthAfter page.depth, breaks := item.ownLine })

end Page

end Phrasebook.Markup
