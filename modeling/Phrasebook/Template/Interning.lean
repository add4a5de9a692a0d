import Std.Data.TreeMap

/-!
# Interned Names

The same few placeholder names recur in many phrases. An interner puts each distinct name into
memory once and hands out shares in that one allocation. It keeps a share in each of its own, so
nothing that it allocated is ever given up.
-/

namespace Phrasebook

/-- A share in the allocation of a name. -/
@[ext]
structure InternedName where
  allocation : Nat
deriving DecidableEq, Repr

/-- The names seen so far. -/
structure Interner where
  /-- The texts in memory, by allocation. -/
  memory : Array String := #[]
  /-- The allocations, to be looked up by their texts. -/
  known : Std.TreeMap String InternedName := ∅

namespace Interner

/-- The text of a name, as it stands in memory. -/
def text? (interner : Interner) (name : InternedName) : Option String :=
  interner.memory[name.allocation]?

/-- Names are equal if they share their allocation, and otherwise if their texts are equal. -/
def sameName (interner : Interner) (name other : InternedName) : Bool :=
  name == other || interner.text? name == interner.text? other

/-- The share in a text, which is put into memory if it was not seen before. -/
def intern (interner : Interner) (text : String) : InternedName × Interner :=
  match interner.known[text]? with
  | some name => (name, interner)
  | none =>
    let name : InternedName := ⟨interner.memory.size⟩
    (name, ⟨interner.memory.push text, interner.known.insert text name⟩)

end Interner

end Phrasebook
