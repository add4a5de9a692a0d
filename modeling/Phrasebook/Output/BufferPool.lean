/-!
# Buffer Pools

Text that is put together from several pieces grows in a buffer that is checked out of a pool and
given back when it is no longer needed. A pool keeps a few emptied buffers of moderate capacity, as
a stack, so that rendering need not allocate again. Capacities count bytes.
-/

namespace Phrasebook

/-- A text under construction and the number of bytes set aside for it. -/
structure Buffer where
  /-- No two buffers have the same number, and a buffer that is used again has the one it had. -/
  number : Nat
  text : String
  capacity : Nat
deriving DecidableEq, Repr

namespace Buffer

def startCapacity : Nat := 8192

def fresh (number : Nat) : Buffer := ⟨number, "", startCapacity⟩

/-- The capacity after making room for `needed` bytes: it at least doubles when it grows. -/
def grownCapacity (capacity needed : Nat) : Nat :=
  if needed ≤ capacity then capacity else max (2 * capacity) needed

def push (buffer : Buffer) (s : String) : Buffer :=
  { buffer with
    text := buffer.text ++ s
    capacity := grownCapacity buffer.capacity (buffer.text.utf8ByteSize + s.utf8ByteSize) }

def reserve (buffer : Buffer) (bytes : Nat) : Buffer :=
  { buffer with capacity := grownCapacity buffer.capacity (buffer.text.utf8ByteSize + bytes) }

/-- Changes the text behind the first `start` characters. -/
def rewriteBehind (buffer : Buffer) (start : Nat) (f : String → String) : Buffer :=
  let text := String.ofList (buffer.text.toList.take start) ++
    f (String.ofList (buffer.text.toList.drop start))
  { buffer with
    text := text
    capacity := grownCapacity buffer.capacity text.utf8ByteSize }

/-- Takes the text away; what was set aside for it stays. -/
def emptied (buffer : Buffer) : Buffer := { buffer with text := "" }

end Buffer

inductive Transfer where
  | taken (buffer : Buffer)
  /-- A buffer was given back, as it was then. -/
  | given (buffer : Buffer)
  | cleared
deriving DecidableEq, Repr

/-- The buffers that are not in use, the next one to be used first. -/
structure BufferPool where
  buffers : List Buffer := []
  /-- How many buffers were made so far. -/
  made : Nat := 0
  /-- What happened so far, the latest first. No operation reads it. -/
  history : List Transfer := []
deriving DecidableEq, Repr

namespace BufferPool

/-- The greatest number of buffers that are kept. -/
def maxPooled : Nat := 4

/-- The greatest capacity of a buffer that is kept. -/
def maxRetained : Nat := 262144

def size (pool : BufferPool) : Nat := pool.buffers.length

def note (pool : BufferPool) (transfer : Transfer) : BufferPool :=
  { pool with history := transfer :: pool.history }

/-- Takes a pooled buffer, or a new one if there is none. -/
def checkout (pool : BufferPool) : Buffer × BufferPool :=
  match pool.buffers with
  | [] =>
    let buffer := .fresh pool.made
    (buffer, { pool with made := pool.made + 1 }.note (.taken buffer))
  | buffer :: rest => (buffer, { pool with buffers := rest }.note (.taken buffer))

/-- Gives a buffer back: it is emptied and kept, unless it grew too large or enough are kept. -/
def release (pool : BufferPool) (buffer : Buffer) : BufferPool :=
  let noted := pool.note (.given buffer)
  if maxRetained < buffer.capacity then noted
  else if pool.size < maxPooled then { noted with buffers := buffer.emptied :: pool.buffers }
  else noted

def clear (pool : BufferPool) : BufferPool := { pool with buffers := [] }.note .cleared

end BufferPool

end Phrasebook
