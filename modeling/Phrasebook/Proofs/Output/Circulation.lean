import Mathlib.Algebra.Order.Group.Multiset
import Mathlib.Logic.Relation
import Phrasebook.Output.BufferPool

/-!
# Circulation of buffers

Between two looks at a pool, buffers are taken out of it, grow, and are given back; now and then
the pool is cleared. Which buffers are in use, and in what order these things happen, is left open
here. Whatever the order, the pool stays small and clean, no buffer is in two places, and what was
taken and not given back is what is in use.
-/

namespace Phrasebook

namespace Buffer

inductive Change where
  | push (s : String)
  | reserve (bytes : Nat)
  | rewriteBehind (start : Nat) (f : String → String)

def change (buffer : Buffer) : Change → Buffer
  | .push s => buffer.push s
  | .reserve bytes => buffer.reserve bytes
  | .rewriteBehind start f => buffer.rewriteBehind start f

def needed (buffer : Buffer) : Change → Nat
  | .push s => buffer.text.utf8ByteSize + s.utf8ByteSize
  | .reserve bytes => buffer.text.utf8ByteSize + bytes
  | .rewriteBehind start f => (buffer.rewriteBehind start f).text.utf8ByteSize

/-- One change of a buffer, which stays the same buffer: a capacity that is not enough becomes its
double, or what is needed if that is more. -/
def Grows (before after : Buffer) : Prop :=
  ∃ change : Change, after = before.change change ∧ after.number = before.number ∧
    after.capacity =
      if before.needed change ≤ before.capacity then before.capacity
      else max (2 * before.capacity) (before.needed change)

theorem grows_change (buffer : Buffer) (change : Change) : buffer.Grows (buffer.change change) :=
  ⟨change, rfl, by cases change <;> rfl, by cases change <;> rfl⟩

theorem Grows.number_eq {before after : Buffer} (h : before.Grows after) :
    after.number = before.number := h.choose_spec.2.1

theorem Grows.capacity_le {before after : Buffer} (h : before.Grows after) :
    before.capacity ≤ after.capacity := by
  obtain ⟨change, -, -, capacity⟩ := h
  rw [capacity]
  split <;> omega

end Buffer

namespace Transfer

def takes (n : Nat) : Transfer → Bool
  | taken buffer => buffer.number = n
  | given _ => false
  | cleared => false

def gives (n : Nat) : Transfer → Bool
  | taken _ => false
  | given buffer => buffer.number = n
  | cleared => false

@[simp] theorem takes_taken (n : Nat) (buffer : Buffer) :
    takes n (.taken buffer) = decide (buffer.number = n) := rfl

@[simp] theorem takes_given (n : Nat) (buffer : Buffer) : takes n (.given buffer) = false := rfl

@[simp] theorem gives_taken (n : Nat) (buffer : Buffer) : gives n (.taken buffer) = false := rfl

@[simp] theorem gives_given (n : Nat) (buffer : Buffer) :
    gives n (.given buffer) = decide (buffer.number = n) := rfl

/-- The pooled buffers that a history, the latest first, leads to: a buffer that is given back is
pooled exactly if its capacity is moderate and fewer than four are pooled. -/
def pooledAfter : List Transfer → List Buffer
  | [] => []
  | taken _ :: earlier => (pooledAfter earlier).tail
  | given buffer :: earlier =>
    if buffer.capacity ≤ 262144 ∧ (pooledAfter earlier).length < 4 then
      buffer.emptied :: pooledAfter earlier
    else pooledAfter earlier
  | cleared :: _ => []

end Transfer

namespace BufferPool

theorem checkout_history (pool : BufferPool) :
    pool.checkout.2.history = .taken pool.checkout.1 :: pool.history := by
  rw [checkout]
  split <;> rfl

theorem checkout_buffers (pool : BufferPool) : pool.checkout.2.buffers = pool.buffers.tail := by
  rw [checkout]
  split
  next none => rw [none]; rfl
  next some => rw [some]; rfl

theorem checkout_eq_headD (pool : BufferPool) :
    pool.checkout.1 = pool.buffers.headD (.fresh pool.checkout.1.number) := by
  rw [checkout]
  split
  next none => rw [none]; rfl
  next some => rw [some]; rfl

theorem release_history (pool : BufferPool) (buffer : Buffer) :
    (pool.release buffer).history = .given buffer :: pool.history := by
  rw [release]
  split_ifs <;> rfl

theorem release_made (pool : BufferPool) (buffer : Buffer) :
    (pool.release buffer).made = pool.made := by
  rw [release]
  split_ifs <;> rfl

theorem release_buffers (pool : BufferPool) (buffer : Buffer) :
    (pool.release buffer).buffers =
      if buffer.capacity ≤ 262144 ∧ pool.size < 4 then buffer.emptied :: pool.buffers
      else pool.buffers := by
  rw [release]
  split
  next large => exact (if_neg fun kept ↦ absurd large (Nat.not_lt.2 kept.1)).symm
  next moderate =>
    split
    next room => exact (if_pos ⟨Nat.le_of_not_lt moderate, room⟩).symm
    next full => exact (if_neg fun kept ↦ full kept.2).symm

/-- The numbers of all buffers, pooled or in use. -/
def numbers (pool : BufferPool) (out : Multiset Buffer) : Multiset Nat :=
  (pool.buffers + out : Multiset Buffer).map Buffer.number

/-- A buffer that is taken out of the pool is no new one, or it has the next number. -/
theorem numbers_checkout (pool : BufferPool) (out : Multiset Buffer) :
    pool.checkout.2.numbers (pool.checkout.1 ::ₘ out) = pool.numbers out ∧
        pool.checkout.2.made = pool.made ∨
      pool.checkout.2.numbers (pool.checkout.1 ::ₘ out) = pool.made ::ₘ pool.numbers out ∧
        pool.checkout.2.made = pool.made + 1 := by
  rw [numbers, numbers, Multiset.add_cons, Multiset.map_cons, checkout_buffers, checkout]
  split
  next none =>
    right
    rw [none]
    exact ⟨rfl, rfl⟩
  next first rest some =>
    left
    rw [some, ← Multiset.map_cons, ← Multiset.cons_add]
    exact ⟨rfl, rfl⟩

theorem numbers_release_le (pool : BufferPool) (buffer : Buffer) (out : Multiset Buffer) :
    (pool.release buffer).numbers out ≤ pool.numbers (buffer ::ₘ out) := by
  rw [numbers, numbers, Multiset.add_cons, Multiset.map_cons, release_buffers]
  split
  · rw [← Multiset.cons_coe, Multiset.cons_add, Multiset.map_cons]
    exact le_rfl
  · exact Multiset.le_cons_self _ _

theorem numbers_clear_le (pool : BufferPool) (out : Multiset Buffer) :
    pool.clear.numbers out ≤ pool.numbers out := by
  have nothing : pool.clear.numbers out = out.map Buffer.number := congrArg _ (zero_add out)
  rw [nothing]
  exact Multiset.map_le_map (Multiset.le_add_left _ _)

end BufferPool

/-- The pools and the buffers in use that taking, changing and giving back lead to, in any order. -/
inductive Circulates : BufferPool → Multiset Buffer → Prop
  | start : Circulates {} 0
  | take {pool : BufferPool} {out : Multiset Buffer} (h : Circulates pool out) :
      Circulates pool.checkout.2 (pool.checkout.1 ::ₘ out)
  | grow {pool : BufferPool} {out : Multiset Buffer} {before after : Buffer}
      (h : Circulates pool (before ::ₘ out)) (grows : before.Grows after) :
      Circulates pool (after ::ₘ out)
  | give {pool : BufferPool} {out : Multiset Buffer} {buffer : Buffer}
      (h : Circulates pool (buffer ::ₘ out)) : Circulates (pool.release buffer) out
  | clear {pool : BufferPool} {out : Multiset Buffer} (h : Circulates pool out) :
      Circulates pool.clear out

/-- What holds of a pool at every point, with the buffers that are in use then. -/
structure Accounted (pool : BufferPool) (out : Multiset Buffer) : Prop where
  pooled : pool.buffers = Transfer.pooledAfter pool.history
  few : pool.size ≤ 4
  clean : ∀ buffer ∈ pool.buffers,
    buffer.text = "" ∧ 8192 ≤ buffer.capacity ∧ buffer.capacity ≤ 262144
  roomy : ∀ buffer ∈ out, 8192 ≤ buffer.capacity
  /-- No buffer is pooled twice or both pooled and in use. -/
  apart : (pool.numbers out).Nodup
  made : ∀ n ∈ pool.numbers out, n < pool.made
  /-- Every time a buffer was taken it was given back once, unless it is still in use. -/
  matched : ∀ n, pool.history.countP (·.takes n) =
    pool.history.countP (·.gives n) + (out.map Buffer.number).count n
  /-- A buffer that is taken is empty: the first of the pool, or a new one. -/
  taken : ∀ buffer earlier, .taken buffer :: earlier <:+ pool.history →
    buffer.text = "" ∧ buffer = (Transfer.pooledAfter earlier).headD ⟨buffer.number, "", 8192⟩
  grown : ∀ buffer, buffer ∈ out ∨ .given buffer ∈ pool.history →
    ∃ first, .taken first ∈ pool.history ∧ Relation.ReflTransGen Buffer.Grows first buffer

namespace Accounted

variable {pool : BufferPool} {out : Multiset Buffer}

theorem start : Accounted {} 0 where
  pooled := rfl
  few := Nat.zero_le 4
  clean := nofun
  roomy := nofun
  apart := Multiset.nodup_zero
  made := nofun
  matched _ := rfl
  taken _ _ h := nomatch List.suffix_nil.1 h
  grown _ h := h.elim nofun nofun

/-- A buffer that is taken next is empty and has room. -/
theorem checkout_clean (h : Accounted pool out) :
    pool.checkout.1.text = "" ∧ 8192 ≤ pool.checkout.1.capacity := by
  rw [pool.checkout_eq_headD]
  cases buffers : pool.buffers with
  | nil => exact ⟨rfl, Nat.le_refl _⟩
  | cons buffer rest =>
    obtain ⟨empty, roomy, -⟩ := h.clean buffer (buffers ▸ List.mem_cons_self)
    exact ⟨empty, roomy⟩

theorem take (h : Accounted pool out) :
    Accounted pool.checkout.2 (pool.checkout.1 ::ₘ out) where
  pooled := by
    rw [pool.checkout_history, Transfer.pooledAfter, ← h.pooled]
    exact pool.checkout_buffers
  few := by
    rw [BufferPool.size, pool.checkout_buffers, List.length_tail]
    exact (Nat.sub_le _ _).trans h.few
  clean := by
    rw [pool.checkout_buffers]
    exact fun buffer kept ↦ h.clean buffer (List.mem_of_mem_tail kept)
  roomy buffer used := by
    obtain rfl | used := Multiset.mem_cons.1 used
    · exact h.checkout_clean.2
    · exact h.roomy buffer used
  apart := by
    obtain ⟨same, -⟩ | ⟨more, -⟩ := pool.numbers_checkout out
    · rw [same]
      exact h.apart
    · rw [more]
      exact Multiset.nodup_cons.2 ⟨fun old ↦ Nat.lt_irrefl _ (h.made _ old), h.apart⟩
  made n known := by
    obtain ⟨same, made⟩ | ⟨more, made⟩ := pool.numbers_checkout out
    · rw [made]
      exact h.made n (same ▸ known)
    · rw [more] at known
      rw [made]
      obtain rfl | old := Multiset.mem_cons.1 known
      · exact Nat.lt_succ_self _
      · exact Nat.lt_succ_of_lt (h.made n old)
  matched n := by
    rw [pool.checkout_history, List.countP_cons, List.countP_cons, Multiset.map_cons,
      Multiset.count_cons, h.matched n]
    simp only [Transfer.takes_taken, Transfer.gives_taken, decide_eq_true_eq, eq_comm (a := n),
      Bool.false_eq_true, if_false]
    omega
  taken buffer earlier point := by
    rw [pool.checkout_history] at point
    obtain now | before := List.suffix_cons_iff.1 point
    · obtain ⟨same, rfl⟩ := List.cons.inj now
      obtain rfl := Transfer.taken.inj same
      rw [← h.pooled]
      exact ⟨h.checkout_clean.1, pool.checkout_eq_headD⟩
    · exact h.taken buffer earlier before
  grown buffer used := by
    rw [pool.checkout_history]
    rw [Multiset.mem_cons, pool.checkout_history, List.mem_cons] at used
    have before : buffer = pool.checkout.1 ∨ buffer ∈ out ∨ .given buffer ∈ pool.history := by
      obtain (now | used) | now | given := used
      · exact .inl now
      · exact .inr (.inl used)
      · exact nomatch now
      · exact .inr (.inr given)
    obtain rfl | before := before
    · exact ⟨_, List.mem_cons_self, .refl⟩
    · obtain ⟨first, taken, steps⟩ := h.grown buffer before
      exact ⟨first, List.mem_cons_of_mem _ taken, steps⟩

/-- A buffer in use that changes is still the same buffer. -/
theorem grow {before after : Buffer} (h : Accounted pool (before ::ₘ out))
    (grows : before.Grows after) : Accounted pool (after ::ₘ out) := by
  have same : pool.numbers (after ::ₘ out) = pool.numbers (before ::ₘ out) := by
    rw [BufferPool.numbers, BufferPool.numbers, Multiset.add_cons, Multiset.add_cons,
      Multiset.map_cons, Multiset.map_cons, grows.number_eq]
  have own := Multiset.mem_cons_self before out
  refine
    { h with
      roomy := ?roomy
      apart := same ▸ h.apart
      made := same ▸ h.made
      matched := ?matched
      grown := ?grown }
  case roomy =>
    intro buffer used
    obtain rfl | used := Multiset.mem_cons.1 used
    · exact (h.roomy before own).trans grows.capacity_le
    · exact h.roomy buffer (Multiset.mem_cons_of_mem used)
  case matched =>
    intro n
    rw [h.matched n, Multiset.map_cons, Multiset.map_cons, grows.number_eq]
  case grown =>
    intro buffer used
    rw [Multiset.mem_cons] at used
    obtain (rfl | used) | given := used
    · obtain ⟨first, taken, steps⟩ := h.grown before (.inl own)
      exact ⟨first, taken, steps.tail grows⟩
    · exact h.grown buffer (.inl (Multiset.mem_cons_of_mem used))
    · exact h.grown buffer (.inr given)

theorem give {buffer : Buffer} (h : Accounted pool (buffer ::ₘ out)) :
    Accounted (pool.release buffer) out where
  pooled := by
    rw [pool.release_history, Transfer.pooledAfter, ← h.pooled]
    exact pool.release_buffers buffer
  few := by
    rw [BufferPool.size, pool.release_buffers]
    split
    next kept => exact kept.2
    next => exact h.few
  clean other kept := by
    rw [pool.release_buffers] at kept
    split at kept
    next moderate =>
      obtain rfl | old := List.mem_cons.1 kept
      · exact ⟨rfl, h.roomy buffer (Multiset.mem_cons_self buffer out), moderate.1⟩
      · exact h.clean other old
    next => exact h.clean other kept
  roomy other used := h.roomy other (Multiset.mem_cons_of_mem used)
  apart := Multiset.nodup_of_le (pool.numbers_release_le buffer out) h.apart
  made n known := by
    rw [pool.release_made]
    exact h.made n (Multiset.mem_of_le (pool.numbers_release_le buffer out) known)
  matched n := by
    have before := h.matched n
    rw [Multiset.map_cons, Multiset.count_cons] at before
    rw [pool.release_history, List.countP_cons, List.countP_cons, before]
    simp only [Transfer.takes_given, Transfer.gives_given, decide_eq_true_eq, eq_comm (a := n),
      Bool.false_eq_true, if_false]
    omega
  taken other earlier point := by
    rw [pool.release_history] at point
    obtain now | before := List.suffix_cons_iff.1 point
    · exact nomatch now
    · exact h.taken other earlier before
  grown other used := by
    rw [pool.release_history, List.mem_cons] at used
    have before : other ∈ buffer ::ₘ out ∨ .given other ∈ pool.history := by
      obtain used | now | given := used
      · exact .inl (Multiset.mem_cons_of_mem used)
      · obtain rfl := Transfer.given.inj now
        exact .inl (Multiset.mem_cons_self _ _)
      · exact .inr given
    obtain ⟨first, taken, steps⟩ := h.grown other before
    exact ⟨first, pool.release_history buffer ▸ List.mem_cons_of_mem _ taken, steps⟩

theorem clear (h : Accounted pool out) : Accounted pool.clear out where
  pooled := rfl
  few := Nat.zero_le 4
  clean := nofun
  roomy := h.roomy
  apart := Multiset.nodup_of_le (pool.numbers_clear_le out) h.apart
  made n known := h.made n (Multiset.mem_of_le (pool.numbers_clear_le out) known)
  matched := h.matched
  taken buffer earlier point := by
    obtain now | before := List.suffix_cons_iff.1 point
    · exact nomatch now
    · exact h.taken buffer earlier before
  grown buffer used := by
    have before : buffer ∈ out ∨ .given buffer ∈ pool.history := by
      obtain used | given := used
      · exact .inl used
      · obtain now | given := List.mem_cons.1 given
        · exact nomatch now
        · exact .inr given
    obtain ⟨first, taken, steps⟩ := h.grown buffer before
    exact ⟨first, List.mem_cons_of_mem _ taken, steps⟩

end Accounted

namespace Circulates

variable {pool : BufferPool} {out : Multiset Buffer}

/-- The accounts are right after everything that happens. -/
theorem accounted (h : Circulates pool out) : Accounted pool out := by
  induction h with
  | start => exact .start
  | take _ ih => exact ih.take
  | grow _ grows ih => exact ih.grow grows
  | give _ ih => exact ih.give
  | clear _ ih => exact ih.clear

/-- A buffer that is taken out of the pool is empty. -/
theorem checkout_text (h : Circulates pool out) : pool.checkout.1.text = "" := by
  have latest : .taken pool.checkout.1 :: pool.history <:+ pool.checkout.2.history :=
    ⟨[], pool.checkout_history.symm⟩
  exact (h.take.accounted.taken _ _ latest).1

/-- Every point of the history was reached in the same way. -/
theorem earlier (h : Circulates pool out) {earlier : List Transfer}
    (point : earlier <:+ pool.history) :
    ∃ pool out, pool.history = earlier ∧ Circulates pool out := by
  induction h with
  | start => exact ⟨{}, 0, (List.suffix_nil.1 point).symm, .start⟩
  | @take pool out before ih =>
    rw [pool.checkout_history] at point
    obtain rfl | before' := List.suffix_cons_iff.1 point
    · exact ⟨_, _, pool.checkout_history, before.take⟩
    · exact ih before'
  | grow _ _ ih => exact ih point
  | @give pool out buffer before ih =>
    rw [pool.release_history] at point
    obtain rfl | before' := List.suffix_cons_iff.1 point
    · exact ⟨_, _, pool.release_history buffer, before.give⟩
    · exact ih before'
  | @clear pool out before ih =>
    obtain rfl | before' := List.suffix_cons_iff.1 point
    · exact ⟨_, _, rfl, before.clear⟩
    · exact ih before'

end Circulates

end Phrasebook
