import Phrasebook.Proofs.Output.Circulation
import Phrasebook.Proofs.Output.Passages

/-!
# Appending is concatenation

What is appended to an output adds one text each time, and the text of the output is all of them in
order. Whether the output holds a single whole text or a buffer out of the pool depends on how many
passages there were and of what sort, and never shows in the text.
-/

namespace Phrasebook

open Passage (textOf counted stateAfter)

/-- An output and the pool beside it, after passages were appended to a new output that found the
pool as given. -/
inductive Gathered (format : NumberFormat) (pool : BufferPool) (passages : List Passage) :
    Output.Pooled → Prop
  | empty (none : counted passages = []) :
      Gathered format pool passages ({ format := format }, pool)
  | whole (s : String) (one : counted passages = [.whole s]) :
      Gathered format pool passages (⟨.whole s, format⟩, pool)
  | buffered (buffer : Buffer) (many : stateAfter passages = "Buffered")
      (text : buffer.text = textOf format passages) :
      Gathered format pool passages (⟨.buffered buffer, format⟩, pool.checkout.2)

namespace Gathered

variable {format : NumberFormat} {pool : BufferPool} {passages : List Passage}
  {pooled : Output.Pooled}

theorem format_eq (h : Gathered format pool passages pooled) : pooled.1.format = format := by
  cases h <;> rfl

/-- The text of the output is that of the passages. -/
theorem text_eq (h : Gathered format pool passages pooled) :
    pooled.1.text = textOf format passages := by
  cases h with
  | empty none => rw [← Passage.textOf_counted, none]; rfl
  | whole s one =>
    rw [← Passage.textOf_counted, one, textOf, List.map_singleton, String.join_cons,
      String.join_nil, String.append_empty]
    rfl
  | buffered buffer many text => exact text

theorem stateName_eq (h : Gathered format pool passages pooled) :
    pooled.1.stateName = stateAfter passages := by
  cases h with
  | empty none => rw [stateAfter, none]; rfl
  | whole s one => rw [stateAfter, one]; rfl
  | buffered buffer many text => exact many.symm

/-- A buffer was taken out of the pool exactly if the output has one. -/
theorem pool_eq (h : Gathered format pool passages pooled) :
    pooled.2 = if stateAfter passages = "Buffered" then pool.checkout.2 else pool := by
  rw [← h.stateName_eq]
  cases h <;> rfl

/-- Sealing the output yields the text of the passages. -/
theorem close_eq (h : Gathered format pool passages pooled) :
    (Output.close pooled).1 = .ok (textOf format passages) := by
  rw [← h.text_eq]
  cases h <;> rfl

theorem finish_eq (h : Gathered format pool passages pooled) :
    (Output.finish pooled).1 = textOf format passages := by
  rw [← h.text_eq]
  cases h <;> rfl

/-- The buffer that the output has or takes holds the text so far. -/
theorem promote (h : Gathered format pool passages pooled) (clean : pool.checkout.1.text = "") :
    ∃ buffer, Output.promote pooled = .ok (buffer, pool.checkout.2) ∧
      buffer.text = textOf format passages := by
  have text := h.text_eq
  cases h with
  | empty none => exact ⟨pool.checkout.1, rfl, clean.trans text⟩
  | whole s one =>
    refine ⟨pool.checkout.1.push s, rfl, ?_⟩
    rw [← text, Buffer.push, clean, String.empty_append]
    rfl
  | buffered buffer many text => exact ⟨buffer, rfl, text⟩

/-- A change of the buffer that adds the text of a passage. -/
theorem withBuffer (h : Gathered format pool passages pooled) (clean : pool.checkout.1.text = "")
    (passage : Passage) (counts : passage.isVoid = false)
    (further : counted passages = [] → passage.isWhole = false) {f : Buffer → Buffer}
    (adds : ∀ buffer, (f buffer).text = buffer.text ++ passage.text format) :
    ∃ after, Output.withBuffer f pooled = .ok after ∧
      Gathered format pool (passages ++ [passage]) after := by
  obtain ⟨buffer, promoted, text⟩ := h.promote clean
  refine ⟨_, by rw [Output.withBuffer, promoted]; rfl, ?_⟩
  rw [← h.format_eq] at adds ⊢
  refine .buffered (f buffer) (Passage.stateAfter_concat counts further) ?_
  rw [adds, text, Passage.textOf_concat, h.format_eq]

/-- One more passage. -/
theorem append (h : Gathered format pool passages pooled) (clean : pool.checkout.1.text = "")
    (passage : Passage) :
    ∃ after, passage.operation pooled = .ok after ∧
      Gathered format pool (passages ++ [passage]) after := by
  cases void : passage.isVoid with
  | true =>
    have same : textOf format (passages ++ [passage]) = textOf format passages := by
      rw [Passage.textOf_concat, passage.text_of_isVoid void, String.append_empty]
    have count := Passage.counted_concat_of_isVoid passages void
    refine ⟨pooled, passage.operation_of_isVoid void pooled, ?_⟩
    cases h with
    | empty none => exact .empty (count.trans none)
    | whole s one => exact .whole s (count.trans one)
    | buffered buffer many text =>
      refine .buffered buffer ?_ (text.trans same.symm)
      rw [stateAfter, count]
      exact many
  | false =>
    cases whole : passage.isWhole with
    | false =>
      obtain ⟨f, operation, adds⟩ := passage.addsBuilt void whole pooled
      rw [operation]
      rw [h.format_eq] at adds
      exact h.withBuffer clean passage void (fun _ ↦ whole) adds
    | true =>
      obtain ⟨s, rfl⟩ := passage.eq_whole_of_isWhole whole
      have built := h.withBuffer clean (.whole s) rfl
      cases h with
      | empty none =>
        exact ⟨_, rfl, .whole s (by rw [Passage.counted_concat passages rfl, none]; rfl)⟩
      | whole first one =>
        have counts : counted passages ≠ [] := one ▸ List.cons_ne_nil _ _
        exact built (fun none ↦ absurd none counts) (f := (·.push s)) fun _ ↦ rfl
      | buffered buffer many text =>
        refine built (fun none ↦ ?_) (f := (·.push s)) fun _ ↦ rfl
        rw [stateAfter, none] at many
        exact absurd many (by decide)

/-- All additions of a list, one after the other. -/
theorem performAll {σ : Type} (source : Option (Source σ)) (additions : List Addition)
    (h : Gathered format pool passages pooled) (clean : pool.checkout.1.text = "") (world : σ) :
    ∃ after : Output.Pooled,
      Addition.performAll source additions ⟨pooled.1, pooled.2, world⟩ =
          (.ok (), ⟨after.1, after.2, world⟩) ∧
        Gathered format pool (passages ++ additions.map Addition.passage) after := by
  induction additions generalizing passages pooled with
  | nil => exact ⟨pooled, rfl, by rwa [List.map_nil, List.append_nil]⟩
  | cons addition rest ih =>
    obtain ⟨next, operation, gathered⟩ := h.append clean addition.passage
    obtain ⟨after, run, all⟩ := ih gathered
    refine ⟨after, ?_, by rwa [List.append_assoc] at all⟩
    have performed : addition.perform source ⟨pooled.1, pooled.2, world⟩ =
        (.ok (), ⟨next.1, next.2, world⟩) := by
      rw [Addition.perform_eq]
      exact Compose.append_of_ok operation
    rw [Addition.performAll, Compose.bind_of_ok performed, run]

end Gathered

/-- Additions to a new output, whatever is pooled, leave it with their texts one after the other, in
the state that their number and sorts give, and with a buffer out of the pool in just one of the
states. Sealing the output yields that text. -/
theorem additions_concatenate {σ : Type} (source : Option (Source σ)) (format : NumberFormat)
    {pool : BufferPool} {out : Multiset Buffer} (circulates : Circulates pool out)
    (additions : List Addition) (world : σ) :
    let passages := additions.map Addition.passage
    ∃ after : Output.Pooled,
      Addition.performAll source additions ⟨{ format := format }, pool, world⟩ =
          (.ok (), ⟨after.1, after.2, world⟩) ∧
        after.1.text = textOf format passages ∧
        after.1.stateName = stateAfter passages ∧
        after.1.format = format ∧
        after.2 = (if stateAfter passages = "Buffered" then pool.checkout.2 else pool) ∧
        (Output.close after).1 = .ok (textOf format passages) ∧
        (Output.finish after).1 = textOf format passages := by
  intro passages
  have start : Gathered format pool [] ({ format := format }, pool) := .empty rfl
  obtain ⟨after, run, all⟩ :=
    start.performAll source additions circulates.checkout_text world
  exact ⟨after, run, all.text_eq, all.stateName_eq, all.format_eq, all.pool_eq, all.close_eq,
    all.finish_eq⟩

/-- A text and a number, when a buffer is pooled that something else was written into. -/
theorem additions_concatenate_menu :
    let pool := ({} : BufferPool).checkout.2.release ((Buffer.fresh 0).push "yesterday")
    Circulates pool 0 ∧
      ∃ after : Output.Pooled,
        Addition.performAll (none : Option (Source Unit))
            [.direct (.whole "Soup "), .emitted (.signed (-3)) (.signed (-3)) rfl]
            ⟨{ format := ⟨','⟩ }, pool, ()⟩ = (.ok (), ⟨after.1, after.2, ()⟩) ∧
          after.1.text = "Soup -3" ∧
          after.1.stateName = "Buffered" ∧
          after.1.format = ⟨','⟩ ∧
          after.2 = pool.checkout.2 ∧
          (Output.close after).1 = .ok "Soup -3" ∧
          (Output.finish after).1 = "Soup -3" :=
  have circulates : Circulates _ 0 :=
    (Circulates.start.take.grow (Buffer.grows_change _ (.push "yesterday"))).give
  ⟨circulates, additions_concatenate none ⟨','⟩ circulates
    [.direct (.whole "Soup "), .emitted (.signed (-3)) (.signed (-3)) rfl] ()⟩

end Phrasebook
