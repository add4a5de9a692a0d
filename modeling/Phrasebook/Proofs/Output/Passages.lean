import Mathlib.Data.List.Basic
import Phrasebook.Proofs.Numeral.Digits
import Phrasebook.Proofs.Output.NumberFormat
import Phrasebook.Proofs.Output.Steps

/-!
# Passages

There are many ways to append something to an output, and each adds one text. A whole text may be
kept outside a buffer, another output may have no text to add, and everything else goes into the
buffer of the output.
-/

namespace Phrasebook

open Numeral

namespace Buffer

theorem text_foldl_push (fragments : List String) (buffer : Buffer) :
    (fragments.foldl push buffer).text = buffer.text ++ String.join fragments := by
  induction fragments generalizing buffer with
  | nil => rw [List.foldl_nil, String.join_nil, String.append_empty]
  | cons fragment rest ih =>
    rw [List.foldl_cons, ih, String.join_cons, ← String.append_assoc]
    rfl

/-- What is rewritten behind the old text leaves the old text alone. -/
theorem text_rewriteBehind_push (buffer : Buffer) (s : String) (f : String → String) :
    ((buffer.push s).rewriteBehind buffer.text.length f).text = buffer.text ++ f s := by
  have old : (buffer.push s).text.toList.take buffer.text.length = buffer.text.toList := by
    rw [push, String.toList_append, ← String.length_toList, List.take_left]
  have added : (buffer.push s).text.toList.drop buffer.text.length = s.toList := by
    rw [push, String.toList_append, ← String.length_toList, List.drop_left]
  rw [rewriteBehind]
  dsimp only
  rw [old, added, String.ofList_toList, String.ofList_toList]

end Buffer

namespace Output

theorem appendUnsigned_eq (n : UInt64) : appendUnsigned n = appendCopied (toString n.toNat) := by
  rw [appendUnsigned, DigitField.formatUnsigned_eq]

theorem appendSigned_eq (n : Int64) : appendSigned n = appendCopied (toString n.toInt) := by
  rw [appendSigned, DigitField.formatSigned_eq]

theorem appendFloat_of_integral {value : FloatValue} {n : Int} (h : value.integral? = some n) :
    appendFloat value = appendCopied (toString n) := by
  have fits := ((value.integral?_eq_some_iff n).1 h).2
  rw [appendFloat, h]
  dsimp only
  rw [appendSigned_eq, fits.toInt_ofInt]

/-- An operation that adds a text to the buffer of an output. -/
def AddsBuilt (text : String) (operation : Pooled → Except OutputError Pooled) (pooled : Pooled) :
    Prop :=
  ∃ f : Buffer → Buffer, operation pooled = withBuffer f pooled ∧
    ∀ buffer, (f buffer).text = buffer.text ++ text

theorem addsBuilt_appendCopied (s : String) (pooled : Pooled) :
    AddsBuilt s (appendCopied s) pooled := ⟨(·.push s), rfl, fun _ ↦ rfl⟩

theorem addsBuilt_appendFraction (value : FloatValue) (pooled : Pooled) :
    AddsBuilt (pooled.1.format.withSeparator value.text) (appendFraction value) pooled := by
  obtain ⟨output, pool⟩ := pooled
  rw [AddsBuilt, appendFraction, flip]
  refine ⟨_, rfl, fun buffer ↦ ?_⟩
  dsimp only
  split_ifs with point
  · rw [NumberFormat.withSeparator_point point, Buffer.push]
  · rw [Buffer.text_rewriteBehind_push, NumberFormat.localize_eq]

theorem addsBuilt_appendFloat (value : FloatValue) (pooled : Pooled) :
    AddsBuilt (pooled.1.format.floatText value) (appendFloat value) pooled := by
  cases reading : value.integral? with
  | some n =>
    rw [appendFloat_of_integral reading, NumberFormat.floatText_of_integral reading]
    exact addsBuilt_appendCopied _ pooled
  | none =>
    rw [appendFloat, reading, NumberFormat.floatText_of_fraction reading]
    exact addsBuilt_appendFraction value pooled

end Output

/-- A passage of an output, by the way it is appended. -/
inductive Passage where
  | char (c : Char)
  /-- A text that is kept as it is while it is the only one. -/
  | whole (s : String)
  | copied (s : String)
  | fragments (texts : List String)
  /-- The text of another output, which is not sealed. -/
  | output (other : Output) (unsealed : other.isSealed = false)
  | unsigned (n : UInt64)
  | signed (n : Int64)
  | unsigned32 (n : UInt32)
  | signed32 (n : Int32)
  | double (bits : UInt64)
  | single (bits : UInt32)

namespace Passage

def operation : Passage → Output.Pooled → Except OutputError Output.Pooled
  | char c => Output.appendChar c
  | whole s => Output.appendWhole s
  | copied s => Output.appendCopied s
  | fragments texts => Output.appendFragments texts
  | output other _ => Output.appendOutput other
  | unsigned n => Output.appendUnsigned n
  | signed n => Output.appendSigned n
  | unsigned32 n => Output.appendUnsigned n.toUInt64
  | signed32 n => Output.appendSigned n.toInt64
  | double bits => Output.appendDouble bits
  | single bits => Output.appendSingle bits

def text (format : NumberFormat) : Passage → String
  | char c => String.ofList [c]
  | whole s => s
  | copied s => s
  | fragments texts => String.join texts
  | output other _ => other.text
  | unsigned n => toString n.toNat
  | signed n => toString n.toInt
  | unsigned32 n => toString n.toNat
  | signed32 n => toString n.toInt
  | double bits => format.floatText (.ofBits64 bits)
  | single bits => format.floatText (.ofBits32 bits)

def isWhole : Passage → Bool
  | whole _ => true
  | _ => false

def isVoid : Passage → Bool
  | output other _ => other.text.isEmpty
  | _ => false

end Passage

/-- The way in which a value is appended that is not a template. -/
def Value.passage? : Value → Option Passage
  | .text s => some (.whole s)
  | .char c => some (.char c)
  | .flag b => some (.whole (if b then "true" else "false"))
  | .unsigned n => some (.unsigned n)
  | .signed n => some (.signed n)
  | .double bits => some (.double bits)
  | .single bits => some (.single bits)
  | .named name => some (.whole name)
  | .absent => some (.whole "null")
  | .template .. => none
  | .broken .. => none

/-- A passage that is appended as such, or a value that appends itself as one. -/
inductive Addition where
  | direct (passage : Passage)
  | emitted (value : Value) (passage : Passage) (h : value.passage? = some passage)

namespace Addition

def passage : Addition → Passage
  | direct passage => passage
  | emitted _ passage _ => passage

variable {σ : Type}

def perform (source : Option (Source σ)) : Addition → Compose σ Unit
  | direct passage => Compose.append passage.operation
  | emitted value _ _ => value.emit source

def performAll (source : Option (Source σ)) : List Addition → Compose σ Unit
  | [] => pure ()
  | addition :: rest => do
    addition.perform source
    performAll source rest

theorem perform_eq (source : Option (Source σ)) (addition : Addition) :
    addition.perform source = Compose.append addition.passage.operation := by
  cases addition with
  | direct passage => rfl
  | emitted value passage h => cases value <;> cases h <;> exact Value.emit.eq_def ..

end Addition

namespace Passage

def textOf (format : NumberFormat) (passages : List Passage) : String :=
  String.join (passages.map (·.text format))

/-- The passages that count: other outputs without text do not. -/
def counted (passages : List Passage) : List Passage := passages.filter (!·.isVoid)

/-- The state that passages leave an output in. -/
def stateAfter (passages : List Passage) : String :=
  match counted passages with
  | [] => "Empty"
  | [passage] => if passage.isWhole then "Prefix" else "Buffered"
  | _ => "Buffered"

theorem text_of_isVoid {passage : Passage} (h : passage.isVoid = true) (format : NumberFormat) :
    passage.text format = "" := by
  cases passage with
  | output other unsealed => exact String.isEmpty_iff.1 h
  | _ => exact nomatch h

/-- Another output without text changes nothing. -/
theorem operation_of_isVoid {passage : Passage} (h : passage.isVoid = true)
    (pooled : Output.Pooled) : passage.operation pooled = .ok pooled := by
  cases passage with
  | output other unsealed =>
    rw [operation, Output.appendOutput, unsealed, if_neg Bool.false_ne_true]
    exact if_pos h
  | _ => exact nomatch h

theorem eq_whole_of_isWhole {passage : Passage} (h : passage.isWhole = true) :
    ∃ s, passage = .whole s := by
  cases passage with
  | whole s => exact ⟨s, rfl⟩
  | _ => exact nomatch h

/-- Any other passage adds its text to a buffer. -/
theorem addsBuilt {passage : Passage} (counts : passage.isVoid = false)
    (built : passage.isWhole = false) (pooled : Output.Pooled) :
    Output.AddsBuilt (passage.text pooled.1.format) passage.operation pooled := by
  cases passage with
  | whole s => exact nomatch built
  | char c => exact Output.addsBuilt_appendCopied c.toString pooled
  | copied s => exact Output.addsBuilt_appendCopied s pooled
  | fragments texts => exact ⟨_, rfl, Buffer.text_foldl_push texts⟩
  | output other unsealed =>
    obtain ⟨f, operation, adds⟩ := Output.addsBuilt_appendCopied other.text pooled
    refine ⟨f, ?_, adds⟩
    rw [Passage.operation, Output.appendOutput, unsealed, if_neg Bool.false_ne_true, if_neg]
    · exact operation
    · exact Bool.eq_false_iff.1 counts
  | unsigned n =>
    rw [operation, Output.appendUnsigned_eq]
    exact Output.addsBuilt_appendCopied _ pooled
  | signed n =>
    rw [operation, Output.appendSigned_eq]
    exact Output.addsBuilt_appendCopied _ pooled
  | unsigned32 n =>
    rw [operation, Output.appendUnsigned_eq, UInt32.toNat_toUInt64]
    exact Output.addsBuilt_appendCopied _ pooled
  | signed32 n =>
    rw [operation, Output.appendSigned_eq, Int32.toInt_toInt64]
    exact Output.addsBuilt_appendCopied _ pooled
  | double bits => exact Output.addsBuilt_appendFloat (.ofBits64 bits) pooled
  | single bits => exact Output.addsBuilt_appendFloat (.ofBits32 bits) pooled

theorem textOf_cons (format : NumberFormat) (passage : Passage) (rest : List Passage) :
    textOf format (passage :: rest) = passage.text format ++ textOf format rest := by
  rw [textOf, List.map_cons, String.join_cons]
  rfl

theorem textOf_concat (format : NumberFormat) (passages : List Passage) (passage : Passage) :
    textOf format (passages ++ [passage]) = textOf format passages ++ passage.text format := by
  rw [textOf, List.map_append, String.join_append, List.map_singleton, String.join_cons,
    String.join_nil, String.append_empty]
  rfl

theorem textOf_counted (format : NumberFormat) (passages : List Passage) :
    textOf format (counted passages) = textOf format passages := by
  induction passages with
  | nil => rfl
  | cons passage rest ih =>
    have whole := textOf_cons format passage rest
    rw [counted, List.filter_cons]
    cases void : passage.isVoid with
    | true => rw [whole, passage.text_of_isVoid void, String.empty_append]; exact ih
    | false => rw [whole, ← ih]; exact textOf_cons format passage (counted rest)

theorem counted_concat (passages : List Passage) {passage : Passage} (h : passage.isVoid = false) :
    counted (passages ++ [passage]) = counted passages ++ [passage] := by
  rw [counted, List.filter_append, List.filter_singleton, h]
  rfl

theorem counted_concat_of_isVoid (passages : List Passage) {passage : Passage}
    (h : passage.isVoid = true) : counted (passages ++ [passage]) = counted passages := by
  rw [counted, List.filter_append, List.filter_singleton, h]
  exact List.append_nil _

theorem stateAfter_concat {passages : List Passage} {passage : Passage}
    (counts : passage.isVoid = false) (further : counted passages = [] → passage.isWhole = false) :
    stateAfter (passages ++ [passage]) = "Buffered" := by
  rw [stateAfter, counted_concat passages counts]
  cases before : counted passages with
  | nil => exact if_neg (Bool.eq_false_iff.1 (further before))
  | cons first rest => cases rest <;> rfl

end Passage

end Phrasebook
