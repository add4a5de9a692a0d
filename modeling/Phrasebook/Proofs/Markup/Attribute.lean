import Phrasebook.Markup.Page
import Phrasebook.Markup.Stream
import Phrasebook.Proofs.Markup.Reference

/-!
# Written attributes

The attributes of a tag that was written are read back one by one, each with its key and its escaped
value, as long as their keys are plain and no two are the same.
-/

namespace Phrasebook.Markup

open Phrasebook.Text

/-- A name that can stand in front of a value: there is something of it, and it holds no white space,
no equals sign, no quote and no closing bracket. -/
def PlainName (s : String) : Prop :=
  s ≠ "" ∧ ∀ c ∈ s.toList, c ∉ [' ', '\t', '\r', '\n', '=', '"', '\'', '>']

instance (s : String) : Decidable (PlainName s) :=
  have := List.decidableBAll (· ∉ [' ', '\t', '\r', '\n', '=', '"', '\'', '>']) s.toList
  inferInstanceAs (Decidable (_ ∧ _))

theorem PlainName.not_mem {s : String} (plain : PlainName s) {byte : UInt8}
    (h : byte ∈ [0x20, 0x09, 0x0D, 0x0A, 0x3D, 0x22, 0x27, 0x3E]) : byte ∉ Utf8.encode s := by
  intro mem
  simp only [List.mem_cons, List.not_mem_nil, or_false] at h
  rcases h with rfl | rfl | rfl | rfl | rfl | rfl | rfl | rfl
  all_goals exact plain.2 _ (Utf8.mem_of_mem_encode (by decide) mem) (by decide)

theorem PlainName.not_space {s : String} (plain : PlainName s) {byte : UInt8}
    (mem : byte ∈ Utf8.encode s) : isSpace byte = false := by
  refine Bool.eq_false_iff.2 fun space ↦ plain.not_mem ?_ mem
  simp only [isSpace, Bool.or_eq_true, decide_eq_true_eq] at space
  rcases space with ((rfl | rfl) | rfl) | rfl
  all_goals decide

theorem PlainName.encode_ne_nil {s : String} (plain : PlainName s) : Utf8.encode s ≠ [] := by
  intro none
  have read := Utf8.decode_encode s
  rw [none] at read
  exact plain.1 (Except.ok.inj read).symm

/-! ## Scanning one attribute -/

section

variable {position start : Nat} {seen : List (Bytes × Nat)} {bytes held key more : Bytes}

theorem scanAttributes_key (free : ∀ byte ∈ bytes, byte ≠ 0x3D ∧ isSpace byte = false)
    (new : seen.lookup (held.reverse ++ bytes) = none) :
    ∃ next, scanAttributes (.key start held) position seen (bytes ++ 0x3D :: more) =
      scanAttributes (.beforeValue (held.reverse ++ bytes)) next
        ((held.reverse ++ bytes, start) :: seen) more := by
  induction bytes generalizing position held with
  | nil =>
    rw [List.append_nil] at new ⊢
    refine ⟨position + 1, ?_⟩
    rw [List.nil_append, scanAttributes, AttributeMode.step, if_pos rfl]
    dsimp only
    rw [new]
  | cons byte bytes ih =>
    obtain ⟨equals, space⟩ := free byte List.mem_cons_self
    have split : held.reverse ++ byte :: bytes = (byte :: held).reverse ++ bytes := by simp
    rw [split] at new ⊢
    obtain ⟨next, scanned⟩ := @ih (position + 1) (byte :: held)
      (fun other h ↦ free other (List.mem_cons_of_mem _ h)) new
    refine ⟨next, ?_⟩
    rw [List.cons_append, scanAttributes, AttributeMode.step, if_neg equals, space, ← scanned]
    rfl

/-- A value is read up to its quote. -/
theorem scanAttributes_value (free : (0x22 : UInt8) ∉ bytes) :
    ∃ next, scanAttributes (.value key 0x22 held) position seen (bytes ++ 0x22 :: more) =
      ((⟨key, held.reverse ++ bytes⟩ :: (scanAttributes .between next seen more).1,
        (scanAttributes .between next seen more).2)) := by
  induction bytes generalizing position held with
  | nil =>
    refine ⟨position + 1, ?_⟩
    rw [List.nil_append, scanAttributes, AttributeMode.step, if_pos rfl, List.append_nil]
  | cons byte bytes ih =>
    have quote : byte ≠ 0x22 := fun same ↦ free (same ▸ List.mem_cons_self)
    obtain ⟨next, scanned⟩ := @ih (position + 1) (byte :: held)
      fun h ↦ free (List.mem_cons_of_mem _ h)
    refine ⟨next, ?_⟩
    rw [List.cons_append, scanAttributes, AttributeMode.step, if_neg quote]
    dsimp only
    rw [scanned]
    simp

end

def attributeBytes (pair : String × String) : Bytes :=
  0x20 :: (Utf8.encode pair.1 ++ 0x3D :: 0x22 :: (Utf8.encode (escape pair.2) ++ [0x22]))

def rawAttribute (pair : String × String) : RawAttribute :=
  ⟨Utf8.encode pair.1, Utf8.encode (escape pair.2)⟩

/-- An attribute that is written is the next one to be read, whatever follows it. -/
theorem scanAttributes_attribute {position : Nat} {seen : List (Bytes × Nat)}
    {pair : String × String} (plain : PlainName pair.1)
    (new : seen.lookup (Utf8.encode pair.1) = none) (more : Bytes) :
    ∃ start next, scanAttributes .between position seen (attributeBytes pair ++ more) =
      (rawAttribute pair ::
          (scanAttributes .between next ((Utf8.encode pair.1, start) :: seen) more).1,
        (scanAttributes .between next ((Utf8.encode pair.1, start) :: seen) more).2) := by
  obtain ⟨byte, bytes, spelled⟩ := List.exists_cons_of_ne_nil plain.encode_ne_nil
  have free : ∀ other ∈ byte :: bytes, other ≠ 0x3D ∧ isSpace other = false := by
    intro other h
    rw [← spelled] at h
    exact ⟨fun same ↦ plain.not_mem (by decide) (same ▸ h), plain.not_space h⟩
  have keyed : [byte].reverse ++ bytes = Utf8.encode pair.1 := spelled.symm
  have written : attributeBytes pair ++ more =
      0x20 :: byte :: (bytes ++ 0x3D :: 0x22 :: (Utf8.encode (escape pair.2) ++ 0x22 :: more)) := by
    simp [attributeBytes, spelled]
  obtain ⟨valued, scanned⟩ := @scanAttributes_key (position + 1 + 1) (position + 1) seen bytes
    [byte] (0x22 :: (Utf8.encode (escape pair.2) ++ 0x22 :: more))
    (fun other h ↦ free other (List.mem_cons_of_mem _ h)) (by rw [keyed]; exact new)
  obtain ⟨next, completed⟩ := @scanAttributes_value (valued + 1)
    ((Utf8.encode pair.1, position + 1) :: seen) (Utf8.encode (escape pair.2)) []
    (Utf8.encode pair.1) more (not_mem_encode_escape pair.2 (by decide))
  refine ⟨position + 1, next, ?_⟩
  rw [written, scanAttributes, AttributeMode.step, if_pos (by decide)]
  dsimp only
  rw [scanAttributes, AttributeMode.step, (free byte List.mem_cons_self).2,
    if_neg Bool.false_ne_true]
  dsimp only
  rw [scanned, keyed, scanAttributes, AttributeMode.step, if_neg (by decide), if_pos (by decide)]
  dsimp only
  rw [completed, rawAttribute, List.reverse_nil, List.nil_append]

/-- Attributes are read back if no two have the same key. -/
theorem scanAttributes_attributes {position : Nat} {seen : List (Bytes × Nat)}
    {pairs : List (String × String)} (plain : ∀ pair ∈ pairs, PlainName pair.1)
    (distinct : (pairs.map Prod.fst).Nodup)
    (new : ∀ pair ∈ pairs, seen.lookup (Utf8.encode pair.1) = none) :
    scanAttributes .between position seen (pairs.flatMap attributeBytes) =
      (pairs.map rawAttribute, none) := by
  induction pairs generalizing position seen with
  | nil => rfl
  | cons pair pairs ih =>
    obtain ⟨different, distinct⟩ := List.nodup_cons.1 distinct
    obtain ⟨start, next, scanned⟩ := @scanAttributes_attribute position seen pair
      (plain pair List.mem_cons_self) (new pair List.mem_cons_self) (pairs.flatMap attributeBytes)
    have others := @ih next ((Utf8.encode pair.1, start) :: seen)
      (fun other h ↦ plain other (List.mem_cons_of_mem _ h)) distinct fun other h ↦ by
        rw [List.lookup_cons]
        have apart : (Utf8.encode other.1 == Utf8.encode pair.1) = false := by
          refine beq_eq_false_iff_ne.2 fun same ↦ different ?_
          rw [← Utf8.encode_injective same]
          exact List.mem_map_of_mem h
        rw [apart]
        exact new other (List.mem_cons_of_mem _ h)
    rw [List.flatMap_cons, scanned, others]
    rfl

/-! ## Reading a tag -/

def writtenTag (name : String) (pairs : List (String × String)) : Tag :=
  ⟨Utf8.encode name ++ pairs.flatMap attributeBytes⟩

theorem encode_tagText (name : String) (pairs : List (String × String)) :
    Utf8.encode (Item.tagText name pairs) = (writtenTag name pairs).content := by
  have joined : Utf8.encode (String.join (pairs.map Item.attributeText)) =
      pairs.flatMap attributeBytes := by
    induction pairs with
    | nil => rfl
    | cons pair pairs ih =>
      rw [List.map_cons, List.flatMap_cons, String.join_cons, Utf8.encode_append, ih]
      have space : Utf8.encode " " = [0x20] := rfl
      have opening : Utf8.encode "=\"" = [0x3D, 0x22] := rfl
      have closing : Utf8.encode "\"" = [0x22] := rfl
      simp [Item.attributeText, Utf8.encode_append, attributeBytes, space, opening, closing]
  rw [Item.tagText, Utf8.encode_append, joined]
  rfl

section

variable {name : String} {pairs : List (String × String)} (plain : PlainName name)

include plain

theorem writtenTag_split :
    (writtenTag name pairs).content.takeWhile (!isSpace ·) = Utf8.encode name ∧
      (writtenTag name pairs).content.dropWhile (!isSpace ·) = pairs.flatMap attributeBytes := by
  have unspaced : ∀ byte ∈ Utf8.encode name, (!isSpace byte) = true := by
    intro byte h
    rw [plain.not_space h]
    rfl
  rw [writtenTag]
  constructor
  · rw [List.takeWhile_append_of_pos unspaced]
    cases pairs with
    | nil => simp
    | cons pair pairs => simp [attributeBytes, isSpace]
  · rw [List.dropWhile_append_of_pos unspaced]
    cases pairs with
    | nil => rfl
    | cons pair pairs => simp [attributeBytes, isSpace]

theorem name_writtenTag : (writtenTag name pairs).name = Utf8.encode name :=
  (writtenTag_split plain).1

theorem attributes_writtenTag (keys : ∀ pair ∈ pairs, PlainName pair.1)
    (distinct : (pairs.map Prod.fst).Nodup) :
    (writtenTag name pairs).attributes = (pairs.map rawAttribute, none) := by
  rw [Tag.attributes, (writtenTag_split plain).2]
  exact scanAttributes_attributes keys distinct fun _ _ ↦ rfl

end

end Phrasebook.Markup
