import Phrasebook.Text.Utf8

/-!
# Encoded texts

The bytes of a text are read back as the text, and bytes that are read as a text are the bytes of it.
Bytes below `0x80` stand for ASCII characters only, so a byte of that range is in an encoded text
exactly if its character is in the text.
-/

namespace Phrasebook.Text.Utf8

/-! ## Reading one character -/

/-- A byte that continues a character and leaves more to come. -/
theorem units_more {p : PartialChar} {owed : Nat} {byte : UInt8} (rest : Bytes)
    (more : p.owed = owed + 1) (low : p.low ≤ byte.toNat) (high : byte.toNat ≤ p.high) :
    units (some p) (byte :: rest) =
      units (some ⟨64 * p.bits + (byte.toNat - 0x80), p.seen + 1, owed, 0x80, 0xBF⟩) rest := by
  rw [units]
  simp [low, high, more]

/-- A byte that ends a character. -/
theorem units_last {p : PartialChar} {byte : UInt8} (rest : Bytes) (last : p.owed = 0)
    (low : p.low ≤ byte.toNat) (high : byte.toNat ≤ p.high) :
    units (some p) (byte :: rest) =
      .char (Char.ofNat (64 * p.bits + (byte.toNat - 0x80))) :: units none rest := by
  rw [units]
  simp [low, high, last]

theorem units_opens {p : PartialChar} {byte : UInt8} (rest : Bytes) (h : lead byte = .opens p) :
    units none (byte :: rest) = units (some p) rest := by
  rw [units, h]

theorem toNat_ofNat {n : Nat} (h : n < 256) : (UInt8.ofNat n).toNat = n := by
  rw [UInt8.toNat_ofNat', Nat.mod_eq_of_lt h]

theorem lead_of_two {byte : UInt8} (low : 0xC2 ≤ byte.toNat) (high : byte.toNat < 0xE0) :
    lead byte = .opens ⟨byte.toNat - 0xC0, 1, 0, 0x80, 0xBF⟩ := by
  unfold lead
  dsimp only
  rw [if_neg (by omega), if_neg (by omega), if_pos high]

/-- The second of three bytes is narrowed behind the least lead and behind the one of surrogates. -/
theorem lead_of_three {byte : UInt8} (low : 0xE0 ≤ byte.toNat) (high : byte.toNat < 0xF0) :
    lead byte = .opens ⟨byte.toNat - 0xE0, 1, 1, if byte.toNat = 0xE0 then 0xA0 else 0x80,
      if byte.toNat = 0xED then 0x9F else 0xBF⟩ := by
  unfold lead
  dsimp only
  rw [if_neg (by omega), if_neg (by omega), if_neg (by omega)]
  by_cases first : byte.toNat = 0xE0
  · simp [first]
  · by_cases surrogates : byte.toNat = 0xED
    · simp [surrogates]
    · simp [first, surrogates, high]

/-- The second of four bytes is narrowed behind the least and the greatest lead. -/
theorem lead_of_four {byte : UInt8} (low : 0xF0 ≤ byte.toNat) (high : byte.toNat ≤ 0xF4) :
    lead byte = .opens ⟨byte.toNat - 0xF0, 1, 2, if byte.toNat = 0xF0 then 0x90 else 0x80,
      if byte.toNat = 0xF4 then 0x8F else 0xBF⟩ := by
  unfold lead
  dsimp only
  rw [if_neg (by omega), if_neg (by omega), if_neg (by omega), if_neg (by omega),
    if_neg (by omega), if_neg (by omega)]
  by_cases first : byte.toNat = 0xF0
  · simp [first]
  · by_cases last : byte.toNat = 0xF4
    · simp [last]
    · have below : byte.toNat < 0xF4 := by omega
      simp [first, last, below]

/-! ### Characters by the number of their bytes -/

theorem units_of_one {v : Nat} (high : v ≤ 0x7F) (rest : Bytes) :
    units none ([UInt8.ofNat v] ++ rest) = .char (Char.ofNat v) :: units none rest := by
  have byte : (UInt8.ofNat v).toNat = v := toNat_ofNat (by omega)
  have ascii : lead (UInt8.ofNat v) = .ascii (Char.ofNat v) := by
    simp [lead, byte]
    omega
  rw [List.singleton_append, units, ascii]

theorem units_of_two {v : Nat} (low : 0x7F < v) (high : v ≤ 0x7FF) (rest : Bytes) :
    units none ([UInt8.ofNat (v / 64 % 0x20 + 0xC0), UInt8.ofNat (v % 0x40 + 0x80)] ++ rest) =
      .char (Char.ofNat v) :: units none rest := by
  have first : (UInt8.ofNat (v / 64 % 0x20 + 0xC0)).toNat = v / 64 + 0xC0 := by
    rw [toNat_ofNat (by omega)]
    omega
  have last : (UInt8.ofNat (v % 0x40 + 0x80)).toNat = v % 64 + 0x80 := toNat_ofNat (by omega)
  rw [List.cons_append, units_opens _ (lead_of_two (by omega) (by omega)), List.cons_append,
    units_last _ rfl (by dsimp only; omega) (by dsimp only; omega), first, last]
  dsimp only
  rw [show 64 * (v / 64 + 0xC0 - 0xC0) + (v % 64 + 0x80 - 0x80) = v by omega]
  rfl

theorem units_of_three {v : Nat} (low : 0x7FF < v) (high : v ≤ 0xFFFF)
    (valid : v < 0xD800 ∨ 0xDFFF < v) (rest : Bytes) :
    units none ([UInt8.ofNat (v / 4096 % 0x10 + 0xE0), UInt8.ofNat (v / 64 % 0x40 + 0x80),
        UInt8.ofNat (v % 0x40 + 0x80)] ++ rest) =
      .char (Char.ofNat v) :: units none rest := by
  have first : (UInt8.ofNat (v / 4096 % 0x10 + 0xE0)).toNat = v / 4096 + 0xE0 := by
    rw [toNat_ofNat (by omega)]
    omega
  have second : (UInt8.ofNat (v / 64 % 0x40 + 0x80)).toNat = v / 64 % 64 + 0x80 :=
    toNat_ofNat (by omega)
  have last : (UInt8.ofNat (v % 0x40 + 0x80)).toNat = v % 64 + 0x80 := toNat_ofNat (by omega)
  rw [List.cons_append, units_opens _ (lead_of_three (by omega) (by omega)), List.cons_append,
    units_more _ rfl (by dsimp only; split <;> omega) (by dsimp only; split <;> omega),
    List.cons_append, units_last _ rfl (by dsimp only; omega) (by dsimp only; omega), first,
    second, last]
  dsimp only
  rw [show 64 * (64 * (v / 4096 + 0xE0 - 0xE0) + (v / 64 % 64 + 0x80 - 0x80)) +
    (v % 64 + 0x80 - 0x80) = v by omega]
  rfl

theorem units_of_four {v : Nat} (low : 0xFFFF < v) (high : v < 0x110000) (rest : Bytes) :
    units none ([UInt8.ofNat (v / 262144 % 0x08 + 0xF0), UInt8.ofNat (v / 4096 % 0x40 + 0x80),
        UInt8.ofNat (v / 64 % 0x40 + 0x80), UInt8.ofNat (v % 0x40 + 0x80)] ++ rest) =
      .char (Char.ofNat v) :: units none rest := by
  have first : (UInt8.ofNat (v / 262144 % 0x08 + 0xF0)).toNat = v / 262144 + 0xF0 := by
    rw [toNat_ofNat (by omega)]
    omega
  have second : (UInt8.ofNat (v / 4096 % 0x40 + 0x80)).toNat = v / 4096 % 64 + 0x80 :=
    toNat_ofNat (by omega)
  have third : (UInt8.ofNat (v / 64 % 0x40 + 0x80)).toNat = v / 64 % 64 + 0x80 :=
    toNat_ofNat (by omega)
  have last : (UInt8.ofNat (v % 0x40 + 0x80)).toNat = v % 64 + 0x80 := toNat_ofNat (by omega)
  rw [List.cons_append, units_opens _ (lead_of_four (by omega) (by omega)), List.cons_append,
    units_more _ rfl (by dsimp only; split <;> omega) (by dsimp only; split <;> omega),
    List.cons_append, units_more _ rfl (by dsimp only; omega) (by dsimp only; omega),
    List.cons_append, units_last _ rfl (by dsimp only; omega) (by dsimp only; omega), first,
    second, third, last]
  dsimp only
  rw [show 64 * (64 * (64 * (v / 262144 + 0xF0 - 0xF0) + (v / 4096 % 64 + 0x80 - 0x80)) +
    (v / 64 % 64 + 0x80 - 0x80)) + (v % 64 + 0x80 - 0x80) = v by omega]
  rfl

/-- The bytes of a character are one unit, whatever follows them. -/
theorem units_encodeChar (c : Char) (rest : Bytes) :
    units none (String.utf8EncodeChar c ++ rest) = .char c :: units none rest := by
  have valid : c.val.toNat < 0xD800 ∨ 0xDFFF < c.val.toNat ∧ c.val.toNat < 0x110000 := c.valid
  have same : Char.ofNat c.val.toNat = c := Char.ofNat_toNat c
  generalize hv : c.val.toNat = v at valid same
  unfold String.utf8EncodeChar
  simp only [hv]
  rw [← same]
  split
  next high => exact units_of_one high rest
  split
  next low high => exact units_of_two (Nat.lt_of_not_le low) high rest
  split
  next low high => exact units_of_three (Nat.lt_of_not_le low) high (by omega) rest
  next low => exact units_of_four (Nat.lt_of_not_le low) (by omega) rest

/-! ## Reading a text -/

theorem encode_ofList (cs : List Char) :
    encode (String.ofList cs) = cs.flatMap String.utf8EncodeChar := by
  rw [encode, String.toList_ofList]

theorem encode_append (s t : String) : encode (s ++ t) = encode s ++ encode t := by
  rw [encode, String.toList_append, List.flatMap_append, encode, encode]

theorem units_encode (s : String) : units none (encode s) = s.toList.map .char := by
  rw [encode]
  induction s.toList with
  | nil => rfl
  | cons c cs ih => rw [List.flatMap_cons, units_encodeChar, ih, List.map_cons]

theorem chars_map_char (position : Nat) (cs : List Char) :
    chars position (cs.map .char) = .ok cs := by
  induction cs generalizing position with
  | nil => rfl
  | cons c cs ih =>
    rw [List.map_cons, chars, ih]
    rfl

/-- The bytes of a text encode the text. -/
theorem decode_encode (s : String) : decode (encode s) = .ok s := by
  rw [decode, units_encode, chars_map_char]
  exact congrArg Except.ok String.ofList_toList

theorem encode_injective {s t : String} (h : encode s = encode t) : s = t := by
  have read := decode_encode s
  rw [h, decode_encode] at read
  exact (Except.ok.inj read).symm

/-! ## Bytes of ASCII characters -/

theorem encodeChar_of_ascii {c : Char} (ascii : c.toNat < 0x80) :
    String.utf8EncodeChar c = [UInt8.ofNat c.toNat] := by
  have small : c.val.toNat ≤ 0x7F := Nat.le_of_lt_succ ascii
  unfold String.utf8EncodeChar
  rw [if_pos small]
  rfl

theorem le_of_mem_encodeChar {c : Char} {byte : UInt8} (wide : 0x80 ≤ c.toNat)
    (h : byte ∈ String.utf8EncodeChar c) : 0x80 ≤ byte.toNat := by
  have small : ¬ c.val.toNat ≤ 0x7F := Nat.not_le.2 wide
  have above (n m : Nat) (below : m < 0x80) (top : 0x80 ≤ n) (h : n + m < 256) :
      0x80 ≤ (UInt8.ofNat (m + n)).toNat := by
    rw [toNat_ofNat (by omega)]
    omega
  unfold String.utf8EncodeChar at h
  rw [if_neg small] at h
  split at h
  · simp only [List.mem_cons, List.not_mem_nil, or_false] at h
    rcases h with rfl | rfl
    all_goals exact above _ _ (by omega) (by omega) (by omega)
  split at h
  · simp only [List.mem_cons, List.not_mem_nil, or_false] at h
    rcases h with rfl | rfl | rfl
    all_goals exact above _ _ (by omega) (by omega) (by omega)
  · simp only [List.mem_cons, List.not_mem_nil, or_false] at h
    rcases h with rfl | rfl | rfl | rfl
    all_goals exact above _ _ (by omega) (by omega) (by omega)

theorem toNat_of_mem_encodeChar {c : Char} {byte : UInt8} (h : byte ∈ String.utf8EncodeChar c)
    (ascii : byte.toNat < 0x80) : c.toNat = byte.toNat := by
  by_cases small : c.toNat < 0x80
  · rw [encodeChar_of_ascii small] at h
    rw [List.mem_singleton.1 h, toNat_ofNat (by omega)]
  · exact absurd (le_of_mem_encodeChar (Nat.le_of_not_lt small) h) (Nat.not_le.2 ascii)

/-- Encoded characters fall apart at an ASCII byte as the characters do. -/
theorem flatMap_encodeChar_eq_append {cs : List Char} {p rest : Bytes} {byte : UInt8}
    (ascii : byte.toNat < 0x80)
    (h : cs.flatMap String.utf8EncodeChar = p ++ byte :: rest) :
    ∃ before after, cs = before ++ Char.ofNat byte.toNat :: after ∧
      before.flatMap String.utf8EncodeChar = p ∧ after.flatMap String.utf8EncodeChar = rest := by
  induction cs generalizing p with
  | nil =>
    rw [List.flatMap_nil] at h
    exact absurd h.symm (by simp)
  | cons c cs ih =>
    rw [List.flatMap_cons] at h
    rcases List.append_eq_append_iff.1 h with ⟨gap, hp, hcs⟩ | ⟨gap, hc, hrest⟩
    · obtain ⟨before, after, rfl, rfl, rfl⟩ := ih hcs
      exact ⟨c :: before, after, rfl, by rw [List.flatMap_cons, hp], rfl⟩
    · cases gap with
      | nil =>
        rw [List.append_nil] at hc
        obtain ⟨before, after, rfl, none_before, rfl⟩ := ih (p := []) hrest.symm
        refine ⟨c :: before, after, rfl, ?_, rfl⟩
        rw [List.flatMap_cons, none_before, hc, List.append_nil]
      | cons other gap =>
        obtain ⟨rfl, rfl⟩ := List.cons.inj hrest
        have mem : byte ∈ String.utf8EncodeChar c := by
          rw [hc]
          exact List.mem_append_right _ List.mem_cons_self
        have code := toNat_of_mem_encodeChar mem ascii
        have same : Char.ofNat byte.toNat = c := by rw [← code, Char.ofNat_toNat]
        rw [encodeChar_of_ascii (code ▸ ascii)] at hc
        cases p with
        | cons first p => simp at hc
        | nil =>
          obtain rfl : [] = gap := (List.cons.inj hc).2
          exact ⟨[], cs, by rw [same]; rfl, rfl, rfl⟩

theorem flatMap_encodeChar_eq_nil {cs : List Char} (h : cs.flatMap String.utf8EncodeChar = []) :
    cs = [] := by
  cases cs with
  | nil => rfl
  | cons c cs =>
    rw [List.flatMap_cons, List.append_eq_nil_iff] at h
    exact absurd h.1 String.utf8EncodeChar_ne_nil

/-- Encoded characters end with an ASCII byte only if its character is the last. -/
theorem flatMap_encodeChar_eq_concat {cs : List Char} {p : Bytes} {byte : UInt8}
    (ascii : byte.toNat < 0x80) (h : cs.flatMap String.utf8EncodeChar = p ++ [byte]) :
    ∃ before, cs = before ++ [Char.ofNat byte.toNat] ∧
      before.flatMap String.utf8EncodeChar = p := by
  obtain ⟨before, after, rfl, split, none_after⟩ := flatMap_encodeChar_eq_append ascii h
  rw [flatMap_encodeChar_eq_nil none_after]
  exact ⟨before, rfl, split⟩

/-- A byte below `0x80` is in an encoded text only if its character is in the text. -/
theorem mem_of_mem_encode {s : String} {byte : UInt8} (ascii : byte.toNat < 0x80)
    (h : byte ∈ encode s) : Char.ofNat byte.toNat ∈ s.toList := by
  obtain ⟨p, rest, split⟩ := List.append_of_mem h
  obtain ⟨before, after, chars, -, -⟩ := flatMap_encodeChar_eq_append ascii split
  rw [chars]
  exact List.mem_append_right _ List.mem_cons_self

/-! ## Bytes that were read -/

/-- A byte that goes on with a character lies between the bounds for it. -/
theorem units_some_eq_char {p : PartialChar} {bytes : Bytes} {c : Char} {others : List Utf8Unit}
    (h : units (some p) bytes = .char c :: others) :
    ∃ byte rest, bytes = byte :: rest ∧ p.low ≤ byte.toNat ∧ byte.toNat ≤ p.high ∧
      (p.owed = 0 → c = Char.ofNat (64 * p.bits + (byte.toNat - 0x80)) ∧ others = units none rest) ∧
      ∀ owed, p.owed = owed + 1 →
        units (some ⟨64 * p.bits + (byte.toNat - 0x80), p.seen + 1, owed, 0x80, 0xBF⟩) rest =
          .char c :: others := by
  cases bytes with
  | nil => cases h
  | cons byte rest =>
    by_cases within : p.low ≤ byte.toNat ∧ byte.toNat ≤ p.high
    · obtain ⟨low, high⟩ := within
      refine ⟨byte, rest, rfl, low, high, fun last ↦ ?_, fun owed more ↦ ?_⟩
      · rw [units_last rest last low high] at h
        obtain ⟨unit, rfl⟩ := List.cons.inj h
        exact ⟨(Utf8Unit.char.inj unit).symm, rfl⟩
      · rw [← units_more rest more low high, h]
    · rw [units] at h
      simp [within] at h

theorem units_some_ne_nil (p : PartialChar) (bytes : Bytes) : units (some p) bytes ≠ [] := by
  induction bytes generalizing p with
  | nil => exact List.cons_ne_nil _ _
  | cons byte rest ih =>
    rw [units]
    dsimp only
    split
    · split
      · exact List.cons_ne_nil _ _
      · exact ih _
    · exact List.cons_ne_nil _ _

theorem lead_eq_ascii {byte : UInt8} {c : Char} (h : lead byte = .ascii c) :
    byte.toNat < 0x80 ∧ c = Char.ofNat byte.toNat := by
  unfold lead at h
  dsimp only at h
  split at h
  · exact ⟨‹_›, (Lead.ascii.inj h).symm⟩
  · repeat' split at h
    all_goals cases h

/-- A byte that begins a character is the first of two, three or four. -/
theorem lead_eq_opens {byte : UInt8} {p : PartialChar} (h : lead byte = .opens p) :
    0xC2 ≤ byte.toNat ∧ byte.toNat < 0xE0 ∧ p = ⟨byte.toNat - 0xC0, 1, 0, 0x80, 0xBF⟩ ∨
      0xE0 ≤ byte.toNat ∧ byte.toNat < 0xF0 ∧
        p = ⟨byte.toNat - 0xE0, 1, 1, if byte.toNat = 0xE0 then 0xA0 else 0x80,
          if byte.toNat = 0xED then 0x9F else 0xBF⟩ ∨
      0xF0 ≤ byte.toNat ∧ byte.toNat ≤ 0xF4 ∧
        p = ⟨byte.toNat - 0xF0, 1, 2, if byte.toNat = 0xF0 then 0x90 else 0x80,
          if byte.toNat = 0xF4 then 0x8F else 0xBF⟩ := by
  by_cases single : byte.toNat < 0xC2
  · unfold lead at h
    dsimp only at h
    simp only [single, if_true] at h
    split at h
    · cases h
    · cases h
  by_cases two : byte.toNat < 0xE0
  · rw [lead_of_two (by omega) two] at h
    exact .inl ⟨by omega, two, (Lead.opens.inj h).symm⟩
  by_cases three : byte.toNat < 0xF0
  · rw [lead_of_three (by omega) three] at h
    exact .inr (.inl ⟨by omega, three, (Lead.opens.inj h).symm⟩)
  by_cases four : byte.toNat ≤ 0xF4
  · rw [lead_of_four (by omega) four] at h
    exact .inr (.inr ⟨by omega, four, (Lead.opens.inj h).symm⟩)
  · unfold lead at h
    dsimp only at h
    have bounds : ¬ byte.toNat < 0x80 ∧ byte.toNat ≠ 0xE0 ∧ byte.toNat ≠ 0xED ∧
        byte.toNat ≠ 0xF0 ∧ ¬ byte.toNat < 0xF4 ∧ byte.toNat ≠ 0xF4 := by omega
    simp [single, two, three, bounds] at h

theorem val_ofNat {v : Nat} (valid : v < 0xD800 ∨ 0xDFFF < v ∧ v < 0x110000) :
    (Char.ofNat v).val.toNat = v := by
  have valid : v.isValidChar := valid
  rw [Char.ofNat, dif_pos valid]
  rfl

theorem ofNat_eq {byte : UInt8} {n : Nat} (h : n = byte.toNat) : UInt8.ofNat n = byte := by
  rw [h, UInt8.ofNat_toNat]

section

variable {first second third fourth : UInt8}

theorem encodeChar_two (least : 0xC2 ≤ first.toNat) (most : first.toNat < 0xE0)
    (low : 0x80 ≤ second.toNat) (high : second.toNat ≤ 0xBF) :
    String.utf8EncodeChar (Char.ofNat (64 * (first.toNat - 0xC0) + (second.toNat - 0x80))) =
      [first, second] := by
  unfold String.utf8EncodeChar
  rw [val_ofNat (by omega), if_neg (by omega), if_pos (by omega), @ofNat_eq first _ (by omega),
    @ofNat_eq second _ (by omega)]

/-- Neither overlong forms nor surrogates are spelled in three bytes. -/
theorem encodeChar_three (least : 0xE0 ≤ first.toNat) (most : first.toNat < 0xF0)
    (overlong : (if first.toNat = 0xE0 then 0xA0 else 0x80) ≤ second.toNat)
    (surrogates : second.toNat ≤ if first.toNat = 0xED then 0x9F else 0xBF)
    (low : 0x80 ≤ third.toNat) (high : third.toNat ≤ 0xBF) :
    String.utf8EncodeChar (Char.ofNat
      (64 * (64 * (first.toNat - 0xE0) + (second.toNat - 0x80)) + (third.toNat - 0x80))) =
      [first, second, third] := by
  have wide : 0x80 ≤ second.toNat ∧ second.toNat ≤ 0xBF ∧
      (first.toNat = 0xE0 → 0xA0 ≤ second.toNat) ∧ (first.toNat = 0xED → second.toNat ≤ 0x9F) := by
    split at overlong
    all_goals split at surrogates
    all_goals omega
  clear overlong surrogates
  unfold String.utf8EncodeChar
  rw [val_ofNat (by omega), if_neg (by omega), if_neg (by omega), if_pos (by omega),
    @ofNat_eq first _ (by omega), @ofNat_eq second _ (by omega), @ofNat_eq third _ (by omega)]

/-- Neither overlong forms nor numbers past the last code point are spelled in four bytes. -/
theorem encodeChar_four (least : 0xF0 ≤ first.toNat) (most : first.toNat ≤ 0xF4)
    (overlong : (if first.toNat = 0xF0 then 0x90 else 0x80) ≤ second.toNat)
    (beyond : second.toNat ≤ if first.toNat = 0xF4 then 0x8F else 0xBF)
    (low : 0x80 ≤ third.toNat) (high : third.toNat ≤ 0xBF)
    (low' : 0x80 ≤ fourth.toNat) (high' : fourth.toNat ≤ 0xBF) :
    String.utf8EncodeChar (Char.ofNat
      (64 * (64 * (64 * (first.toNat - 0xF0) + (second.toNat - 0x80)) + (third.toNat - 0x80)) +
        (fourth.toNat - 0x80))) = [first, second, third, fourth] := by
  have wide : 0x80 ≤ second.toNat ∧ second.toNat ≤ 0xBF ∧
      (first.toNat = 0xF0 → 0x90 ≤ second.toNat) ∧ (first.toNat = 0xF4 → second.toNat ≤ 0x8F) := by
    split at overlong
    all_goals split at beyond
    all_goals omega
  clear overlong beyond
  unfold String.utf8EncodeChar
  rw [val_ofNat (by omega), if_neg (by omega), if_neg (by omega), if_neg (by omega),
    @ofNat_eq first _ (by omega), @ofNat_eq second _ (by omega), @ofNat_eq third _ (by omega),
    @ofNat_eq fourth _ (by omega)]

end

/-- The bytes of a character that was read are the bytes that spell it. -/
theorem units_none_eq_char {bytes : Bytes} {c : Char} {others : List Utf8Unit}
    (h : units none bytes = .char c :: others) :
    ∃ rest, bytes = String.utf8EncodeChar c ++ rest ∧ others = units none rest := by
  cases bytes with
  | nil => cases h
  | cons first rest =>
    cases begun : lead first with
    | stray =>
      rw [units, begun] at h
      cases h
    | ascii d =>
      rw [units, begun] at h
      obtain ⟨unit, rfl⟩ := List.cons.inj h
      obtain rfl := Utf8Unit.char.inj unit
      obtain ⟨small, rfl⟩ := lead_eq_ascii begun
      refine ⟨rest, ?_, rfl⟩
      rw [encodeChar_of_ascii (by rwa [Char.toNat, val_ofNat (by omega)]), Char.toNat,
        val_ofNat (by omega), UInt8.ofNat_toNat]
      rfl
    | opens p =>
      rw [units_opens rest begun] at h
      obtain ⟨second, rest, rfl, low, high, last, more⟩ := units_some_eq_char h
      rcases lead_eq_opens begun with ⟨least, most, rfl⟩ | ⟨least, most, rfl⟩ | ⟨least, most, rfl⟩
      · obtain ⟨char, rfl⟩ := last rfl
        refine ⟨rest, ?_, rfl⟩
        dsimp only at char
        rw [char, encodeChar_two least most low high]
        rfl
      · obtain ⟨third, rest, rfl, low', high', last', -⟩ := units_some_eq_char (more 0 rfl)
        obtain ⟨char, rfl⟩ := last' rfl
        refine ⟨rest, ?_, rfl⟩
        dsimp only at char
        rw [char, encodeChar_three least most low high low' high']
        rfl
      · obtain ⟨third, rest, rfl, low', high', -, more'⟩ := units_some_eq_char (more 1 rfl)
        obtain ⟨fourth, rest, rfl, low'', high'', last', -⟩ := units_some_eq_char (more' 0 rfl)
        obtain ⟨char, rfl⟩ := last' rfl
        refine ⟨rest, ?_, rfl⟩
        dsimp only at char
        rw [char, encodeChar_four least most low high low' high' low'' high'']
        rfl

/-- Bytes that come to characters only are the encoding of these. -/
theorem eq_encode_of_units {bytes : Bytes} {cs : List Char}
    (h : units none bytes = cs.map .char) : bytes = cs.flatMap String.utf8EncodeChar := by
  induction cs generalizing bytes with
  | nil =>
    cases bytes with
    | nil => rfl
    | cons first rest =>
      cases begun : lead first with
      | stray =>
        rw [units, begun] at h
        cases h
      | ascii c =>
        rw [units, begun] at h
        cases h
      | opens p =>
        rw [units_opens rest begun] at h
        exact absurd h (units_some_ne_nil p rest)
  | cons c cs ih =>
    obtain ⟨rest, rfl, others⟩ := units_none_eq_char h
    rw [List.flatMap_cons, ← ih others.symm]

theorem eq_map_char_of_chars {position : Nat} {us : List Utf8Unit} {cs : List Char}
    (h : chars position us = .ok cs) : us = cs.map .char := by
  induction us generalizing position cs with
  | nil =>
    cases h
    rfl
  | cons unit us ih =>
    cases unit with
    | malformed length => cases h
    | cut length => cases h
    | char c =>
      rw [chars] at h
      cases others : chars (position + c.utf8Size) us with
      | error fault =>
        rw [others] at h
        cases h
      | ok ds =>
        rw [others] at h
        cases h
        rw [ih others, List.map_cons]

/-- Bytes that are read as a text are the bytes of the text. -/
theorem encode_of_decode {bytes : Bytes} {s : String} (h : decode bytes = .ok s) :
    encode s = bytes := by
  rw [decode] at h
  cases read : chars 0 (units none bytes) with
  | error fault =>
    rw [read] at h
    cases h
  | ok cs =>
    rw [read] at h
    cases h
    rw [encode_ofList, ← eq_encode_of_units (eq_map_char_of_chars read)]

end Phrasebook.Text.Utf8
