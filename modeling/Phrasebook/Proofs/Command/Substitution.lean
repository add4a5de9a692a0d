import Phrasebook.Command.Substitution
import Phrasebook.Proofs.Library.Rendering
import Phrasebook.Proofs.Numeral.ShortDecimals
import Phrasebook.Proofs.Output.Interpretation

/-!
# Values from the command line

A value stands in the text as it was given, unless it has the form of a decimal. A decimal is read as the
nearest double, and the text of that number is added with the separator of the format. So needless zeros
go, and so do digits that a double cannot tell; a decimal of at most fifteen digits keeps all others.
-/

namespace Phrasebook

open Numeral

/-! ## Short decimals in a number format -/

namespace NumberFormat

theorem withSeparator_of_no_point {format : NumberFormat} {cs : List Char} (h : '.' ∉ cs) :
    format.withSeparator (String.ofList cs) = String.ofList cs := by
  rw [withSeparator, String.toList_ofList, List.replace_of_not_mem h]

/-- An integer is written as the digits that it comes from without needless zeros, and zero without a
sign. -/
theorem toString_signed {whole : List Char} (digits : ∀ c ∈ whole, c.isDigit = true) (negative : Bool) :
    toString (if negative then -(digitsValue (tidyWhole whole) : Int)
        else digitsValue (tidyWhole whole)) =
      String.ofList (if negative && tidyWhole whole ≠ ['0'] then '-' :: tidyWhole whole
        else tidyWhole whole) := by
  have text := toDigits_tidyWhole digits
  have natural (n : Nat) : toString (n : Int) = String.ofList (Nat.toDigits 10 n) := by
    rw [Int.toString_eq_repr, Int.repr_eq_if, if_pos (Int.natCast_nonneg n), Int.toNat_natCast,
      Nat.repr_eq_ofList_toDigits]
  cases negative with
  | false => rw [if_neg Bool.false_ne_true, Bool.false_and, if_neg Bool.false_ne_true, natural, text]
  | true =>
    rw [if_pos rfl, Bool.true_and]
    rcases Nat.eq_zero_or_pos (digitsValue (tidyWhole whole)) with zero | positive
    · rw [zero] at text ⊢
      rw [← text]
      rfl
    · have other : tidyWhole whole ≠ ['0'] := by
        intro same
        rw [same] at positive
        exact absurd positive (by decide)
      have negative : ¬ 0 ≤ -(digitsValue (tidyWhole whole) : Int) := by omega
      have magnitude : (- -(digitsValue (tidyWhole whole) : Int)).toNat =
          digitsValue (tidyWhole whole) := by omega
      rw [if_pos (decide_eq_true other), Int.toString_eq_repr, Int.repr_eq_if, if_neg negative,
        magnitude, Nat.repr_eq_ofList_toDigits, text, String.ofList_cons]
      rfl

/-- The number that a short decimal is read as is written as that decimal without needless zeros. -/
theorem floatText_of_short {negative : Bool} {whole fraction : List Char} {value : FloatValue}
    (read : ReadsAs negative (digitsValue (whole ++ fraction) / 10 ^ fraction.length) value)
    (digits : ∀ c ∈ whole ++ fraction, c.isDigit = true)
    (short : digitsValue (tidyWhole whole ++ tidyFraction fraction) < 10 ^ 15)
    (few : (tidyFraction fraction).length ≤ 307) (format : NumberFormat) :
    format.floatText value =
      format.withSeparator (String.ofList (tidied negative whole fraction)) := by
  rw [quotient_tidied] at read
  by_cases none_left : tidyFraction fraction = []
  · rw [none_left, List.append_nil, List.length_nil, pow_zero, div_one] at read
    rw [none_left, List.append_nil] at short
    have own (c : Char) (member : c ∈ whole) : c.isDigit = true :=
      digits c (List.mem_append_left _ member)
    have integer := integral?_of_natural short read
    rw [floatText_of_integral integer, toString_signed own, tidied, if_pos none_left,
      withSeparator_of_no_point]
    intro point
    have inside : '.' ∈ tidyWhole whole := by
      split at point
      · exact (List.mem_cons.1 point).resolve_left (by decide)
      · exact point
    rcases mem_tidyWhole inside with zero | member
    · exact absurd zero (by decide)
    · exact absurd (own '.' member) (by decide)
  · have tidy := tidy_tidied digits none_left
    obtain ⟨no_integer, text⟩ := text_of_tidy read tidy short few
    rw [floatText_of_fraction no_integer, text, tidied, if_neg none_left]

end NumberFormat

/-! ## The form of a decimal -/

namespace Command

/-- A text has digits on both sides of a point, perhaps behind a hyphen. -/
structure IsDecimal (raw : String) (negative : Bool) (whole fraction : List Char) : Prop where
  parts : raw.toList = (if negative then ['-'] else []) ++ (whole ++ '.' :: fraction)
  some_whole : whole ≠ []
  some_fraction : fraction ≠ []
  digits : ∀ c ∈ whole ++ fraction, c.isDigit = true

/-- The value of a text whose sign is known, from what stands behind the sign. -/
def valueBehindSign (raw : String) (negative : Bool) (digits : List Char) : Value :=
  let whole := digits.takeWhile (· ≠ '.')
  let fraction := (digits.dropWhile (· ≠ '.')).tail
  if !whole.isEmpty && !fraction.isEmpty && whole.all Char.isDigit && fraction.all Char.isDigit then
    .double (Numeral.readDecimal negative whole fraction)
  else .text raw

/-- Whether a text begins with a hyphen, and what stands behind it. -/
def splitSign : List Char → Bool × List Char
  | '-' :: digits => (true, digits)
  | digits => (false, digits)

theorem valueOf_eq (raw : String) :
    valueOf raw = valueBehindSign raw (splitSign raw.toList).1 (splitSign raw.toList).2 := rfl

theorem splitSign_eq (cs : List Char) :
    (if (splitSign cs).1 then ['-'] else []) ++ (splitSign cs).2 = cs := by
  unfold splitSign
  split
  all_goals rfl

variable {raw : String} {negative : Bool} {whole fraction : List Char}

theorem all_digits_iff :
    (!whole.isEmpty && !fraction.isEmpty && whole.all Char.isDigit && fraction.all Char.isDigit) =
        true ↔
      whole ≠ [] ∧ fraction ≠ [] ∧ ∀ c ∈ whole ++ fraction, c.isDigit = true := by
  simp [and_assoc, or_imp, forall_and]

theorem valueBehindSign_of_digits (raw : String) (negative : Bool) (some_whole : whole ≠ [])
    (some_fraction : fraction ≠ []) (digits : ∀ c ∈ whole ++ fraction, c.isDigit = true) :
    valueBehindSign raw negative (whole ++ '.' :: fraction) =
      .double (Numeral.readDecimal negative whole fraction) := by
  have no_point (c : Char) (member : c ∈ whole) : decide (c ≠ '.') = true := by
    have digit := digits c (List.mem_append_left _ member)
    rw [decide_eq_true_eq]
    rintro rfl
    exact absurd digit (by decide)
  have front : (whole ++ '.' :: fraction).takeWhile (· ≠ '.') = whole := by
    rw [List.takeWhile_append_of_pos no_point]
    exact List.append_nil whole
  have back : ((whole ++ '.' :: fraction).dropWhile (· ≠ '.')).tail = fraction := by
    rw [List.dropWhile_append_of_pos no_point]
    rfl
  unfold valueBehindSign
  dsimp only
  rw [front, back, if_pos (all_digits_iff.2 ⟨some_whole, some_fraction, digits⟩)]

/-- What is no text is made of digits around a point. -/
theorem eq_text_or_digits (raw : String) (negative : Bool) (digits : List Char) :
    valueBehindSign raw negative digits = .text raw ∨
      ∃ whole fraction, digits = whole ++ '.' :: fraction ∧ whole ≠ [] ∧ fraction ≠ [] ∧
        ∀ c ∈ whole ++ fraction, c.isDigit = true := by
  unfold valueBehindSign
  dsimp only
  split
  case isFalse => exact .inl rfl
  case isTrue around =>
    obtain ⟨some_whole, some_fraction, all⟩ := all_digits_iff.1 around
    refine .inr ⟨_, _, ?_, some_whole, some_fraction, all⟩
    have parts := List.takeWhile_append_dropWhile (p := (· ≠ '.')) (l := digits)
    have first := List.head?_dropWhile_not (· ≠ '.') digits
    cases behind : digits.dropWhile (· ≠ '.') with
    | nil =>
      rw [behind] at some_fraction
      exact absurd rfl some_fraction
    | cons point rest =>
      rw [behind] at parts first
      obtain rfl : point = '.' := by simpa using first
      exact parts.symm

theorem splitSign_of_digits (negative : Bool) {c : Char} (digit : c.isDigit = true) (rest : List Char) :
    splitSign ((if negative then ['-'] else []) ++ c :: rest) = (negative, c :: rest) := by
  cases negative with
  | true => rfl
  | false =>
    unfold splitSign
    split
    case h_1 same =>
      obtain rfl := (List.cons.inj same).1
      exact absurd digit (by decide)
    case h_2 => rfl

/-- A decimal is a number. -/
theorem IsDecimal.valueOf_eq (form : IsDecimal raw negative whole fraction) :
    valueOf raw = .double (Numeral.readDecimal negative whole fraction) := by
  obtain ⟨parts, some_whole, some_fraction, digits⟩ := form
  obtain ⟨c, rest, rfl⟩ := List.exists_cons_of_ne_nil some_whole
  rw [Command.valueOf_eq, parts, List.cons_append, splitSign_of_digits negative (digits c (by simp)),
    ← List.cons_append]
  exact valueBehindSign_of_digits raw negative some_whole some_fraction digits

/-- What is no decimal is a text. -/
theorem valueOf_of_not_decimal
    (other : ∀ negative whole fraction, ¬ IsDecimal raw negative whole fraction) :
    valueOf raw = .text raw := by
  rw [Command.valueOf_eq]
  refine (eq_text_or_digits raw _ _).resolve_right ?_
  rintro ⟨whole, fraction, behind, some_whole, some_fraction, all⟩
  have parts := splitSign_eq raw.toList
  rw [behind] at parts
  exact other _ whole fraction ⟨parts.symm, some_whole, some_fraction, all⟩

/-! ## What stands for a value -/

/-- The text that is put in the place of a value. -/
def substitute (format : NumberFormat) (raw : String) : String :=
  match valueOf raw with
  | .double bits => format.floatText (.ofBits64 bits)
  | _ => raw

theorem IsDecimal.substitute_eq (form : IsDecimal raw negative whole fraction) (format : NumberFormat) :
    substitute format raw =
      format.floatText (.ofBits64 (Numeral.readDecimal negative whole fraction)) := by
  rw [substitute, form.valueOf_eq]

theorem substitute_of_not_decimal
    (other : ∀ negative whole fraction, ¬ IsDecimal raw negative whole fraction)
    (format : NumberFormat) : substitute format raw = raw := by
  rw [substitute, valueOf_of_not_decimal other]

/-- What a text does in the place of a value: it tells the value in a number format. -/
structure Tells (format : NumberFormat) (raw text : String) : Prop where
  verbatim : (∀ negative whole fraction, ¬ IsDecimal raw negative whole fraction) → text = raw
  /-- A decimal is told by the number that it is read as. No double is nearer to it. -/
  number : ∀ negative whole fraction, IsDecimal raw negative whole fraction →
    let told : ℚ := digitsValue (whole ++ fraction) / 10 ^ fraction.length
    ∃ value, ReadsAs negative told value ∧ text = format.floatText value ∧
      ∀ x y : Binary, value = .finite x → y.IsDouble → |told - x.magnitude| ≤ |told - y.magnitude|
  /-- Of at most fifteen digits, only needless zeros are missing, and the separator is the point. -/
  digits : ∀ negative whole fraction, IsDecimal raw negative whole fraction →
    digitsValue (tidyWhole whole ++ tidyFraction fraction) < 10 ^ 15 →
    (tidyFraction fraction).length ≤ 307 →
      text = format.withSeparator (String.ofList (tidied negative whole fraction))
  /-- Without needless zeros, all of them are there. -/
  kept : ∀ negative whole fraction, IsDecimal raw negative whole fraction → Tidy whole fraction →
    digitsValue (whole ++ fraction) < 10 ^ 15 → fraction.length ≤ 307 →
      text = format.withSeparator raw

/-- The text in the place of a value tells it, whether or not it is a decimal. -/
theorem tells_substitute (format : NumberFormat) (raw : String) :
    Tells format raw (substitute format raw) := by
  have digits (negative : Bool) (whole fraction : List Char)
      (form : IsDecimal raw negative whole fraction)
      (short : digitsValue (tidyWhole whole ++ tidyFraction fraction) < 10 ^ 15)
      (few : (tidyFraction fraction).length ≤ 307) :
      substitute format raw =
        format.withSeparator (String.ofList (tidied negative whole fraction)) := by
    rw [form.substitute_eq]
    exact NumberFormat.floatText_of_short (readsAs_readDecimal negative whole fraction) form.digits
      short few format
  constructor
  case verbatim => exact fun other ↦ substitute_of_not_decimal other format
  case number =>
    intro negative whole fraction form told
    have read := readsAs_readDecimal negative whole fraction
    refine ⟨_, read, form.substitute_eq format, fun x y same double ↦ ?_⟩
    rw [same] at read
    exact read.nearest double
  case digits => exact digits
  case kept =>
    intro negative whole fraction form tidy short few
    have told := digits negative whole fraction form
    rw [tidy.tidyWhole_eq, tidy.tidyFraction_eq, tidy.tidied_eq, ← form.parts,
      String.ofList_toList] at told
    exact told short few

/-! ## Names and their values -/

variable {σ : Type} {pairs : List (String × String)} {name : String}

/-- The value that is given for a name. Of two, the later one counts. -/
def given? (pairs : List (String × String)) (name : String) : Option String :=
  pairs.reverse.lookup name

theorem given?_concat (pairs : List (String × String)) (pair : String × String) (name : String) :
    given? (pairs ++ [pair]) name = if pair.1 = name then some pair.2 else given? pairs name := by
  rw [given?, List.reverse_concat, List.lookup_cons]
  by_cases same : pair.1 = name
  · rw [if_pos same, beq_iff_eq.2 same.symm]
  · rw [if_neg same, beq_eq_false_iff_ne.2 (Ne.symm same)]
    rfl

/-- The texts that pairs put in the places of their names. -/
def bindingsOf (format : NumberFormat) (key : String) (pairs : List (String × String)) : Bindings :=
  pairs.foldl (fun bindings pair ↦ bindings.insert pair.1 (substitute format pair.2)) { key := key }

theorem key_bindingsOf (format : NumberFormat) (key : String) (pairs : List (String × String)) :
    (bindingsOf format key pairs).key = key := by
  induction pairs using List.reverseRecOn with
  | nil => rfl
  | append_singleton pairs pair ih =>
    rw [bindingsOf, List.foldl_concat]
    exact ih

/-- A name is bound to what stands in the place of the value that is given for it. -/
theorem get?_bindingsOf (format : NumberFormat) (key : String) (pairs : List (String × String))
    (name : String) :
    (bindingsOf format key pairs).get? name = (given? pairs name).map (substitute format) := by
  induction pairs using List.reverseRecOn with
  | nil => exact Std.TreeMap.getElem?_emptyc
  | append_singleton pairs pair ih =>
    rw [bindingsOf, List.foldl_concat, given?_concat]
    refine (Std.TreeMap.getElem?_insert).trans ?_
    simp only [Std.compare_eq_iff_eq]
    split
    · rfl
    · exact ih

theorem wording_valueOf (source : Option (Source σ)) (format : NumberFormat) (raw : String)
    (world : σ) : (valueOf raw).wording source format world = ⟨.ok (), substitute format raw, world⟩ := by
  by_cases form : ∃ negative whole fraction, IsDecimal raw negative whole fraction
  · obtain ⟨negative, whole, fraction, form⟩ := form
    rw [form.valueOf_eq, form.substitute_eq]
    rfl
  · simp only [not_exists] at form
    rw [valueOf_of_not_decimal form, substitute_of_not_decimal form]
    rfl

/-- Given values come to their texts, whatever the source is. -/
theorem wording_argumentsOf (source : Option (Source σ)) (format : NumberFormat) (key : String)
    (pairs : List (String × String)) :
    (argumentsOf pairs).wording source format key = (bindingsOf format key pairs).wording := by
  funext name world
  induction pairs using List.reverseRecOn with
  | nil => rfl
  | append_singleton pairs pair ih =>
    rw [argumentsOf, List.foldl_concat, Arguments.wording, Bindings.wording, get?_bindingsOf,
      given?_concat, wording_valueOf]
    split
    · rfl
    · rw [← get?_bindingsOf, key_bindingsOf]
      have last := ih
      rw [Bindings.wording, key_bindingsOf] at last
      exact last

/-! ## Phrases with given values -/

/-- A text stands in the place of a piece: a literal for itself, and for a placeholder what tells the
value that is given for it. -/
inductive Stands (format : NumberFormat) (pairs : List (String × String)) : Piece → String → Prop
  | literal (text : String) : Stands format pairs (.literal text) text
  | value {name raw text : String} (given : given? pairs name = some raw)
    (tells : Tells format raw text) : Stands format pairs (.placeholder name) text

/-- What rendering the phrase of a key with given values answers. -/
inductive Answers (format : NumberFormat) (key : String) (pairs : List (String × String)) :
    Phrase → Except CommandError String → Prop
  | marker (name : String) :
    Answers format key pairs (.missing name) (.ok ("<MISSING: " ++ name ++ ">"))
  | whole {name : String} {pieces : List Piece} {texts : List String}
    (stand : List.Forall₂ (Stands format pairs) pieces texts) :
    Answers format key pairs (.defined name pieces) (.ok (String.join texts))
  /-- The first placeholder without a value is told. -/
  | unknown {name unbound : String} {first rest : List Piece} {texts : List String}
    (stand : List.Forall₂ (Stands format pairs) first texts) (missing : given? pairs unbound = none) :
    Answers format key pairs (.defined name (first ++ .placeholder unbound :: rest))
      (.error (.rendering (.render (.unknownPlaceholder key unbound))))

/-- The pieces whose names are given have texts that stand in their places. -/
theorem stand_of_covers {format : NumberFormat} {key : String} {pieces : List Piece}
    (covers : (bindingsOf format key pairs).Covers pieces) :
    List.Forall₂ (Stands format pairs) pieces
      (pieces.filterMap (bindingsOf format key pairs).text?) := by
  induction pieces with
  | nil => exact .nil
  | cons piece pieces ih =>
    have others := ih fun name mem ↦ covers name (List.mem_cons_of_mem _ mem)
    cases piece with
    | literal text => exact .cons (.literal text) others
    | placeholder name =>
      have bound := covers name List.mem_cons_self
      rw [get?_bindingsOf, Option.isSome_map, Option.isSome_iff_exists] at bound
      obtain ⟨raw, given⟩ := bound
      have told : (bindingsOf format key pairs).text? (.placeholder name) =
          some (substitute format raw) := by
        rw [Bindings.text?, get?_bindingsOf, given, Option.map_some]
      rw [List.filterMap_cons_some told]
      exact .cons (.value given (tells_substitute format raw)) others

/-- What a phrase comes to with given values answers, and the world stays as it is. -/
theorem answers_wording (format : NumberFormat) (key : String) (pairs : List (String × String))
    (phrase : Phrase) (world : σ) :
    let wording := phrase.wording (bindingsOf format key pairs).wording world
    wording.world = world ∧
      Answers format key pairs phrase (wording.answer.mapError CommandError.rendering) := by
  cases phrase with
  | missing name => exact ⟨rfl, .marker name⟩
  | defined name pieces =>
    rw [Phrase.wording]
    rcases (bindingsOf format key pairs).covers_or_first_unbound pieces with
      covers | ⟨first, unbound, rest, rfl, covers, missing⟩
    · rw [Bindings.wordPieces_of_covers covers]
      exact ⟨rfl, .whole (stand_of_covers covers)⟩
    · rw [Bindings.wordPieces_of_unbound covers missing, key_bindingsOf]
      rw [get?_bindingsOf, Option.map_eq_none_iff] at missing
      exact ⟨rfl, .unknown (stand_of_covers covers) missing⟩

/-! ## Rendering from a table -/

section

variable {id : TableId} {key : String} {strict : Bool} {library found : Library}

theorem renderEntry_of_error {error : LookupError}
    (answered : (Library.find id key (!strict)).run library = (.error error, found))
    (pairs : List (String × String)) (format : NumberFormat) :
    (renderEntry id key pairs strict format).run library = (.error (.table (.lookup error)), found) := by
  simp [renderEntry, answered]

/-- A phrase that is found is rendered into a new output, with the table as the source. -/
theorem renderEntry_of_ok {shared : Shared}
    (answered : (Library.find id key (!strict)).run library = (.ok shared, found))
    (pairs : List (String × String)) (format : NumberFormat) :
    let rendered := shared.phrase.render ((argumentsOf pairs).resolve (some (Library.source id)) key)
      { output := { format := format }, pool := {}, world := found }
    (renderEntry id key pairs strict format).run library =
      ((rendered.1.map fun () ↦ rendered.2.output.text).mapError CommandError.rendering,
        rendered.2.world) := by
  simp only [renderEntry, run_bind, answered, run_get]
  -- The phrase is rendered in the same place on both sides; what it comes to does not matter.
  generalize shared.phrase.render _ _ = rendered
  obtain ⟨result, desk⟩ := rendered
  cases result <;> rfl

end

/-- Rendered into a new output, a phrase answers with what it comes to, and the library stays as it is. -/
theorem answers_render (source : Option (Source σ)) (format : NumberFormat) (key : String)
    (pairs : List (String × String)) (phrase : Phrase) (world : σ) :
    let rendered := phrase.render ((argumentsOf pairs).resolve source key)
      { output := { format := format }, pool := {}, world := world }
    rendered.2.world = world ∧ Answers format key pairs phrase
      ((rendered.1.map fun () ↦ rendered.2.output.text).mapError CommandError.rendering) := by
  intro rendered
  let desk : Desk σ := { output := { format := format }, pool := {}, world := world }
  have writes := phrase.render_writes ((argumentsOf pairs).resolve_writes source key)
  have ended : Compose.ComesTo desk (phrase.wording (bindingsOf format key pairs).wording world)
      rendered := by
    rw [← wording_argumentsOf source]
    exact @writes.comesTo desk 0 rfl .start
  have text : rendered.2.output.text =
      (phrase.wording (bindingsOf format key pairs).wording world).text :=
    ended.text.trans String.empty_append
  rw [ended.result, ended.world, text]
  exact answers_wording format key pairs phrase world

/-- Rendering the phrase of a key with values that are given as texts tells each value: what is no decimal
as it was given, and a decimal by the number that it is read as. The library is left as the lookup leaves
it. -/
theorem renderEntry_tells_values (id : TableId) (key : String) (pairs : List (String × String))
    (strict : Bool) (format : NumberFormat) (library : Library) :
    let found := (Library.find id key (!strict)).run library
    let rendered := (renderEntry id key pairs strict format).run library
    rendered.2 = found.2 ∧
    (∀ error, found.1 = .error error → rendered.1 = .error (.table (.lookup error))) ∧
    ∀ shared, found.1 = .ok shared → Answers format key pairs shared.phrase rendered.1 := by
  dsimp only
  cases answered : (Library.find id key (!strict)).run library with
  | mk answer found =>
    cases answer with
    | error error =>
      rw [renderEntry_of_error answered]
      refine ⟨rfl, ?_, nofun⟩
      rintro _ ⟨⟩
      rfl
    | ok shared =>
      have answers := answers_render (some (Library.source id)) format key pairs shared.phrase found
      rw [renderEntry_of_ok answered]
      refine ⟨answers.1, nofun, ?_⟩
      rintro _ ⟨⟩
      exact answers.2

/-- An amount is told with the separator of the format, and a count keeps the zeros that it has in front. -/
theorem renderEntry_tells_values_menu :
    let library := ({} : Library).afterDeeds
      [.create "menu" false, .change 0 (.add "price" "\x7bamount\x7d EUR for \x7bcount\x7d" false)]
    let format : NumberFormat := { decimalSeparator := ',' }
    let pairs := [("amount", "2.0"), ("count", "007"), ("amount", "-3.5")]
    let found := (Library.find 0 "price" false).run library
    let rendered := (renderEntry 0 "price" pairs true format).run library
    (∃ shared, found.1 = .ok shared ∧ Answers format "price" pairs shared.phrase rendered.1) ∧
      IsDecimal "-3.5" true ['3'] ['5'] ∧ Tells format "-3.5" "-3,5" ∧
      rendered.1 = .ok "-3,5 EUR for 007" := by
  intro library format pairs found rendered
  obtain ⟨-, -, answers⟩ := renderEntry_tells_values 0 "price" pairs true format library
  have hit : found.1.toOption.isSome = true := by decide +kernel
  obtain ⟨shared, hit⟩ := Option.isSome_iff_exists.1 hit
  have form : IsDecimal "-3.5" true ['3'] ['5'] :=
    ⟨by decide, nofun, nofun, List.all_eq_true.1 (by decide)⟩
  have told : substitute format "-3.5" = "-3,5" := by decide +kernel
  refine ⟨⟨shared, eq_ok_of_toOption hit, answers shared (eq_ok_of_toOption hit)⟩, form, ?_,
    by decide +kernel⟩
  rw [← told]
  exact tells_substitute format "-3.5"

/-- A zero at the end of a decimal is not written: the decimal is no text with another separator. -/
theorem zero_at_end_is_not_told :
    let library := ({} : Library).afterDeeds
      [.create "menu" false, .change 0 (.add "price" "\x7bamount\x7d EUR" false)]
    let format : NumberFormat := { decimalSeparator := ',' }
    let rendered := (renderEntry 0 "price" [("amount", "1.50")] true format).run library
    IsDecimal "1.50" false ['1'] ['5', '0'] ∧ format.withSeparator "1.50" = "1,50" ∧
      rendered.1 = .ok "1,5 EUR" ∧ rendered.1 ≠ .ok "1,50 EUR" := by
  intro library format rendered
  have told : rendered.1 = .ok "1,5 EUR" := by decide +kernel
  refine ⟨⟨by decide, nofun, nofun, List.all_eq_true.1 (by decide)⟩, by decide +kernel, told, ?_⟩
  rw [told]
  exact fun same ↦ absurd (Except.ok.inj same) (by decide)

end Command

end Phrasebook
