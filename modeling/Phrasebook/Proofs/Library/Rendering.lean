import Phrasebook.Library.Lookup
import Phrasebook.Proofs.Library.Deeds
import Phrasebook.Proofs.Output.Nesting

/-!
# Rendering from tables

Rendering the phrase that a table has under a key answers with the text that is added for it as a nested
template, with the table as the source. The keys of templates at every depth are looked up from that table
on, along its fallbacks, and a key that none of them has becomes a marker there too: rendering leaves a
sound library sound.
-/

namespace Phrasebook

open Compose

namespace Library

/-! ## Tables as sources -/

variable {library : Library} {id last : TableId} {key : String} {resolve : Resolver Library}

theorem source_eq (id : TableId) (key : String) (library : Library) :
    source id key library =
      (((find id key true).run library).1.map Shared.phrase, ((find id key true).run library).2) := by
  rw [source]
  cases (find id key true).run library with
  | mk answer found => cases answer <;> rfl

/-- A key that no table of the chain has leads to its marker. -/
theorem Sound.source_of_endsAt (sound : library.Sound) (ends : library.endsAt? id key = some last) :
    source id key library = (.ok (.missing key), ((find id key true).run library).2) := by
  obtain ⟨shared, answer, missing, -⟩ := sound.find_standIn ends
  rw [source_eq, answer, Except.map, missing]

theorem find_of_blank (blank : Text.isBlankText key = true) (id : TableId) (optional : Bool)
    (library : Library) : (find id key optional).run library = (.error .blankKey, library) := by
  simp [find, blank]

/-- The number format of a table once a key was looked up in it. -/
def formatAfter (library : Library) (id : TableId) (key : String) : NumberFormat :=
  ((find id key true).run library).2.numberFormat id

/-- A desk with a new output for what a table has under a key. -/
def newDesk (library : Library) (id : TableId) (key : String) : Desk Library :=
  { output := { format := library.formatAfter id key }, pool := {}, world := library }

/-- Rendering from a table is rendering what it has under a key into a new output, with the table as the
source. -/
theorem render_run (id : TableId) (key : String) (resolve : Resolver Library) (library : Library) :
    (render id key resolve).run library =
      let rendered := renderFound (some (source id)) key resolve (library.newDesk id key)
      (rendered.1.map fun () ↦ rendered.2.output.text, rendered.2.world) := by
  have told : source id key (library.newDesk id key).world = _ := source_eq id key library
  cases answered : (find id key true).run library with
  | mk answer found =>
    rw [answered] at told
    cases answer with
    | error e =>
      rw [renderFound_of_error (Source.find_of_error told)]
      simp [render, answered, Except.map]
    | ok shared =>
      rw [renderFound_of_ok (Source.find_of_ok told), newDesk, formatAfter]
      simp only [render, run_bind, answered, run_get]
      -- The phrase is rendered in the same place on both sides; what it comes to does not matter.
      generalize shared.phrase.render resolve _ = rendered
      obtain ⟨result, desk⟩ := rendered
      cases result <;> rfl

theorem render_of_blank (blank : Text.isBlankText key = true) (id : TableId)
    (resolve : Resolver Library) (library : Library) :
    (render id key resolve).run library = (.error (.render (.lookup .blankKey)), library) := by
  simp [render, find_of_blank blank]

theorem render_of_endsAt (sound : library.Sound) (ends : library.endsAt? id key = some last)
    (resolve : Resolver Library) :
    ((render id key resolve).run library).1 = .ok ("<MISSING: " ++ key ++ ">") := by
  have told : source id key (library.newDesk id key).world = _ := sound.source_of_endsAt ends
  rw [render_run, renderFound_of_ok (Source.find_of_ok told)]
  rfl

/-- Rendering from a table with the values of a template. Templates among the values are looked up from
the same table on, at every depth. -/
theorem render_arguments (id : TableId) (key : String) (arguments : Arguments) (library : Library) :
    let wording := (Value.template key arguments).wording (some (source id))
      (library.formatAfter id key) library
    (render id key (arguments.resolve (some (source id)) key)).run library =
      (wording.answer, wording.world) := by
  have writes := renderFound_writes (arguments.resolve_writes (some (source id)) key)
    (some (source id)) key
  have ended := @writes.comesTo (library.newDesk id key) 0 rfl .start
  rw [render_run, Value.wording]
  dsimp only
  rw [Wording.answer_allOrNothing, Wording.world_allOrNothing, ended.result, ended.world,
    ended.text, Wording.answer]
  refine congrArg (Prod.mk · _) (congrArg (Except.map · _) (funext fun () ↦ ?_))
  exact String.empty_append

/-- Lookups for nested templates leave a sound library sound, and so does all that a value comes to. -/
theorem Sound.wording (sound : library.Sound) (id : TableId) (format : NumberFormat)
    (value : Value) : (value.wording (some (source id)) format library).world.Sound := by
  refine value.wording_holds (fun lookup table key world sound ↦ ?_) format sound
  cases table
  rw [source_eq]
  exact sound.perform (.find id key true)

/-! ## Nested templates in front of any output -/

section

variable {desk : Desk Library} {others : Multiset Buffer}
  (unsealed : desk.output.isSealed = false)
  (circulates : Circulates desk.pool (desk.output.held + others))

include unsealed circulates

/-- What rendering from a table answers is what is added for a nested template, with the table as the
source. -/
theorem renderNested_table (tells : resolve.Tells)
    (format : desk.output.format = desk.world.formatAfter id key) :
    let told := (render id key resolve).run desk.world
    let after := renderNested (some (source id)) key resolve desk
    (after.1 = told.1.map fun _ ↦ ()) ∧ after.2.world = told.2 ∧
      ∀ text, told.1 = .ok text → after.2.output.text = desk.output.text ++ text := by
  have alone :=
    (renderNested_allOrNothing unsealed circulates (some (source id)) key resolve).alone tells .start
  have begins : ({ output := { format := desk.output.format }, pool := {}, world := desk.world } :
      Desk Library) = desk.world.newDesk id key := by
    rw [format, newDesk]
  rw [begins] at alone
  obtain ⟨result, world, text⟩ := alone
  rw [render_run]
  dsimp only
  cases rendered : renderFound (some (source id)) key resolve (desk.world.newDesk id key) with
  | mk answer done =>
    rw [rendered] at result world text
    cases answer with
    | error e => exact ⟨result, world, nofun⟩
    | ok =>
      refine ⟨result, world, fun added same ↦ ?_⟩
      cases same
      exact (text result).1

theorem renderNested_of_endsAt (sound : desk.world.Sound)
    (ends : desk.world.endsAt? id key = some last) (resolve : Resolver Library) :
    let after := renderNested (some (source id)) key resolve desk
    after.1 = .ok () ∧ after.2.output.text = desk.output.text ++ ("<MISSING: " ++ key ++ ">") := by
  obtain ⟨result, -, text⟩ :=
    renderNested_of_missing unsealed circulates (sound.source_of_endsAt ends) resolve
  exact ⟨result, text⟩

end

/-! ## The whole -/

/-- What rendering from a table answers. -/
structure Renders (library : Library) (id : TableId) (key : String) (resolve : Resolver Library)
    (told : Except Failure String × Library) : Prop where
  /-- It is what the phrase comes to in a new output, with the table as the source. -/
  alone :
    let rendered := renderFound (some (source id)) key resolve (library.newDesk id key)
    told = (rendered.1.map fun () ↦ rendered.2.output.text, rendered.2.world)
  blank : Text.isBlankText key = true → told = (.error (.render (.lookup .blankKey)), library)
  marker : library.Sound → ∀ last, library.endsAt? id key = some last →
    told.1 = .ok ("<MISSING: " ++ key ++ ">")
  /-- Templates among values are looked up from the same table on, at every depth. -/
  values : ∀ arguments : Arguments, resolve = arguments.resolve (some (source id)) key →
    let wording := (Value.template key arguments).wording (some (source id))
      (library.formatAfter id key) library
    told = (wording.answer, wording.world) ∧ (library.Sound → told.2.Sound)

/-- What comes of a nested template in front of a desk, with a table as the source. -/
structure Nests (desk : Desk Library) (id : TableId) (key : String) (resolve : Resolver Library)
    (after : Except Failure Unit × Desk Library) : Prop where
  /-- It adds what rendering from the table answers. -/
  answer : resolve.Tells → desk.output.format = desk.world.formatAfter id key →
    let told := (render id key resolve).run desk.world
    (after.1 = told.1.map fun _ ↦ ()) ∧ after.2.world = told.2 ∧
      ∀ text, told.1 = .ok text → after.2.output.text = desk.output.text ++ text
  marker : desk.world.Sound → ∀ last, desk.world.endsAt? id key = some last →
    after.1 = .ok () ∧ after.2.output.text = desk.output.text ++ ("<MISSING: " ++ key ++ ">")

/-- A nested template adds what its phrase comes to alone, or leaves the output as it was, and what values
come to is told from the nested templates up. A table renders in the same way with itself as the source, so
that the keys at every depth are looked up from it on. -/
theorem nested_templates_all_or_nothing {σ : Type} :
    (∀ (source : Option (Source σ)) (key : String) (resolve : Resolver σ) (desk : Desk σ)
      (others : Multiset Buffer), desk.output.isSealed = false →
        Circulates desk.pool (desk.output.held + others) →
          AllOrNothing source key resolve desk (renderNested source key resolve desk)) ∧
    (∀ resolve : Resolver σ, (∀ name, (resolve name).Built) → resolve.Tells) ∧
    (∀ (source : Option (Source σ)) (value : Value) (desk : Desk σ) (others : Multiset Buffer),
      desk.output.isSealed = false → Circulates desk.pool (desk.output.held + others) →
        ComesTo desk (value.wording source desk.output.format desk.world)
          (value.emit source desk)) ∧
    (∀ (library : Library) (id : TableId) (key : String) (resolve : Resolver Library),
      library.Renders id key resolve ((render id key resolve).run library)) ∧
    ∀ (desk : Desk Library) (others : Multiset Buffer) (id : TableId) (key : String)
      (resolve : Resolver Library), desk.output.isSealed = false →
        Circulates desk.pool (desk.output.held + others) →
          Nests desk id key resolve (renderNested (some (source id)) key resolve desk) := by
  refine ⟨?_, fun _ ↦ Resolver.tells_of_built, ?_, ?_, ?_⟩
  · intro source key resolve desk others unsealed circulates
    exact renderNested_allOrNothing unsealed circulates source key resolve
  · intro source value desk others unsealed circulates
    exact (value.emit_writes source).comesTo unsealed circulates
  · intro library id key resolve
    refine ⟨render_run id key resolve library, fun blank ↦ render_of_blank blank id resolve library,
      fun sound last ends ↦ render_of_endsAt sound ends resolve, ?_⟩
    rintro arguments rfl
    refine ⟨render_arguments id key arguments library, fun sound ↦ ?_⟩
    rw [render_arguments]
    exact sound.wording id (library.formatAfter id key) (.template key arguments)
  · intro desk others id key resolve unsealed circulates
    exact ⟨renderNested_table unsealed circulates,
      fun sound last ends ↦ renderNested_of_endsAt unsealed circulates sound ends resolve⟩

/-- A dish is looked up along a fallback from inside a menu. Without its side it leaves nothing behind,
where the menu itself leaves what it began with. -/
theorem nested_templates_all_or_nothing_menu :
    let library := ({} : Library).afterDeeds
      [.create "menu" false, .create "common" false, .setFallback 0 (some 1),
        .change 0 (.add "menu" "Today: \x7bdish\x7d" false),
        .change 1 (.add "soup" "soup with \x7bside\x7d" false)]
    let soup (values : Arguments) : Arguments := .bind "dish" (.template "soup" values) .none
    let menu := soup (.bind "side" (.text "bread") .none)
    let bare := soup .none
    let unknown : Failure := .render (.unknownPlaceholder "soup" "side")
    let desk : Desk Library := { output := { body := .whole "Lunch. " }, pool := {}, world := library }
    let nested := renderNested (some (source 0)) "menu" (bare.resolve (some (source 0)) "menu") desk
    let direct := renderFound (some (source 0)) "menu" (bare.resolve (some (source 0)) "menu") desk
    desk.output.isSealed = false ∧ Circulates desk.pool (desk.output.held + 0) ∧
      library.Sound ∧ library.endsAt? 0 "fish" = some 1 ∧
      ((render 0 "menu" (menu.resolve (some (source 0)) "menu")).run library).1 =
        .ok "Today: soup with bread" ∧
      ((render 0 "fish" (menu.resolve (some (source 0)) "fish")).run library).1 =
        .ok "<MISSING: fish>" ∧
      nested.1 = .error unknown ∧ nested.2.output = desk.output ∧
      direct.1 = .error unknown ∧ direct.2.output.text = "Lunch. Today: " := by
  intro library soup menu bare unknown desk nested direct
  have sound : library.Sound := Sound.empty.afterDeeds _
  have ends : library.endsAt? 0 "fish" = some 1 := by decide +kernel
  have unsealed : desk.output.isSealed = false := rfl
  have circulates : Circulates desk.pool (desk.output.held + 0) := .start
  have failed : nested.1 = .error unknown := by decide +kernel
  obtain ⟨atomic, -, -, renders, -⟩ := @nested_templates_all_or_nothing Library
  have alone := atomic (some (source 0)) "menu" (bare.resolve (some (source 0)) "menu") desk 0
    unsealed circulates
  refine ⟨unsealed, circulates, sound, ends, by decide +kernel,
    (renders library 0 "fish" _).marker sound 1 ends, failed, alone.untouched ?_,
    by decide +kernel, by decide +kernel⟩
  change nested.1 ≠ _
  rw [failed]
  exact nofun

end Library

end Phrasebook
