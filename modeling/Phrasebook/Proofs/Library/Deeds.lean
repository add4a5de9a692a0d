import Mathlib.Data.Finset.Card
import Phrasebook.Proofs.Library.StandIns

/-!
# The identity of stand-ins

A stand-in lives as long as its table, whatever else is done: lookups, changes of entries, changes of
fallbacks, new tables and new observers. The invariant is `Sound`: no two stand-ins share an identity,
and all identities lie below the next one to be given out. From one state to a later one the stand-ins
of the tables that were not dropped are kept, and those that came have identities of their own, so a
stand-in is the same definition whenever a lookup comes to it again, and no other lookup ever comes to
it.
-/

namespace Phrasebook

inductive Deed where
  | find (id : TableId) (key : String) (optional : Bool)
  | change (id : TableId) (call : TableCall)
  | setFallback (id : TableId) (fallback : Option TableId)
  | create (name : String) (relays : Bool)
  | drop (id : TableId)
  | observe (id : TableId) (observer : Observer)
  | listen (observer : Observer)

def Deed.perform : Deed → LibraryM Unit
  | find id key optional => do
    let _ ← Library.find id key optional
  | change id call => do
    let _ ← call.step id
  | setFallback id fallback => do
    let _ ← Library.setFallback id fallback
  | create name relays => do
    let _ ← Library.addTable name relays
  | drop id => Library.dropTable id
  | observe id observer => Library.observe id observer
  | listen observer => Library.listen observer

namespace Library

def afterDeeds (library : Library) (deeds : List Deed) : Library :=
  deeds.foldl (fun library deed ↦ (deed.perform.run library).2) library

/-- The keys for which an optional lookup ended at a table since it was made, or dropped, and one deed
more. -/
def asked (library : Library) (id : TableId) (keys : Finset String) : Deed → Finset String
  | .find other key true => if library.endsAt? other key = some id then keys ∪ {key} else keys
  | .drop other => if other = id then ∅ else keys
  | _ => keys

/-- The keys for which an optional lookup ended at a table, over deeds. -/
def askedAll (library : Library) (id : TableId) (keys : Finset String) : List Deed → Finset String
  | [] => keys
  | deed :: deeds => (deed.perform.run library).2.askedAll id (library.asked id keys deed) deeds

/-- What a deed has to do with stand-ins: an optional lookup ends at a table, or a table is dropped, or
they stay as they are. -/
inductive Touches (library : Library) : Deed → Library → Prop where
  | ends {id last : TableId} {key : String} {middle : Library}
      (ends : library.endsAt? id key = some last) (spares : Spares library middle) :
      Touches library (.find id key true) ((standIn last key).run middle).2
  | drops (id : TableId) : Touches library (.drop id) (library.dropping id)
  | spares {deed : Deed} {after : Library}
      (needless : ∀ id key, deed = .find id key true → library.endsAt? id key = none)
      (keeps : ∀ id, deed ≠ .drop id) (standIns : after.standIns = library.standIns)
      (grows : library.nextIdentity ≤ after.nextIdentity) : Touches library deed after

section

variable {library : Library}

/-- An optional lookup leaves a stand-in where it ends, and any other lookup leaves none. -/
theorem touches_find (grounded : library.Grounded) (id : TableId) (key : String) (optional : Bool) :
    Touches library (.find id key optional) ((Deed.find id key optional).perform.run library).2 := by
  have spared (needless : optional = true → library.endsAt? id key = none) :
      Touches library (.find id key optional) ((find id key optional).run library).2 := by
    have spares := find_spares grounded needless
    refine .spares (fun id key same ↦ ?_) nofun spares.standIns spares.grows
    cases same
    exact needless rfl
  cases optional with
  | false => exact spared nofun
  | true =>
    cases ends : library.endsAt? id key with
    | none => exact spared fun _ ↦ ends
    | some last =>
      obtain ⟨middle, spares, ran⟩ := find_ends grounded ends
      have touches : Touches library (.find id key true) ((find id key true).run library).2 := by
        rw [ran]
        exact .ends ends spares
      exact touches

theorem touches (grounded : library.Grounded) (deed : Deed) :
    Touches library deed (deed.perform.run library).2 := by
  cases deed with
  | find id key optional => exact touches_find grounded id key optional
  | change id call =>
    have spares := (respected_spares id).call library call
    exact .spares nofun nofun spares.standIns spares.grows
  | setFallback id fallback =>
    have same : ((setFallback id fallback).run library).2.standIns = library.standIns ∧
        ((setFallback id fallback).run library).2.nextIdentity = library.nextIdentity := by
      cases fallback with
      | none => exact ⟨rfl, rfl⟩
      | some next =>
        obtain ⟨path, falls⟩ := grounded next
        by_cases mem : id ∈ path
        · rw [setFallback_run_of_mem falls mem]
          exact ⟨rfl, rfl⟩
        · rw [setFallback_run_of_not_mem falls mem]
          exact ⟨rfl, rfl⟩
    exact .spares nofun nofun same.1 (Nat.le_of_eq same.2.symm)
  | create name relays => exact .spares nofun nofun rfl (Nat.le_refl _)
  | drop id => exact .drops id
  | observe id observer => exact .spares nofun nofun rfl (Nat.le_refl _)
  | listen observer => exact .spares nofun nofun rfl (Nat.le_refl _)

theorem FallsBack.of_fallbacks {before after : Library} {id : TableId} {path : List TableId}
    (falls : before.FallsBack id path)
    (same : ∀ id, (after.table id).fallback = (before.table id).fallback) :
    after.FallsBack id path := by
  induction falls with
  | @last id none_left => exact .last ((same id).trans none_left)
  | @next id next path fallback _ ih => exact .next ((same id).trans fallback) ih

theorem Grounded.of_fallbacks {before after : Library} (grounded : before.Grounded)
    (same : ∀ id, (after.table id).fallback = (before.table id).fallback) : after.Grounded := by
  intro id
  obtain ⟨path, falls⟩ := grounded id
  exact ⟨path, falls.of_fallbacks same⟩

/-- A dropped table has no fallback. -/
theorem Grounded.dropping (grounded : library.Grounded) (id : TableId) :
    (library.dropping id).Grounded := by
  have wired : RewiredAt id library (library.dropping id) := fun other apart ↦ by simp [apart]
  exact grounded.rewired wired ⟨[id], .last (by simp)⟩

theorem Grounded.find (grounded : library.Grounded) (id : TableId) (key : String)
    (optional : Bool) : ((Library.find id key optional).run library).2.Grounded := by
  by_cases needless : optional = true → library.endsAt? id key = none
  · exact grounded.of_fallbacks (find_spares grounded needless).fallbacks
  · obtain ⟨rfl, some_end⟩ := Classical.not_imp.1 needless
    obtain ⟨last, ends⟩ := Option.ne_none_iff_exists'.1 some_end
    obtain ⟨middle, spares, ran⟩ := find_ends grounded ends
    refine grounded.of_fallbacks fun other ↦ ?_
    rw [ran, (standIn_run last key middle).frame]
    exact spares.fallbacks other

theorem Grounded.perform (grounded : library.Grounded) (deed : Deed) :
    (deed.perform.run library).2.Grounded := by
  cases deed with
  | find id key optional => exact grounded.find id key optional
  | change id call => exact grounded.of_fallbacks ((respected_spares id).call library call).fallbacks
  | setFallback id fallback => exact grounded.setFallback id fallback
  | create name relays => exact grounded.adding name relays
  | drop id => exact grounded.dropping id
  | observe id observer =>
    refine grounded.of_fallbacks fun other ↦ @field_modifyTable _ Table.fallback _ ?_ id other library
    exact fun _ ↦ rfl
  | listen observer => exact grounded.of_fallbacks fun _ ↦ rfl

end

/-! ## From one state to a later one -/

theorem standIn?_of_standIns_eq {before after : Library} (same : after.standIns = before.standIns)
    (id : TableId) (key : String) : after.standIn? id key = before.standIn? id key := by
  rw [standIn?, standIn?, same]

theorem standIn?_dropping (library : Library) (id other : TableId) (key : String) :
    (library.dropping id).standIn? other key =
      if other = id then none else library.standIn? other key := by
  by_cases same : id = other
  · simp [standIn?, dropping, same]
  · simp [standIn?, dropping, Std.TreeMap.getD_erase, same, Ne.symm same]

/-- Over deeds, the stand-ins of tables that are not dropped are kept, and those that come have
identities that were not given out before. -/
structure Inherits (deeds : List Deed) (before after : Library) : Prop where
  grows : before.nextIdentity ≤ after.nextIdentity
  kept : ∀ (id : TableId) (key : String) (shared : Shared), Deed.drop id ∉ deeds →
    before.standIn? id key = some shared → after.standIn? id key = some shared
  own : ∀ (id : TableId) (key : String) (shared : Shared), after.standIn? id key = some shared →
    before.standIn? id key = some shared ∨ before.nextIdentity ≤ shared.identity

namespace Inherits

variable {before middle after : Library} {deeds more : List Deed}

theorem nil (library : Library) : Inherits [] library library :=
  ⟨Nat.le_refl _, fun _ _ _ _ held ↦ held, fun _ _ _ held ↦ .inl held⟩

theorem append (first : Inherits deeds before middle) (second : Inherits more middle after) :
    Inherits (deeds ++ more) before after where
  grows := Nat.le_trans first.grows second.grows
  kept id key shared keeps held := by
    refine second.kept id key shared (fun mem ↦ keeps (List.mem_append_right _ mem)) ?_
    exact first.kept id key shared (fun mem ↦ keeps (List.mem_append_left _ mem)) held
  own id key shared held := by
    rcases second.own id key shared held with held | new
    · exact first.own id key shared held
    · exact .inr (Nat.le_trans first.grows new)

theorem of_standIns_eq {deeds : List Deed} (same : after.standIns = before.standIns)
    (grows : before.nextIdentity ≤ after.nextIdentity) : Inherits deeds before after where
  grows := grows
  kept id key shared _ held := by rwa [standIn?_of_standIns_eq same]
  own id key shared held := by
    rw [standIn?_of_standIns_eq same] at held
    exact .inl held

theorem standIn (id : TableId) (key : String) (library : Library) :
    Inherits [] library ((Library.standIn id key).run library).2 := by
  rcases standIn_run_cases id key library with ⟨shared, known, ran⟩ | ⟨unknown, ran⟩
  · rw [ran]
    exact nil library
  · rw [ran]
    refine ⟨Nat.le_succ _, fun other name shared _ held ↦ ?_, fun other name shared held ↦ ?_⟩
    · rw [standIn?_standingIn, if_neg]
      · exact held
      · rintro ⟨rfl, rfl⟩
        cases unknown.symm.trans held
    · rw [standIn?_standingIn] at held
      split at held
      · cases held
        exact .inr (Nat.le_refl _)
      · exact .inl held

end Inherits

/-- No deed but a drop takes a stand-in away. -/
theorem Touches.inherits {library after : Library} {deed : Deed} (touches : Touches library deed after) :
    Inherits [deed] library after := by
  cases touches with
  | @ends id last key middle ends spares =>
    have spared : Inherits [Deed.find id key true] library middle :=
      .of_standIns_eq spares.standIns spares.grows
    exact spared.append (.standIn last key middle)
  | drops id =>
    refine ⟨Nat.le_refl _, fun other key shared keeps held ↦ ?_, fun other key shared held ↦ ?_⟩
    · rw [standIn?_dropping, if_neg fun same ↦ keeps (by rw [same]; exact List.mem_cons_self)]
      exact held
    · rw [standIn?_dropping] at held
      split at held
      · cases held
      · exact .inl held
  | spares needless keeps standIns grows => exact .of_standIns_eq standIns grows

/-! ## Sound libraries -/

/-- No two stand-ins share an identity, and the next identity is new. -/
structure Sound (library : Library) : Prop where
  grounded : library.Grounded
  missing : ∀ (id : TableId) (key : String) (shared : Shared),
    library.standIn? id key = some shared → shared.phrase = .missing key
  bounded : ∀ (id : TableId) (key : String) (shared : Shared),
    library.standIn? id key = some shared → shared.identity < library.nextIdentity
  apart : ∀ (id other : TableId) (key name : String) (first second : Shared),
    library.standIn? id key = some first → library.standIn? other name = some second →
      first.identity = second.identity → id = other ∧ key = name

namespace Sound

variable {library : Library}

theorem empty : ({} : Library).Sound := by
  have none_there (id : TableId) (key : String) : ({} : Library).standIn? id key = none := by
    simp [standIn?]
  refine ⟨grounded_of_bare (by simp), fun id key shared held ↦ ?_, fun id key shared held ↦ ?_,
    fun id other key name first second held ↦ ?_⟩
  · cases (none_there id key).symm.trans held
  · cases (none_there id key).symm.trans held
  · cases (none_there id key).symm.trans held

theorem of_spares (sound : library.Sound) {after : Library} (grounded : after.Grounded)
    (standIns : after.standIns = library.standIns)
    (grows : library.nextIdentity ≤ after.nextIdentity) : after.Sound := by
  have same := standIn?_of_standIns_eq standIns
  refine ⟨grounded, fun id key shared held ↦ ?_, fun id key shared held ↦ ?_,
    fun id other key name first second held held' ↦ ?_⟩
  · exact sound.missing id key shared (same id key ▸ held)
  · exact Nat.lt_of_lt_of_le (sound.bounded id key shared (same id key ▸ held)) grows
  · exact sound.apart id other key name first second (same id key ▸ held) (same other name ▸ held')

theorem standingIn (sound : library.Sound) {id : TableId} {key : String}
    (grounded : (library.standingIn id key).Grounded) : (library.standingIn id key).Sound := by
  have cases_of {other : TableId} {name : String} {shared : Shared}
      (held : (library.standingIn id key).standIn? other name = some shared) :
      ((other = id ∧ name = key) ∧ shared = ⟨library.nextIdentity, .missing key⟩) ∨
        library.standIn? other name = some shared := by
    rw [standIn?_standingIn] at held
    split at held
    · next new => exact .inl ⟨new, (Option.some.inj held).symm⟩
    · exact .inr held
  refine ⟨grounded, fun other name shared held ↦ ?_, fun other name shared held ↦ ?_,
    fun id other key name first second held held' same ↦ ?_⟩
  · rcases cases_of held with ⟨⟨-, rfl⟩, rfl⟩ | held
    · rfl
    · exact sound.missing other name shared held
  · rcases cases_of held with ⟨-, rfl⟩ | held
    · exact Nat.lt_succ_self _
    · exact Nat.lt_succ_of_lt (sound.bounded other name shared held)
  · rcases cases_of held with ⟨⟨rfl, rfl⟩, rfl⟩ | old
    · rcases cases_of held' with ⟨⟨rfl, rfl⟩, rfl⟩ | old'
      · exact ⟨rfl, rfl⟩
      · exact absurd same (Nat.ne_of_gt (sound.bounded other name second old'))
    · rcases cases_of held' with ⟨⟨rfl, rfl⟩, rfl⟩ | old'
      · exact absurd same (Nat.ne_of_lt (sound.bounded id key first old))
      · exact sound.apart id other key name first second old old' same

/-- No deed gives an identity to two stand-ins. -/
theorem perform (sound : library.Sound) (deed : Deed) : (deed.perform.run library).2.Sound := by
  have grounded := sound.grounded.perform deed
  have touches := touches sound.grounded deed
  generalize (deed.perform.run library).2 = after at grounded touches
  cases touches with
  | @ends id last key middle ends spares =>
    have sound := sound.of_spares (sound.grounded.of_fallbacks spares.fallbacks) spares.standIns spares.grows
    rcases standIn_run_cases last key middle with ⟨shared, -, ran⟩ | ⟨-, ran⟩
    · rw [ran]
      exact sound
    · rw [ran] at grounded ⊢
      exact sound.standingIn grounded
  | drops id =>
    have before {other : TableId} {key : String} {shared : Shared}
        (held : (library.dropping id).standIn? other key = some shared) :
        library.standIn? other key = some shared := by
      rw [standIn?_dropping] at held
      split at held
      · cases held
      · exact held
    exact ⟨grounded, fun other key shared held ↦ sound.missing other key shared (before held),
      fun other key shared held ↦ sound.bounded other key shared (before held),
      fun id other key name first second held held' ↦
        sound.apart id other key name first second (before held) (before held')⟩
  | spares needless keeps standIns grows => exact sound.of_spares grounded standIns grows

theorem afterDeeds (sound : library.Sound) (deeds : List Deed) : (library.afterDeeds deeds).Sound := by
  induction deeds generalizing library with
  | nil => exact sound
  | cons deed deeds ih => exact ih (sound.perform deed)

theorem inherits (sound : library.Sound) (deeds : List Deed) :
    Inherits deeds library (library.afterDeeds deeds) := by
  induction deeds generalizing library with
  | nil => exact .nil library
  | cons deed deeds ih => exact (touches sound.grounded deed).inherits.append (ih (sound.perform deed))

end Sound

/-! ## Counting -/

/-- The stand-ins of a table are those of certain keys. -/
def StandsInFor (library : Library) (id : TableId) (keys : Finset String) : Prop :=
  ∀ key, (library.standIn? id key).isSome = true ↔ key ∈ keys

namespace StandsInFor

variable {library after : Library} {id : TableId} {keys : Finset String}

theorem count_eq (stands : library.StandsInFor id keys) : library.standInCount id = keys.card := by
  let held := library.standIns.getD id ∅
  have same : held.keys.toFinset = keys := by
    ext key
    rw [List.mem_toFinset, Std.TreeMap.mem_keys, ← Std.TreeMap.isSome_getElem?_iff_mem]
    exact stands key
  rw [← same, List.toFinset_card_of_nodup Std.TreeMap.nodup_keys, Std.TreeMap.length_keys]
  rfl

theorem of_standIns_eq (stands : library.StandsInFor id keys)
    (same : after.standIns = library.standIns) : after.StandsInFor id keys := by
  intro key
  rw [standIn?_of_standIns_eq same]
  exact stands key

theorem standIn (stands : library.StandsInFor id keys) (last : TableId) (key : String) :
    ((Library.standIn last key).run library).2.StandsInFor id
      (if last = id then keys ∪ {key} else keys) := by
  have stood := standIn_run last key library
  intro name
  by_cases same : last = id ∧ name = key
  · obtain ⟨rfl, rfl⟩ := same
    rw [stood.kept, if_pos rfl]
    simp
  · rw [stood.others id name fun equal ↦ same ⟨equal.1.symm, equal.2⟩, stands name]
    split
    · next here =>
      have other : name ≠ key := fun equal ↦ same ⟨here, equal⟩
      simp [other]
    · exact Iff.rfl

theorem touches (stands : library.StandsInFor id keys) {deed : Deed}
    (touches : Touches library deed after) : after.StandsInFor id (library.asked id keys deed) := by
  cases touches with
  | @ends other last key middle ends spares =>
    rw [asked, ends]
    simp only [Option.some.injEq]
    exact (stands.of_standIns_eq spares.standIns).standIn last key
  | drops other =>
    intro key
    rw [standIn?_dropping, asked]
    by_cases same : id = other
    · simp [same]
    · rw [if_neg same, if_neg (Ne.symm same)]
      exact stands key
  | spares needless keeps standIns grows =>
    have unasked : library.asked id keys deed = keys := by
      cases deed with
      | find other key optional =>
        cases optional with
        | false => rfl
        | true => rw [asked, needless other key rfl, if_neg nofun]
      | drop other => exact absurd rfl (keeps other)
      | change | setFallback | create | observe | listen => rfl
    rw [unasked]
    exact stands.of_standIns_eq standIns

theorem afterDeeds (stands : library.StandsInFor id keys) (sound : library.Sound)
    (deeds : List Deed) :
    (library.afterDeeds deeds).StandsInFor id (library.askedAll id keys deeds) := by
  induction deeds generalizing library keys with
  | nil => exact stands
  | cons deed deeds ih =>
    exact ih (stands.touches (Library.touches sound.grounded deed)) (sound.perform deed)

end StandsInFor

end Library

/-! ## What stand-ins are -/

/-- A definition marks a key as missing, and says so with any resolver. -/
structure Shared.StandsFor (shared : Shared) (key : String) : Prop where
  missing : shared.phrase.isMissing = true
  pieces : shared.phrase.pieces = []
  name : shared.phrase.name = key
  renders : ∀ {σ : Type} (resolve : Resolver σ) (desk : Desk σ), desk.output.body = .empty →
    ∃ after, shared.phrase.render resolve desk = (.ok (), after) ∧
      after.output.text = "<MISSING: " ++ key ++ ">"

theorem Shared.standsFor_of_missing {shared : Shared} {key : String}
    (missing : shared.phrase = .missing key) : shared.StandsFor key := by
  obtain ⟨identity, phrase⟩ := shared
  cases missing
  refine ⟨rfl, rfl, rfl, fun resolve desk blank ↦ ?_⟩
  obtain ⟨⟨body, format⟩, pool, world⟩ := desk
  cases blank
  exact ⟨_, rfl, rfl⟩

namespace Library

variable {library : Library}

/-- An optional lookup that ends at a table hands out the stand-in of the table, which the table keeps. -/
theorem Sound.find_standIn (sound : library.Sound) {id last : TableId} {key : String}
    (ends : library.endsAt? id key = some last) :
    ∃ shared, ((find id key true).run library).1 = .ok shared ∧ shared.phrase = .missing key ∧
      ((find id key true).run library).2.standIn? last key = some shared ∧
      ∀ held, library.standIn? last key = some held → shared = held := by
  obtain ⟨middle, spares, ran⟩ := find_ends sound.grounded ends
  have stood := standIn_run last key middle
  have answer := stood.answer
  rw [standIn?_of_standIns_eq spares.standIns] at answer
  rw [ran]
  refine ⟨_, rfl, ?_, stood.kept, fun held known ↦ ?_⟩
  · cases known : library.standIn? last key with
    | some held =>
      rw [answer, known]
      exact sound.missing last key held known
    | none =>
      rw [answer, known]
      rfl
  · rw [answer, known]
    rfl

/-- Stand-ins keep their identity. Whatever is done from an empty library on, an optional lookup answers
with what a table of the chain holds or ends at the last table with a stand-in for the key; and whatever
is done after that, a lookup that ends at the table again with the key is answered with the same
definition, as long as the table is not dropped, and a lookup that ends elsewhere or with another key is
not. A table has as many stand-ins as there are keys for which an optional lookup ended at it, so that
no other lookup adds one, and takes them with it when it is dropped. -/
theorem stand_ins_keep_identity (deeds : List Deed) :
    let library := ({} : Library).afterDeeds deeds
    (∀ id key, Text.isBlankText key = false → library.endsAt? id key = none →
      ∃ other ∈ library.lookupPath id, ∃ shared,
        (library.table other).entries[key]? = some shared ∧
        ((find id key true).run library).1 = .ok shared) ∧
    (∀ id key last, library.endsAt? id key = some last →
      ∃ shared, ((find id key true).run library).1 = .ok shared ∧ shared.StandsFor key ∧
        ∀ between other name final,
          let later := ((find id key true).run library).2.afterDeeds between
          later.endsAt? other name = some final →
          ∃ again, ((find other name true).run later).1 = .ok again ∧
            (final = last → name = key → .drop last ∉ between → again = shared) ∧
            (¬ (final = last ∧ name = key) → again.identity ≠ shared.identity)) ∧
    (∀ id, library.standInCount id = (({} : Library).askedAll id ∅ deeds).card) ∧
    (∀ id key optional other, (optional = true → library.endsAt? id key ≠ some other) →
      ((find id key optional).run library).2.standInCount other = library.standInCount other) ∧
    ∀ id, ((dropTable id).run library).2.standInCount id = 0 ∧
      ∀ other key, other ≠ id →
        ((dropTable id).run library).2.standIn? other key = library.standIn? other key := by
  intro library
  have sound : library.Sound := Sound.empty.afterDeeds deeds
  have none_yet (id : TableId) : ({} : Library).StandsInFor id ∅ := fun key ↦ by simp [standIn?]
  have stands (id : TableId) : library.StandsInFor id (({} : Library).askedAll id ∅ deeds) :=
    (none_yet id).afterDeeds .empty deeds
  refine ⟨fun id key sought needless ↦ find_hits sound.grounded sought needless,
    fun id key last ends ↦ ?_, fun id ↦ (stands id).count_eq,
    fun id key optional other elsewhere ↦ ?_, fun id ↦ ⟨?_, fun other key apart ↦ ?_⟩⟩
  · obtain ⟨shared, answer, missing, kept, -⟩ := sound.find_standIn ends
    refine ⟨shared, answer, Shared.standsFor_of_missing missing, ?_⟩
    intro between other name final later ends_again
    have sound_once := sound.perform (.find id key true)
    have sound_later : later.Sound := sound_once.afterDeeds between
    have inherits : Inherits between _ later := sound_once.inherits between
    obtain ⟨again, answer_again, -, kept_again, same⟩ := sound_later.find_standIn ends_again
    refine ⟨again, answer_again, ?_, fun elsewhere equal ↦ ?_⟩
    · rintro rfl rfl keeps
      exact same shared (inherits.kept final name shared keeps kept)
    · have further := inherits.append (sound_later.inherits [.find other name true])
      rcases further.own final name again kept_again with before | new
      · exact elsewhere (sound_once.apart final last name key again shared before kept equal)
      · have bounded := sound_once.bounded last key shared kept
        exact absurd equal (Nat.ne_of_gt (Nat.lt_of_lt_of_le bounded new))
  · have behind := (stands other).touches (touches sound.grounded (.find id key optional))
    have unasked : library.asked other (({} : Library).askedAll other ∅ deeds)
        (.find id key optional) = ({} : Library).askedAll other ∅ deeds := by
      cases optional with
      | false => rfl
      | true => exact if_neg (elsewhere rfl)
    rw [unasked] at behind
    exact behind.count_eq.trans (stands other).count_eq.symm
  · have gone := ((stands id).touches (.drops id)).count_eq
    rw [asked, if_pos rfl] at gone
    exact gone
  · rw [dropTable_run, standIn?_dropping, if_neg apart]

/-- A key is missed along a fallback, comes and goes again, and is missed at the fallback itself. -/
theorem stand_ins_keep_identity_menu :
    let library := ({} : Library).afterDeeds
      [.create "menu" false, .create "common" false, .setFallback 0 (some 1),
        .observe 0 ⟨"first", .supply "Quit"⟩]
    let later := ((find 0 "quit" true).run library).2.afterDeeds
      [.change 1 (.addRaw "quit" "Leave" false), .find 1 "quit" true, .change 1 .clear]
    library.endsAt? 0 "quit" = some 1 ∧ later.endsAt? 1 "quit" = some 1 ∧
      ∃ shared, ((find 0 "quit" true).run library).1 = .ok shared ∧ shared.StandsFor "quit" ∧
        ((find 1 "quit" true).run later).1 = .ok shared := by
  intro library later
  have ends : library.endsAt? 0 "quit" = some 1 := by decide +kernel
  have ends_again : later.endsAt? 1 "quit" = some 1 := by decide +kernel
  obtain ⟨-, lookups, -⟩ := stand_ins_keep_identity
    [.create "menu" false, .create "common" false, .setFallback 0 (some 1),
      .observe 0 ⟨"first", .supply "Quit"⟩]
  obtain ⟨shared, answer, stands, further⟩ := lookups 0 "quit" 1 ends
  obtain ⟨again, answer_again, same, -⟩ := further
    [.change 1 (.addRaw "quit" "Leave" false), .find 1 "quit" true, .change 1 .clear]
    1 "quit" 1 ends_again
  refine ⟨ends, ends_again, shared, answer, stands, ?_⟩
  rw [answer_again, same rfl rfl (by simp)]

end Library

end Phrasebook
