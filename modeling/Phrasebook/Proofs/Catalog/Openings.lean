import Phrasebook.Proofs.Catalog.Verdicts

/-!
# When resources are opened

A resource is opened when a table needs it and at no other time: a load opens the resource of its key
unless the table is kept, was filled for the current locale and lacks nothing, and a reload opens one
resource for each table. What is opened in the course of a run is therefore told step by step, and what
a run costs follows from which tables are up to date on the way.
-/

namespace Phrasebook

open Phrasebook.Storage

/-- Whether elements are left out or what comes again is makes no difference to the order. -/
theorem eraseDups_filter {α : Type} [BEq α] [LawfulBEq α] (p : α → Bool) :
    (as : List α) → (as.filter p).eraseDups = as.eraseDups.filter p
  | [] => rfl
  | a :: as => by
    have others := eraseDups_filter p (as.filter fun b ↦ !b == a)
    rw [List.filter_filter] at others
    rw [List.eraseDups_cons, List.filter_cons, List.filter_cons, ← others]
    split
    · rw [List.eraseDups_cons, List.filter_filter]
      simp only [Bool.and_comm]
    · next out =>
      refine congrArg List.eraseDups (List.filter_congr fun b _ ↦ ?_)
      by_cases same : b = a <;> simp [same, out]
  termination_by as => as.length
  decreasing_by exact Nat.lt_succ_of_le (List.length_filter_le _ _)

namespace Catalog

/-- The table of a key is kept, was last filled for the current locale, and lacks no entry. -/
def UpToDate (catalog : Catalog) (key : TableKey) : Prop :=
  ∃ id ∈ catalog.cached? key, (catalog.library.table id).status.locale = some catalog.locale ∧
    (catalog.library.table id).status.rejected = 0

instance (catalog : Catalog) (key : TableKey) : Decidable (catalog.UpToDate key) :=
  inferInstanceAs (Decidable (∃ id ∈ catalog.cached? key,
    (catalog.library.table id).status.locale = some catalog.locale ∧
      (catalog.library.table id).status.rejected = 0))

/-- Between two states of a catalog these locations were opened, in this order, and no other ones. -/
def OpensEach (before : Catalog) (locations : List String) (after : Catalog) : Prop :=
  ∃ made, after.store.openings = before.store.openings ++ made ∧
    made.map Opening.location = locations

section

variable {catalog before middle after : Catalog} {key other : TableKey} {id : TableId}
  {optional force : Bool} {locations more : List String}

theorem OpensEach.none (store : after.store.openings = before.store.openings) :
    OpensEach before [] after :=
  ⟨[], by rw [store, List.append_nil], rfl⟩

theorem OpensEach.append (first : OpensEach before locations middle)
    (second : OpensEach middle more after) : OpensEach before (locations ++ more) after := by
  obtain ⟨made, opened, rfl⟩ := first
  obtain ⟨later, opened', rfl⟩ := second
  exact ⟨made ++ later, by rw [opened', opened, List.append_assoc], List.map_append⟩

theorem Opens.each {location : String} (opens : Opens before location after) :
    OpensEach before [location] after := by
  obtain ⟨byMemory, opened⟩ := opens
  exact ⟨_, opened, rfl⟩

/-! ## Loads -/

theorem upToDate_iff (cached : catalog.cached? key = some id) :
    catalog.UpToDate key ↔ catalog.isCurrent id catalog.locale = true := by
  simp [UpToDate, cached, isCurrent_iff, and_comm]

theorem stale_iff : catalog.Stale key force ↔ force = true ∨ ¬ catalog.UpToDate key := by
  cases cached : catalog.cached? key with
  | none => simp [Stale, UpToDate, cached]
  | some id => simp [Stale, upToDate_iff, cached]

/-- A load of a table that is up to date hands it out and leaves no trace. -/
theorem load_run_of_upToDate (current : catalog.UpToDate key) (optional : Bool) :
    ∃ id, catalog.cached? key = some id ∧
      (load key optional false).run catalog = (.ok id, catalog) := by
  obtain ⟨id, cached, -⟩ := id current
  refine ⟨id, cached, ?_⟩
  have entered : (catalog.journaling .enter).cached? key = some id := cached
  have idle : (!false && (catalog.journaling .enter).isCurrent id catalog.locale) = true :=
    (upToDate_iff cached).1 current
  rw [load, loadWith_run, request_of_cached entered, refresh_of_current idle]
  rfl

/-- What a load opens. -/
def needs (catalog : Catalog) (key : TableKey) (force : Bool) : List String :=
  if force = false ∧ catalog.UpToDate key then [] else [catalog.resource key]

/-- A load opens what it needs, in this order, and nothing else. -/
theorem load_opens (order : InOrder catalog) (key : TableKey) (optional force : Bool) :
    OpensEach catalog (catalog.needs key force) ((load key optional force).run catalog).2 := by
  by_cases idle : force = false ∧ catalog.UpToDate key
  · obtain ⟨rfl, current⟩ := idle
    obtain ⟨id, -, ran⟩ := load_run_of_upToDate current optional
    rw [needs, if_pos ⟨rfl, current⟩, ran]
    exact .none rfl
  · have stale : catalog.Stale key force := by
      rw [stale_iff, ← Bool.not_eq_false]
      exact Classical.not_and_iff_not_or_not.1 idle
    rw [needs, if_neg idle]
    exact ((load_outcome order key optional force).opens stale).each

theorem sameSetting_load (order : InOrder catalog) (key : TableKey) (optional force : Bool) :
    SameSetting catalog ((load key optional force).run catalog).2 :=
  (loadWith_loaded order interleave optional force).setting

theorem upToDate_of_ok (order : InOrder catalog)
    (ok : ((load key optional force).run catalog).1 = .ok id) :
    ((load key optional force).run catalog).2.cached? key = some id ∧
      ((load key optional force).run catalog).2.UpToDate key := by
  have loaded := @loadWith_loaded catalog key order interleave optional force
  obtain ⟨cached, current⟩ := loaded.answered id ok
  refine ⟨cached, (upToDate_iff cached).2 ?_⟩
  rw [loaded.setting.locale]
  exact current

/-- A load makes no difference to whether other tables are up to date. -/
theorem upToDate_load (order : InOrder catalog) (apart : other ≠ key) (optional force : Bool) :
    ((load key optional force).run catalog).2.UpToDate other ↔ catalog.UpToDate other := by
  have locale := (sameSetting_load order key optional force).locale
  obtain ⟨same, tables⟩ := (load_outcome order key optional force).others order apart
  cases cached : catalog.cached? other with
  | none => simp [UpToDate, same, cached]
  | some id => simp [UpToDate, same, cached, tables id cached, locale]

/-! ## Reloads -/

theorem store_report (filling : Filling) (report : ReloadReport) (catalog : Catalog) :
    ((filling.report report).run catalog).2.store = catalog.store := by
  simp only [Filling.report, run_bind, finish_run]
  split
  · simp only [run_bind, ↓run_ite]
    split <;> rfl
  · rfl
  · rfl

theorem opens_openedAgain (catalog : Catalog) (key : TableKey) (target : String) :
    Opens catalog (catalog.locate key target) (catalog.openedAgain key target) :=
  opens_of_store rfl

/-- Every table that is filled again has its resource opened, by induction on the tables. -/
theorem reloadEach_opens (interleave : Interleave) (tables : List (TableKey × TableId))
    (report : ReloadReport) (order : InOrder catalog)
    (cached : ∀ pair ∈ tables, catalog.cached? pair.1 = some pair.2) :
    OpensEach catalog (tables.map fun pair ↦ catalog.resource pair.1)
      ((reloadEach interleave catalog.locale tables report).run catalog).2 := by
  induction tables generalizing catalog report with
  | nil => exact .none rfl
  | cons pair rest ih =>
    have first := report_refreshed order (cached pair List.mem_cons_self) report
    have opened := opens_openedAgain catalog pair.1 catalog.locale
    unfold Opens at opened
    rw [← store_report (catalog.filling pair.1 pair.2 catalog.locale false) report] at opened
    have later := ih (((catalog.filling pair.1 pair.2 catalog.locale false).report report).run
      (catalog.openedAgain pair.1 catalog.locale)).1 (first.inOrder order)
      fun other mem ↦ (first.cached other.1).trans (cached other (List.mem_cons_of_mem _ mem))
    simp only [first.setting.resource] at later
    rw [first.setting.locale] at later
    rw [reloadEach_cons_run order.quiet]
    exact (Opens.each opened).append later

theorem reloadAll_opens (order : InOrder catalog) :
    OpensEach catalog (catalog.cache.keys.map catalog.resource) (reloadAll.run catalog).2 := by
  have opens := reloadEach_opens interleave catalog.cache.toList {} order
    fun pair mem ↦ Std.TreeMap.mem_toList_iff_getElem?_eq_some.1 mem
  rw [reloadAll, reloadAllWith_run, ← Std.TreeMap.map_fst_toList_eq_keys, List.map_map]
  exact opens

/-! ## Runs -/

namespace Happening

/-- What is opened when something happens. -/
def needs : Happening → Catalog → List String
  | .operation (.load key _ force), catalog => catalog.needs key force
  | .operation .reloadAll, catalog => catalog.cache.keys.map catalog.resource
  | _, _ => []

/-- Nobody else opens anything in a store that is edited. -/
def OpensNothingElse : Happening → Prop
  | .operation (.edit change) => ∀ store, (change store).openings = store.openings
  | _ => True

/-- Whatever happens opens just what it needs. -/
theorem opens (happening : Happening) (order : InOrder catalog)
    (nothing_else : happening.OpensNothingElse) :
    OpensEach catalog (happening.needs catalog) (happening.take catalog) := by
  cases happening with
  | use step keeps => exact .none rfl
  | emptyTable =>
    rcases catalog.emptyTable_run_cases with ran | ran
    · exact .none (by rw [take, ran])
    · exact .none (by rw [take, ran, makingEmpty_store])
  | operation done =>
    cases done with
    | setLocale locale =>
      obtain ⟨journal, ran⟩ := setLocale_run locale catalog
      exact .none (congrArg (·.2.store.openings) ran)
    | load key optional force => exact load_opens order key optional force
    | reloadAll => exact reloadAll_opens order
    | clearCache => exact .none rfl
    | edit change => exact .none (nothing_else catalog.store)

end Happening

/-- What is opened in the course of a run. -/
def needsAll : Catalog → List Happening → List String
  | _, [] => []
  | catalog, happening :: rest => happening.needs catalog ++ needsAll (happening.take catalog) rest

theorem afterAll_opens (order : InOrder catalog) {happenings : List Happening}
    (nothing_else : ∀ happening ∈ happenings, happening.OpensNothingElse) :
    OpensEach catalog (catalog.needsAll happenings) (catalog.afterAll happenings) := by
  induction happenings generalizing catalog with
  | nil => exact .none rfl
  | cons happening rest ih =>
    obtain ⟨first, others⟩ := List.forall_mem_cons.1 nothing_else
    exact (happening.opens order first).append (ih (happening.inOrder order) others)

/-! ## A switch of the locale -/

/-- Someone asks for the table of a key, which may be missing or not. -/
def asking (request : TableKey × Bool) : Happening := .operation (.load request.1 request.2 false)

/-- Who asks for a table again was answered with it before. -/
def Served : Catalog → List (TableKey × Bool) → Prop
  | _, [] => True
  | catalog, request :: rest =>
    let asked := (load request.1 request.2 false).run catalog
    (request.1 ∈ rest.map Prod.fst → ∃ id, asked.1 = .ok id) ∧ Served asked.2 rest

/-- Requests open one resource for each table that was not up to date when they began, by induction on
the requests: a table that was answered is up to date from then on. -/
theorem needsAll_asking (order : InOrder catalog) {requests : List (TableKey × Bool)}
    (served : catalog.Served requests) :
    catalog.needsAll (requests.map asking) =
      ((requests.map Prod.fst).eraseDups.filter (¬ catalog.UpToDate ·)).map catalog.resource := by
  induction requests generalizing catalog with
  | nil => rfl
  | cons request rest ih =>
    obtain ⟨key, optional⟩ := request
    obtain ⟨answered, served⟩ := served
    have setting := sameSetting_load order key optional false
    have later : needsAll ((load key optional false).run catalog).2 (rest.map asking) = _ :=
      ih (Happening.inOrder (asking (key, optional)) order) served
    -- what is still to be opened afterwards is what was to be opened before, but for the key
    have apart : ((rest.map Prod.fst).eraseDups.filter
        (¬ ((load key optional false).run catalog).2.UpToDate ·)) =
        ((rest.map Prod.fst).filter fun other ↦ !other == key).eraseDups.filter
          (¬ catalog.UpToDate ·) := by
      rw [eraseDups_filter, List.filter_filter]
      refine List.filter_congr fun other mem ↦ ?_
      by_cases same : other = key
      · subst same
        obtain ⟨id, ok⟩ := answered (List.mem_eraseDups.1 mem)
        simp [(upToDate_of_ok order ok).2]
      · simp [upToDate_load order same, same]
    have resource := funext setting.resource
    change catalog.needs key false ++ needsAll ((load key optional false).run catalog).2 _ = _
    rw [later, apart, resource, List.map_cons, List.eraseDups_cons, List.filter_cons, needs]
    by_cases current : catalog.UpToDate key <;> simp [current]

/-- A table that was filled for another locale is not up to date after a switch. -/
theorem not_upToDate_setLocale (current : catalog.UpToDate key) {target : String}
    (other_locale : target ≠ catalog.locale) :
    ¬ ((setLocale target).run catalog).2.UpToDate key := by
  obtain ⟨id, cached, recorded, -⟩ := current
  obtain ⟨journal, ran⟩ := setLocale_run target catalog
  rw [ran]
  rintro ⟨number, kept, again, -⟩
  obtain rfl : number = id := Option.some.inj (kept.symm.trans cached)
  exact other_locale (Option.some.inj (again.symm.trans recorded))

/-! ## Tables that lack entries -/

/-- The table of a key is filled without a loss. -/
def Happening.Completes (key : TableKey) : Happening → Catalog → Prop
  | .operation (.load asked optional force), catalog =>
    asked = key ∧ ∃ id, ((load asked optional force).run catalog).1 = .ok id
  | .operation .reloadAll, catalog =>
    key ∈ (reloadAll.run catalog).1.reloaded ∨ key ∈ (reloadAll.run catalog).1.missing
  | _, _ => False

theorem Intact.leftOut_of_leftOut {error : TableError} (intact : Intact before key error after)
    (left_out : before.LeftOut key) : after.LeftOut key := by
  by_cases rejected : ∃ location errors, error = .rejected location errors
  · obtain ⟨location, errors, rfl⟩ := rejected
    exact intact.leftOut
  · intro id cached
    rw [cached?, intact.cache] at cached
    rw [intact.kept (fun location errors same ↦ rejected ⟨location, errors, same⟩) id cached]
    exact left_out id cached

theorem LeftOut.reloadAll (left_out : catalog.LeftOut key) (order : InOrder catalog)
    (incomplete : ¬ Happening.Completes key (.operation .reloadAll) catalog) :
    (Catalog.reloadAll.run catalog).2.LeftOut key := by
  obtain ⟨not_reloaded, not_missing⟩ := not_or.1 incomplete
  have refreshed : Refreshed catalog (Catalog.reloadAll.run catalog).2 :=
    reloadAllWith_refreshed order interleave
  intro id cached
  rw [refreshed.cached] at cached
  cases (reloadAllWith_judged order interleave).2 key id cached with
  | reloaded listed => exact absurd listed not_reloaded
  | missing listed => exact absurd listed not_missing
  | rejected listed offered some sifted mirrors status =>
    refine Nat.pos_of_ne_zero fun none_left ↦ some (List.length_eq_zero_iff.1 ?_)
    exact (congrArg Status.rejected status).symm.trans none_left
  | failed listed cause broken kept =>
    have same : ((Catalog.reloadAll.run catalog).2.library.table id) = catalog.library.table id := kept
    rw [same]
    exact left_out id cached

/-- A table that lacks entries lacks some until it is filled without a loss. -/
theorem LeftOut.take_of_incomplete (left_out : catalog.LeftOut key) (order : InOrder catalog)
    {happening : Happening} (incomplete : ¬ happening.Completes key catalog) :
    (happening.take catalog).LeftOut key := by
  by_cases asked : happening.Loads key
  · obtain ⟨optional, force, rfl⟩ := Happening.loads_iff.1 asked
    have load := load_outcome order key optional force
    cases answer : ((Catalog.load key optional force).run catalog).1 with
    | ok id => exact absurd ⟨rfl, id, answer⟩ incomplete
    | error error =>
      rw [answer] at load
      exact (load.intact order).leftOut_of_leftOut left_out
  · by_cases reload : happening = .operation .reloadAll
    · subst reload
      exact left_out.reloadAll order incomplete
    · exact left_out.take order asked reload

/-- Entries that were left out stay so until the table is completed. -/
theorem LeftOut.afterAll_of_incomplete (left_out : catalog.LeftOut key) (order : InOrder catalog)
    {happenings : List Happening}
    (incomplete : ∀ earlier happening later, happenings = earlier ++ happening :: later →
      ¬ happening.Completes key (catalog.afterAll earlier)) :
    (catalog.afterAll happenings).LeftOut key := by
  induction happenings generalizing catalog with
  | nil => exact left_out
  | cons happening rest ih =>
    have first := left_out.take_of_incomplete order (incomplete [] happening rest rfl)
    refine ih first (happening.inOrder order) fun earlier next later same ↦ ?_
    exact incomplete (happening :: earlier) next later (congrArg (happening :: ·) same)

/-! ## What a catalog opens -/

/-- What is opened from here on is opened because a table needs it. -/
structure OpensAsNeeded (now : Catalog) : Prop where
  /-- A load opens the resource of its key unless the table is up to date and nobody insists, a reload
  opens one resource for each table, and nothing else opens any. -/
  run : ∀ later : List Happening, (∀ happening ∈ later, happening.OpensNothingElse) →
    OpensEach now (now.needsAll later) (now.afterAll later)
  /-- What is done to tables opens nothing. -/
  tables : ∀ {α : Type} (step : LibraryM α), OpensEach now [] ((inLibrary step).run now).2
  /-- To ask again for a table that was handed out changes nothing at all. -/
  again : ∀ key optional force id, ((load key optional force).run now).1 = .ok id →
    let loaded := ((load key optional force).run now).2
    ∀ other, (load key other false).run loaded = (.ok id, loaded)
  /-- After a switch of the locale one resource is opened for each table that is asked for and does not
  happen to be filled for the new locale already, and none for the others. -/
  switched : ∀ target requests,
    let switched := ((setLocale target).run now).2
    Served switched requests →
      OpensEach switched
        (((requests.map Prod.fst).eraseDups.filter (¬ switched.UpToDate ·)).map switched.resource)
        (switched.afterAll (requests.map asking))
  /-- A table that was up to date before the switch is not afterwards. -/
  outdated : ∀ key target, now.UpToDate key → target ≠ now.locale →
    ¬ ((setLocale target).run now).2.UpToDate key
  /-- The resource of a table that lacks entries is opened by every load, until the table is filled
  without a loss. -/
  rejected : ∀ key, now.LeftOut key → ∀ later : List Happening,
    (∀ earlier happening rest, later = earlier ++ happening :: rest →
      ¬ happening.Completes key (now.afterAll earlier)) →
    let again := now.afterAll later
    again.LeftOut key ∧ ∀ optional force,
      Opens again (again.resource key) ((load key optional force).run again).2

/-- A catalog that is in order opens nothing that no table needs. -/
theorem opensAsNeeded (order : InOrder catalog) : OpensAsNeeded catalog where
  run _ nothing_else := afterAll_opens order nothing_else
  tables _ := .none rfl
  again key optional force id ok := by
    intro loaded other
    obtain ⟨cached, current⟩ := upToDate_of_ok order ok
    obtain ⟨number, kept, ran⟩ := load_run_of_upToDate current other
    obtain rfl : number = id := Option.some.inj (kept.symm.trans cached)
    exact ran
  switched target requests := by
    intro switched served
    have switched_order : InOrder switched := Happening.inOrder (.operation (.setLocale target)) order
    rw [← needsAll_asking switched_order served]
    refine afterAll_opens switched_order fun happening mem ↦ ?_
    obtain ⟨request, -, rfl⟩ := List.mem_map.1 mem
    trivial
  outdated _ _ current other_locale := not_upToDate_setLocale current other_locale
  rejected key left_out later incomplete := by
    intro again
    have still := left_out.afterAll_of_incomplete order incomplete
    have later_order : InOrder again := inOrder_afterAll order later
    refine ⟨still, fun optional force ↦ (load_outcome later_order key optional force).opens ?_⟩
    cases force with
    | true => exact fun _ _ ↦ .inl rfl
    | false => exact still.stale

/-- Whatever happened to a catalog before, one thing after the other, resources are opened when tables
need them and at no other time. -/
theorem resources_opened_when_needed (locale : String) (locator : Locator) (store : Store)
    (happenings : List Happening) :
    let start : Catalog := { locale := locale, locator := locator, store := store }
    OpensAsNeeded (start.afterAll happenings) :=
  opensAsNeeded (inOrder_afterAll (inOrder_new locale locator store) happenings)

/-- A table that is up to date and one that lacks an entry, before and after a switch of the locale. -/
theorem resources_opened_when_needed_menu :
    let document := Text.Utf8.encode
      "<StringTable><File SourcePath='m'><String Name='a'>\x7b</String></File></StringTable>"
    let empty := Text.Utf8.encode "<StringTable/>"
    let store := (Store.inMemory.put "hi_en.xml" empty).put "menu_en.xml" empty
    let happenings : List Happening :=
      [.operation (.load ⟨"", "hi"⟩ false false), .operation (.load ⟨"", "menu"⟩ false false),
        .operation (.edit (·.put "menu_en.xml" document)), .operation (.load ⟨"", "menu"⟩ true true)]
    let now := ({ locale := "en", store := store } : Catalog).afterAll happenings
    let switched := ((setLocale "de").run now).2
    now.UpToDate ⟨"", "hi"⟩ ∧
      OpensEach now ["menu_en.xml", "hi_en.xml", "menu_en.xml"] (now.afterAll
        [.operation (.load ⟨"", "hi"⟩ false false), .operation (.load ⟨"", "menu"⟩ true false),
          .operation .reloadAll]) ∧
      (load ⟨"", "hi"⟩ true false).run ((load ⟨"", "hi"⟩ false false).run now).2 =
        (.ok 0, ((load ⟨"", "hi"⟩ false false).run now).2) ∧
      OpensEach switched ["hi_de.xml"]
        (switched.afterAll ([(⟨"", "hi"⟩, true), (⟨"", "hi"⟩, false)].map asking)) ∧
      ¬ switched.UpToDate ⟨"", "hi"⟩ ∧
      Opens switched "menu_de.xml" ((load ⟨"", "menu"⟩ true false).run switched).2 := by
  intro document empty store happenings now switched
  have opens : OpensAsNeeded now := resources_opened_when_needed "en" {} store happenings
  have current : now.UpToDate ⟨"", "hi"⟩ := by decide +kernel
  have kept : now.cached? ⟨"", "menu"⟩ = some 1 := by decide +kernel
  have lacking : 0 < (now.library.table 1).status.rejected := by decide +kernel
  have needed : now.needsAll [.operation (.load ⟨"", "hi"⟩ false false),
      .operation (.load ⟨"", "menu"⟩ true false), .operation .reloadAll] =
      ["menu_en.xml", "hi_en.xml", "menu_en.xml"] := by decide +kernel
  have loaded : ((load ⟨"", "hi"⟩ false false).run now).1 = .ok 0 := by decide +kernel
  have english : "de" ≠ now.locale := by decide +kernel
  have needed_then : (([(⟨"", "hi"⟩, true), (⟨"", "hi"⟩, false)].map Prod.fst).eraseDups.filter
      (¬ switched.UpToDate ·)).map switched.resource = ["hi_de.xml"] := by decide +kernel
  have served : Served switched [(⟨"", "hi"⟩, true), (⟨"", "hi"⟩, false)] :=
    ⟨fun _ ↦ ⟨0, by decide +kernel⟩, nofun, trivial⟩
  have place : switched.resource ⟨"", "menu"⟩ = "menu_de.xml" := by decide +kernel
  clear_value now
  refine ⟨current, ?_, opens.again ⟨"", "hi"⟩ false false 0 loaded true, ?_,
    opens.outdated _ "de" current english, ?_⟩
  · have run := opens.run [.operation (.load ⟨"", "hi"⟩ false false),
      .operation (.load ⟨"", "menu"⟩ true false), .operation .reloadAll]
      (by simp [Happening.OpensNothingElse])
    rwa [needed] at run
  · have cost := opens.switched "de" [(⟨"", "hi"⟩, true), (⟨"", "hi"⟩, false)] served
    rwa [needed_then] at cost
  · have left_out : now.LeftOut ⟨"", "menu"⟩ := by
      intro id cached
      obtain rfl : 1 = id := Option.some.inj (kept.symm.trans cached)
      exact lacking
    have retried := opens.rejected ⟨"", "menu"⟩ left_out [.operation (.setLocale "de")] <| by
      intro earlier happening rest same
      cases earlier with
      | nil =>
        cases same
        exact id
      | cons first earlier => simp at same
    rw [← place]
    exact retried.2 true false

end

end Catalog

end Phrasebook
