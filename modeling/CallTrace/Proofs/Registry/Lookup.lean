import CallTrace.Proofs.Registry.Identity

/-!
# Looking up and registering agree

A lookup finds the id that registering would give without announcing anything
(`Catalogue.register_of_lookup`). A function that it does not find gets no id or the next one
(`Catalogue.register_of_lookup_eq_none`), and whatever happens later keeps that id under its name
(`Registry.Knows.after`). Which functions get which ids depends on the names that are registered
and on the scope, so the depth at which lookups are answered has no part in it
(`Registry.idsGiven_congr`). Together that is `Registry.lookup_agrees`.
-/

namespace CallTrace

namespace Catalogue

variable {catalogue : Catalogue} {script : Script} {literal : Literal} {id : FunctionId}

/-- Registering a function that has an id changes nothing. -/
theorem register_of_lookup (h : catalogue.lookup script literal = some id) (isConstructor : Bool)
    (clock : Int64) :
    catalogue.register script literal isConstructor clock = (some id, catalogue, none) := by
  obtain ⟨name, hname, hid⟩ := Option.bind_eq_some_iff.1 h
  simp only [register, hname, hid]

/-- A function without an id gets the next one, unless it is not traced or there is none left. -/
theorem register_of_lookup_eq_none (h : catalogue.lookup script literal = none)
    (isConstructor : Bool) (clock : Int64) :
    catalogue.register script literal isConstructor clock = (none, catalogue, none) ∨
      ∃ name id d, catalogue.nameOf? script literal = some name ∧ id.val = catalogue.next ∧
        catalogue.register script literal isConstructor clock =
          (some id, catalogue.insert name id, some d) := by
  rcases catalogue.register_cases script literal isConstructor clock with
    ⟨-, heq⟩ | ⟨name, id, hname, hold, -⟩ | ⟨-, -, -, -, heq⟩ | ⟨name, id, hname, -, hnext, heq⟩
  · exact .inl heq
  · rw [lookup, hname, Option.bind_some, hold] at h
    cases h
  · exact .inl heq
  · exact .inr ⟨name, id, _, hname, val_of_nextId? hnext, heq⟩

/-- Registering at most gives an id to a name that had none. -/
theorem catalogue_register (catalogue : Catalogue) (script : Script) (literal : Literal)
    (isConstructor : Bool) (clock : Int64) :
    (catalogue.register script literal isConstructor clock).2.1 = catalogue ∨
      ∃ name id, catalogue.id? name = none ∧
        (catalogue.register script literal isConstructor clock).2.1 = catalogue.insert name id := by
  rcases catalogue.register_cases script literal isConstructor clock with
    ⟨_, heq⟩ | ⟨_, _, _, _, heq⟩ | ⟨_, _, _, _, heq⟩ | ⟨name, id, _, hnew, _, heq⟩
  all_goals rw [heq]
  · exact .inl rfl
  · exact .inl rfl
  · exact .inl rfl
  · exact .inr ⟨name, id, hnew, rfl⟩

theorem scope_register (catalogue : Catalogue) (script : Script) (literal : Literal)
    (isConstructor : Bool) (clock : Int64) :
    (catalogue.register script literal isConstructor clock).2.1.scope = catalogue.scope := by
  rcases catalogue.catalogue_register script literal isConstructor clock with
    heq | ⟨name, id, -, heq⟩
  all_goals rw [heq]
  rfl

/-- A name keeps its id. -/
theorem id?_register {name : FunctionName} (h : catalogue.id? name = some id) (script : Script)
    (literal : Literal) (isConstructor : Bool) (clock : Int64) :
    (catalogue.register script literal isConstructor clock).2.1.id? name = some id := by
  rcases catalogue.catalogue_register script literal isConstructor clock with
    heq | ⟨new, newId, hnew, heq⟩
  · rw [heq, h]
  · have hne : new ≠ name := by
      rintro rfl
      rw [hnew] at h
      cases h
    rw [heq, id?_insert, if_neg hne, h]

/-- What a function is known by is told by the path of its script and the number of its literal. -/
theorem nameOf?_congr {catalogue' : Catalogue} (hscope : catalogue.scope = catalogue'.scope)
    {script' : Script} {literal' : Literal} (hname : script.name = script'.name)
    (hid : literal.id = literal'.id) :
    catalogue.nameOf? script literal = catalogue'.nameOf? script' literal' := by
  simp only [nameOf?, hscope, hname, hid]

end Catalogue

namespace Registry

variable {registry : Registry} {depth : UInt32} {catalogue : Catalogue} {stream : Stream}

/-! ## Registering at a given moment -/

/-- What a registry that has started makes of a function is what its catalogue makes of it. -/
theorem register_of_state (hstate : registry.state = some ⟨depth, catalogue, stream⟩)
    {script : Script} (hname : ¬script.name.isNone = true) (literal : Literal)
    (isConstructor : Bool) (world : World) :
    let registered := catalogue.register script literal isConstructor world.clock
    let recorded := stream.recordAll world (registered.2.2.toList.map .definition)
    registry.register script literal isConstructor world =
      (registered.1, ⟨registry.source, registry.override,
        some ⟨depth, registered.2.1, recorded.1⟩⟩, recorded.2) := by
  obtain ⟨source, override, state⟩ := registry
  obtain rfl : state = some ⟨depth, catalogue, stream⟩ := hstate
  exact register_eq_of_start (start_of_state rfl world) hname literal isConstructor

theorem lookup_of_state (hstate : registry.state = some ⟨depth, catalogue, stream⟩)
    (hdepth : 0 < depth) (script : Script) (literal : Literal) :
    registry.lookup script literal = catalogue.lookup script literal := by
  rw [lookup, hstate, Option.bind_some, if_pos hdepth]

theorem lookup_of_depth_zero (h : registry.depth? = some 0) (script : Script) (literal : Literal) :
    registry.lookup script literal = none := by
  obtain ⟨state, hstate, hdepth⟩ := Option.map_eq_some_iff.1 h
  rw [lookup, hstate, Option.bind_some, hdepth, if_neg (by decide)]

theorem lookup_unnamed {script : Script} (h : script.name.isNone = true) (catalogue : Catalogue)
    (literal : Literal) : catalogue.lookup script literal = none := by
  rw [Catalogue.lookup, Catalogue.nameOf?, Option.isNone_iff_eq_none.1 h]
  rfl

/-- **A function with an id** is registered without a trace. -/
theorem register_of_lookup (hstate : registry.state = some ⟨depth, catalogue, stream⟩)
    {script : Script} {literal : Literal} {id : FunctionId}
    (h : catalogue.lookup script literal = some id) (isConstructor : Bool) (world : World) :
    registry.register script literal isConstructor world = (some id, registry, world) := by
  by_cases hname : script.name.isNone = true
  · rw [lookup_unnamed hname] at h
    cases h
  · rw [register_of_state hstate hname, Catalogue.register_of_lookup h]
    obtain ⟨source, override, state⟩ := registry
    obtain rfl : state = some ⟨depth, catalogue, stream⟩ := hstate
    rfl

/-- **A function without an id** is registered without a trace, too, and is given none, or it is
given the next id under its name and one record is taken. -/
theorem register_of_lookup_eq_none (hstate : registry.state = some ⟨depth, catalogue, stream⟩)
    {script : Script} {literal : Literal} (h : catalogue.lookup script literal = none)
    (isConstructor : Bool) (world : World) :
    let registered := registry.register script literal isConstructor world
    registered = (none, registry, world) ∨
      ∃ name id stream', catalogue.nameOf? script literal = some name ∧
        registered.1 = some id ∧ id.val = catalogue.next ∧
        registered.2.1.state = some ⟨depth, catalogue.insert name id, stream'⟩ ∧
        registered.2.1.stats.records = registry.stats.records + 1 := by
  intro registered
  by_cases hname : script.name.isNone = true
  · exact .inl (register_of_isNone hname ..)
  · have hregistered : registered = _ :=
      register_of_state hstate hname literal isConstructor world
    rcases Catalogue.register_of_lookup_eq_none h isConstructor world.clock with
      heq | ⟨name, id, d, hnamed, hval, heq⟩
    · rw [heq] at hregistered
      obtain ⟨source, override, state⟩ := registry
      obtain rfl : state = some ⟨depth, catalogue, stream⟩ := hstate
      exact .inl hregistered
    · rw [heq] at hregistered
      refine .inr ⟨name, id, (stream.recordAll world [.definition d]).1, hnamed, ?_⟩
      rw [hregistered]
      refine ⟨rfl, hval, rfl, ?_⟩
      simp only [stats, hstate, Option.map_some, Option.getD_some]
      exact (Stream.Took.nil.recordAll [.definition d] world).records_stats

/-! ## From then on -/

/-- The registry has started with the depth, and in its scope it knows the name under the id. -/
def Knows (registry : Registry) (depth : UInt32) (scope : Scope) (name : FunctionName)
    (id : FunctionId) : Prop :=
  ∃ catalogue stream, registry.state = some ⟨depth, catalogue, stream⟩ ∧
    catalogue.scope = scope ∧ catalogue.id? name = some id

namespace Knows

variable {scope : Scope} {name : FunctionName} {id : FunctionId}

theorem perform (h : registry.Knows depth scope name id) (step : Step) :
    (registry.perform step).registry.Knows depth scope name id := by
  obtain ⟨catalogue, stream, hstate, hscope, hid⟩ := h
  obtain ⟨operation, world⟩ := step
  cases operation with
  | register script literal isConstructor =>
    by_cases hname : script.name.isNone = true
    · rw [perform_unnamed (Option.isNone_iff_eq_none.1 hname)]
      exact ⟨catalogue, stream, hstate, hscope, hid⟩
    · have hregister := register_of_state hstate hname literal isConstructor world
      exact ⟨_, _, congrArg (fun registered => registered.2.1.state) hregister,
        (catalogue.scope_register ..).trans hscope,
        Catalogue.id?_register hid script literal isConstructor world.clock⟩
  | lookup script literal => exact ⟨catalogue, stream, hstate, hscope, hid⟩
  | start =>
    refine ⟨catalogue, stream, ?_, hscope, hid⟩
    rw [Registry.perform, start_of_state hstate, hstate]
  | flush =>
    obtain ⟨source, override, state⟩ := registry
    obtain rfl : state = some ⟨depth, catalogue, stream⟩ := hstate
    exact ⟨catalogue, _, rfl, hscope, hid⟩

theorem after (h : registry.Knows depth scope name id) (steps : List Step) :
    (registry.after steps).Knows depth scope name id := by
  induction steps with
  | nil => exact h
  | cons step earlier ih => exact ih.perform step

/-- A name that is known is looked up, whatever else is told of the function. -/
theorem lookup_eq (h : registry.Knows depth scope name id) (hdepth : 0 < depth) {script : Script}
    {literal : Literal} (hname : (Catalogue.empty scope).nameOf? script literal = some name) :
    registry.lookup script literal = some id := by
  obtain ⟨catalogue, stream, hstate, hscope, hid⟩ := h
  rw [Catalogue.nameOf?_congr hscope.symm rfl rfl] at hname
  rw [lookup_of_state hstate hdepth, Catalogue.lookup, hname, Option.bind_some, hid]

end Knows

/-! ## The same ids at any depth -/

/-- The ids that the registrations of a run were given, the latest first. -/
def idsGiven (registry : Registry) : List Step → List (Option FunctionId)
  | [] => []
  | step :: earlier =>
    match step.operation with
    | .register .. =>
      ((registry.after earlier).perform step).id :: registry.idsGiven earlier
    | _ => registry.idsGiven earlier

section

variable {source source' : SettingsSource}

theorem settingsIn?_eq_none_iff {steps steps' : List Step}
    (hsteps : steps.map Step.operation = steps'.map Step.operation) :
    settingsIn? source steps = none ↔ settingsIn? source' steps' = none := by
  induction steps generalizing steps' with
  | nil => rw [List.map_eq_nil_iff.1 hsteps.symm, settingsIn?, settingsIn?]
  | cons step earlier ih =>
    cases steps' with
    | nil => cases hsteps
    | cons step' earlier' =>
      obtain ⟨hstep, hearlier⟩ := List.cons.inj hsteps
      rw [settingsIn?, settingsIn?, Option.or_eq_none_iff, Option.or_eq_none_iff, ih hearlier,
        hstep]
      simp

/-- Runs that come to the same choice of scripts had it before, too. -/
theorem traceAll_of_cons {step step' : Step} {earlier earlier' : List Step}
    (hearlier : earlier.map Step.operation = earlier'.map Step.operation)
    (h : (settingsIn? source (step :: earlier)).map Settings.traceAll =
      (settingsIn? source' (step' :: earlier')).map Settings.traceAll) :
    (settingsIn? source earlier).map Settings.traceAll =
      (settingsIn? source' earlier').map Settings.traceAll := by
  have hnone : settingsIn? source earlier = none ↔ settingsIn? source' earlier' = none :=
    settingsIn?_eq_none_iff hearlier
  cases hsettings : settingsIn? source earlier with
  | none => rw [hnone.1 hsettings]
  | some settings =>
    cases hsettings' : settingsIn? source' earlier' with
    | none =>
      rw [hnone.2 hsettings'] at hsettings
      cases hsettings
    | some settings' => simpa only [settingsIn?, hsettings, hsettings', Option.some_or] using h

theorem scopeIn_congr {steps steps' : List Step}
    (h : (settingsIn? source steps).map Settings.traceAll =
      (settingsIn? source' steps').map Settings.traceAll) :
    scopeIn source steps = scopeIn source' steps' := by
  have hany := congrArg (Option.any id) h
  rw [Option.any_map, Option.any_map] at hany
  exact congrArg Scope.mk hany

end

end Registry

namespace Registration

/-- Names come up first in the same order if the same names are registered. -/
theorem names_addFirst_congr {firsts firsts' : List Registration} {r? r?' : Option Registration}
    (h : firsts.map name = firsts'.map name) (hr : r?.map name = r?'.map name) :
    (addFirst firsts r?).map name = (addFirst firsts' r?').map name := by
  cases r? with
  | none =>
    rw [Option.map_eq_none_iff.1 hr.symm]
    exact h
  | some r =>
    obtain ⟨r', rfl, hname⟩ := Option.map_eq_some_iff.1 hr.symm
    by_cases hmem : r.name ∈ firsts.map name
    · rw [addFirst_some_of_mem hmem, addFirst_some_of_mem (hname ▸ h ▸ hmem), h]
    · rw [addFirst_some_of_not_mem hmem, addFirst_some_of_not_mem (hname ▸ h ▸ hmem),
        List.map_append, List.map_append, h, List.map_singleton, List.map_singleton, hname]

end Registration

namespace Registry

/-- The name of a registration is not a matter of time. -/
theorem Operation.name_registration? (operation : Operation) (scope : Scope)
    (clock clock' : Int64) :
    (operation.registration? scope clock).map Registration.name =
      (operation.registration? scope clock').map Registration.name := by
  cases operation with
  | register script literal isConstructor =>
    exact ((Catalogue.empty scope).nameOf?_eq script literal isConstructor clock).symm.trans
      ((Catalogue.empty scope).nameOf?_eq script literal isConstructor clock')
  | lookup script literal => rfl
  | start => rfl
  | flush => rfl

variable {source source' : SettingsSource} {steps steps' : List Step}

/-- Which names come up, and in which order, is told by the operations and the scope. -/
theorem names_firstsIn_congr (hsteps : steps.map Step.operation = steps'.map Step.operation)
    (hscope : (settingsIn? source steps).map Settings.traceAll =
      (settingsIn? source' steps').map Settings.traceAll) :
    (firstsIn source steps).map Registration.name =
      (firstsIn source' steps').map Registration.name := by
  induction steps generalizing steps' with
  | nil => rw [List.map_eq_nil_iff.1 hsteps.symm, firstsIn, firstsIn]
  | cons step earlier ih =>
    cases steps' with
    | nil => cases hsteps
    | cons step' earlier' =>
      obtain ⟨hstep, hearlier⟩ := List.cons.inj hsteps
      rw [firstsIn, firstsIn, scopeIn_congr hscope, hstep]
      exact Registration.names_addFirst_congr (ih hearlier (traceAll_of_cons hearlier hscope))
        (step'.operation.name_registration? ..)

section

variable (source : SettingsSource) (override : Option Outlet) (earlier : List Step)
  (script : Script) (literal : Literal) (isConstructor : Bool) (world : World)

/-- The id that a registration is given is told by its name and by the names that came up. -/
theorem register_eq_some_iff (id : FunctionId) :
    let step : Step := ⟨.register script literal isConstructor, world⟩
    (((new source override).after earlier).register script literal isConstructor world).1 =
        some id ↔
      ∃ n ∈ (step.operation.registration? (scopeIn source (step :: earlier)) world.clock).map
          Registration.name,
        ((firstsIn source (step :: earlier)).map Registration.name)[id.val]? = some n := by
  intro step
  refine (((Reached.after source override earlier).perform step).2 _ _ _ rfl id).trans ?_
  simp only [step, Option.mem_def, Option.map_eq_some_iff, exists_exists_and_eq_and]

/-- As many records are taken as functions came up, as long as there are ids. -/
theorem records_register :
    let step : Step := ⟨.register script literal isConstructor, world⟩
    (((new source override).after earlier).register script literal isConstructor
        world).2.1.stats.records =
      (Registration.definitions (firstsIn source (step :: earlier))).length := by
  intro step
  exact (Reached.after source override (step :: earlier)).size_eq.2

end

/-- **The ids that registrations are given** do not depend on anything but the names and the
scope. -/
theorem idsGiven_congr (override override' : Option Outlet)
    (hsteps : steps.map Step.operation = steps'.map Step.operation)
    (hscope : (settingsIn? source steps).map Settings.traceAll =
      (settingsIn? source' steps').map Settings.traceAll) :
    (new source override).idsGiven steps = (new source' override').idsGiven steps' := by
  induction steps generalizing steps' with
  | nil => rw [List.map_eq_nil_iff.1 hsteps.symm, idsGiven, idsGiven]
  | cons step earlier ih =>
    cases steps' with
    | nil => cases hsteps
    | cons step' earlier' =>
      have hnames := names_firstsIn_congr hsteps hscope
      obtain ⟨hstep, hearlier⟩ := List.cons.inj hsteps
      have hrest := ih hearlier (traceAll_of_cons hearlier hscope)
      obtain ⟨operation, world⟩ := step
      obtain ⟨_, world'⟩ := step'
      obtain rfl : operation = _ := hstep
      cases operation with
      | register script literal isConstructor =>
        refine congrArg₂ List.cons (Option.ext fun id => ?_) hrest
        refine (register_eq_some_iff source override earlier script literal isConstructor world
          id).trans (.trans ?_ (register_eq_some_iff source' override' earlier' script literal
          isConstructor world' id).symm)
        rw [hnames, scopeIn_congr hscope, Operation.name_registration? _ _ _ world'.clock]
      | lookup script literal => exact hrest
      | start => exact hrest
      | flush => exact hrest

theorem Reached.depth?_eq {override : Option Outlet} {registry : Registry}
    (h : Reached source override steps registry) :
    registry.depth? = (settingsIn? source steps).map Settings.stackDepth := by
  unfold Reached at h
  cases hsettings : settingsIn? source steps with
  | none =>
    rw [hsettings] at h
    rw [h.1]
    rfl
  | some settings =>
    rw [hsettings] at h
    obtain ⟨first, -, -, catalogue, stream, hstate, -⟩ := h
    rw [depth?, hstate]
    rfl

/-- The next id is the number of functions so far. -/
theorem Reached.next_eq_size {override : Option Outlet} {registry : Registry} {depth : UInt32}
    {catalogue : Catalogue} {stream : Stream} (h : Reached source override steps registry)
    (hstate : registry.state = some ⟨depth, catalogue, stream⟩) :
    catalogue.next = registry.size := by
  unfold Reached at h
  cases hsettings : settingsIn? source steps with
  | none =>
    rw [hsettings] at h
    rw [h.1] at hstate
    cases hstate
  | some settings =>
    rw [hsettings] at h
    obtain ⟨first, -, -, catalogue', stream', hstate', -, hlists, -⟩ := h
    obtain ⟨-, rfl, rfl⟩ := Registry.State.mk.inj (Option.some.inj (hstate.symm.trans hstate'))
    rw [size, hstate, Option.map_some, Option.getD_some, hlists.size_eq, hlists.next_eq]

/-- **Looking up and registering agree.** Wherever a run has come to at a depth above zero, a lookup
finds an id if and only if registering gives this id without taking a record, and registering then
leaves the registry and its surroundings as they are. If a lookup finds none, registering gives none
and leaves all as it is, or it gives the id that is the number of functions so far; lookups of that
path and literal find it from then on. At depth zero lookups find nothing, but runs of the same
operations in the same scope give the same ids at any depth. -/
theorem lookup_agrees (source : SettingsSource) (override : Option Outlet) (steps : List Step) :
    let registry := (new source override).after steps
    (∀ depth, registry.depth? = some depth → 0 < depth → ∀ script literal isConstructor world,
      let found := registry.lookup script literal
      let registered := registry.register script literal isConstructor world
      (∀ id, found = some id ↔
        registered.1 = some id ∧ registered.2.1.stats.records = registry.stats.records) ∧
      (found ≠ none → registered.2 = (registry, world)) ∧
      (found = none → registered = (none, registry, world) ∨
        ∃ id, registered.1 = some id ∧ id.val = registry.size ∧
          ∀ later script' literal', script'.name = script.name → literal'.id = literal.id →
            (registered.2.1.after later).lookup script' literal' = some id)) ∧
    (registry.depth? = some 0 → ∀ script literal, registry.lookup script literal = none) ∧
    ∀ source' override' steps', steps.map Step.operation = steps'.map Step.operation →
      (settingsIn? source steps).map Settings.traceAll =
        (settingsIn? source' steps').map Settings.traceAll →
      (new source override).idsGiven steps = (new source' override').idsGiven steps' := by
  intro registry
  refine ⟨fun _ hdepth hpos script literal isConstructor world => ?_,
    fun hzero => lookup_of_depth_zero hzero,
    fun source' override' steps' hsteps hscope => idsGiven_congr override override' hsteps hscope⟩
  intro found registered
  obtain ⟨⟨depth, catalogue, stream⟩, hstate, rfl⟩ := Option.map_eq_some_iff.1 hdepth
  have hfound : found = catalogue.lookup script literal := lookup_of_state hstate hpos ..
  cases hlookup : catalogue.lookup script literal with
  | some id =>
    have hregistered : registered = (some id, registry, world) :=
      register_of_lookup hstate hlookup isConstructor world
    rw [hfound, hlookup, hregistered]
    exact ⟨by simp, fun _ => rfl, fun h => by cases h⟩
  | none =>
    rw [hfound, hlookup]
    rcases register_of_lookup_eq_none hstate hlookup isConstructor world with
      heq | ⟨name, new, stream', hname, hnew, hval, hstate', hrecords⟩
    · have hregistered : registered = (none, registry, world) := heq
      rw [hregistered]
      exact ⟨by simp, fun h => absurd rfl h, fun _ => .inl rfl⟩
    · have hknows : registered.2.1.Knows depth catalogue.scope name new :=
        ⟨_, stream', hstate', rfl, (catalogue.id?_insert name name new).trans (if_pos rfl)⟩
      refine ⟨fun id => iff_of_false (fun h => by cases h) fun h => ?_, fun h => absurd rfl h,
        fun _ => .inr ⟨new, hnew, ?_, fun later script' literal' hpath hliteral => ?_⟩⟩
      · exact absurd (hrecords.symm.trans h.2) (Nat.succ_ne_self _)
      · exact hval.trans ((Reached.after source override steps).next_eq_size hstate)
      · exact (hknows.after later).lookup_eq hpos
          ((Catalogue.nameOf?_congr rfl hpath hliteral).trans hname)

/-- A function is not found before it gets the next id, and from then on another script of the same
path finds it; one that has an id is registered without a trace. A run at depth zero finds nothing
and gives the same ids. -/
theorem lookup_agrees_at_depth_zero :
    let settings : UInt32 → Settings := fun depth => ⟨depth, false, none, "", 20, by decide, 0⟩
    let world : World := ⟨⟨[], []⟩, [], fun _ => none, 5, ""⟩
    let literal : Literal := ⟨2, none, none, none, 9, "f"⟩
    let a : Script := .withoutSource "/a.js"
    let b : Script := .withoutSource "/b.js"
    let steps : List Step := [⟨.register a literal false, world⟩, ⟨.start, world⟩]
    let registry := (new (.fixed (settings 7)) none).after steps
    let registered := registry.register b literal true world
    let later : List Step := [⟨.flush, world⟩, ⟨.register a literal true, world⟩]
    registry.depth? = some 7 ∧ (0 : UInt32) < 7 ∧
      registry.register a literal true world = (some ⟨0, by decide⟩, registry, world) ∧
      registry.lookup b literal = none ∧ registered.1 = some ⟨1, by decide⟩ ∧
      (registered.2.1.after later).lookup (.named "/b.js" [1]) literal = some ⟨1, by decide⟩ ∧
      ((new (.fixed (settings 0)) none).after steps).lookup a literal = none ∧
      (new (.fixed (settings 7)) none).idsGiven steps =
        (new (.fixed (settings 0)) none).idsGiven steps := by
  intro settings world literal a b steps registry registered later
  obtain ⟨hpos, -, hids⟩ := lookup_agrees (.fixed (settings 7)) none steps
  obtain ⟨-, hzero, -⟩ := lookup_agrees (.fixed (settings 0)) none steps
  have hreached (depth : UInt32) := Reached.after (.fixed (settings depth)) none steps
  have hrecords := (hreached 7).size_eq.2.trans (show _ = 1 by decide +kernel)
  have hdepth := (hreached 7).depth?_eq.trans (show _ = some 7 from rfl)
  have hida := (register_eq_some_iff (.fixed (settings 7)) none steps a literal true world
    ⟨0, by decide⟩).2 ⟨("/a.js", 2), by decide +kernel, by decide +kernel⟩
  have hrecordsa := (records_register (.fixed (settings 7)) none steps a literal true world).trans
    (show _ = 1 by decide +kernel)
  have hidb := (register_eq_some_iff (.fixed (settings 7)) none steps b literal true world
    ⟨1, by decide⟩).2 ⟨("/b.js", 2), by decide +kernel, by decide +kernel⟩
  have hrecordsb := (records_register (.fixed (settings 7)) none steps b literal true world).trans
    (show _ = 2 by decide +kernel)
  have hregistry : registry = (new (.fixed (settings 7)) none).after steps := rfl
  have hregistered : registered = registry.register b literal true world := rfl
  -- from here on the registry is not computed
  clear_value registered registry
  rw [← hregistry] at hpos hrecords hdepth hida hrecordsa hidb hrecordsb
  have hknown :
      registry.register a literal true world = (some ⟨0, by decide⟩, registry, world) := by
    obtain ⟨hiff, hsame, -⟩ := hpos 7 hdepth (by decide) a literal true world
    have hfound := (hiff _).2 ⟨hida, hrecordsa.trans hrecords.symm⟩
    exact Prod.ext hida (hsame (hfound ▸ Option.some_ne_none _))
  obtain ⟨hiff, -, hnew⟩ := hpos 7 hdepth (by decide) b literal true world
  rw [← hregistered] at hiff hnew hidb hrecordsb
  have hnone : registry.lookup b literal = none := by
    refine Option.eq_none_iff_forall_ne_some.2 fun id hfound => ?_
    have hsame := ((hiff id).1 hfound).2
    rw [hrecords, hrecordsb] at hsame
    cases hsame
  refine ⟨hdepth, by decide, hknown, hnone, hidb, ?_, hzero (hreached 0).depth?_eq a literal,
    hids _ none steps rfl rfl⟩
  rcases hnew hnone with heq | ⟨id, hid, -, hlater⟩
  · rw [heq] at hidb
    cases hidb
  · rw [← hidb, hid]
    exact hlater later _ _ rfl rfl

end Registry

end CallTrace
