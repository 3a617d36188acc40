import CallTrace.Proofs.Registry
import CallTrace.Proofs.Registry.Registration

/-!
# Operations of a registry

A run of a registry performs operations of all kinds in any order, each in the world of its moment
(`Registry.perform`). Histories have the latest step first. They tell what a registry has come to:
its settings are those of the moment it started (`Registry.settingsIn?`), and its functions are the
first registrations of their names (`Registry.firstsIn`), which are listed and were handed to the
stream for as long as there were ids (`Registry.Follows`, `Registry.Reached.after`).
-/

namespace CallTrace.Registry

/-- An operation of a registry. -/
inductive Operation where
  | register (script : Script) (literal : Literal) (isConstructor : Bool)
  | lookup (script : Script) (literal : Literal)
  | start
  | flush

structure Step where
  operation : Operation
  world : World

/-! ## Runs -/

/-- What a step brings about: among it, the id that it gives. -/
structure Outcome where
  id : Option FunctionId
  registry : Registry
  world : World

def perform (registry : Registry) (step : Step) : Outcome :=
  match step.operation with
  | .register script literal isConstructor =>
    let registered := registry.register script literal isConstructor step.world
    ⟨registered.1, registered.2.1, registered.2.2⟩
  | .lookup script literal => ⟨registry.lookup script literal, registry, step.world⟩
  | .start =>
    let started := registry.start step.world
    ⟨none, started.1, started.2⟩
  | .flush =>
    let flushed := registry.flush step.world
    ⟨none, flushed.1, flushed.2⟩

def after (registry : Registry) : List Step → Registry
  | [] => registry
  | step :: earlier => ((registry.after earlier).perform step).registry

/-! ## Histories -/

/-- Whether an operation starts a registry that has not started. -/
def Operation.starts : Operation → Bool
  | register script _ _ => script.name.isSome
  | start => true
  | lookup .. | flush => false

/-- The registration of a traced function. -/
def Operation.registration? (scope : Scope) (clock : Int64) : Operation → Option Registration
  | register script literal isConstructor =>
    Registration.traced? scope script literal isConstructor clock
  | _ => none

variable (source : SettingsSource)

/-- The settings in force after a history: those of the moment of the first step that starts a
registry. -/
def settingsIn? : List Step → Option Settings
  | [] => none
  | step :: earlier =>
    (settingsIn? earlier).or <|
      if step.operation.starts then some (source.resolve step.world.environment) else none

/-- The scripts in scope after a history. -/
def scopeIn (steps : List Step) : Scope :=
  ⟨(settingsIn? source steps).any Settings.traceAll⟩

/-- The registrations of traced functions in a history that are the first of their names, in the
order in which they took place. -/
def firstsIn : List Step → List Registration
  | [] => []
  | step :: earlier =>
    Registration.addFirst (firstsIn earlier) <|
      step.operation.registration? (scopeIn source (step :: earlier)) step.world.clock

/-! ## What a registry has come to -/

open Registration

/-- The registry has started with the settings. It lists the first registrations, and announced
them on a stream that was the given one when it started. -/
def Follows (registry : Registry) (settings : Settings) (firsts : List Registration)
    (first : Stream) : Prop :=
  ∃ catalogue stream, registry.state = some ⟨settings.stackDepth, catalogue, stream⟩ ∧
    catalogue.scope = ⟨settings.traceAll⟩ ∧ catalogue.Lists (definitions firsts) ∧
    first.Took ((definitions firsts).map .definition) stream

theorem clock_openOutlet (override : Option Outlet) (settings : Settings) (stem : String)
    (world : World) : (openOutlet override settings stem world).2.clock = world.clock := by
  cases override with
  | some outlet => rfl
  | none =>
    unfold openOutlet Outlet.ofSettings Outlet.fileOfSettings
    dsimp only
    split
    · rfl
    · split <;> rfl

/-- A function of a script without a name leaves the registry as it is. -/
theorem perform_unnamed {script : Script} (h : script.name = none) (registry : Registry)
    (literal : Literal) (isConstructor : Bool) (world : World) :
    registry.perform ⟨.register script literal isConstructor, world⟩ = ⟨none, registry, world⟩ := by
  have hsame := register_of_isNone (by rw [h]; rfl) registry literal isConstructor world
  simp only [perform, hsame]

/-- A registry starts with no function, on a stream that has taken nothing. -/
theorem follows_start (source : SettingsSource) (override : Option Outlet) (world : World) :
    ∃ first : Stream, first.stats.records = 0 ∧
      (override = some (.capture #[]) → first.Recorded []) ∧
      ((new source override).start world).1.Follows (source.resolve world.environment) [] first ∧
      ((new source override).start world).2.clock = world.clock := by
  refine ⟨_, rfl, ?_, ⟨_, _, rfl, rfl, Catalogue.lists_empty _, .nil⟩, clock_openOutlet ..⟩
  rintro rfl
  exact Stream.recorded_capturing _ (source.resolve world.environment).capacity_pos

namespace Follows

variable {registry registry' : Registry} {settings : Settings} {firsts : List Registration}
  {first : Stream}

theorem start_eq (h : registry.Follows settings firsts first) (world : World) :
    registry.start world = (registry, world) := by
  obtain ⟨catalogue, stream, hstate, -⟩ := h
  exact start_of_state hstate world

/-- A function of a named script is registered by the registry as it has started. -/
theorem register_of_start {script : Script} {world world' : World}
    (hstart : registry.start world = (registry', world')) (hclock : world'.clock = world.clock)
    (h : registry'.Follows settings firsts first) (hname : script.name.isSome = true)
    (literal : Literal) (isConstructor : Bool) :
    let r? := traced? ⟨settings.traceAll⟩ script literal isConstructor world.clock
    (registry.register script literal isConstructor world).2.1.Follows settings
        (addFirst firsts r?) first ∧
      ∀ id, (registry.register script literal isConstructor world).1 = some id ↔
        ∃ r ∈ r?, ((addFirst firsts r?).map name)[id.val]? = some r.name := by
  obtain ⟨source, override, state⟩ := registry'
  obtain ⟨catalogue, stream, rfl, hscope, hlists, htook⟩ := h
  obtain ⟨hscope', hmore, hid⟩ :=
    hlists.register_firsts script literal isConstructor world.clock
  have hlists' := (hlists.register script literal isConstructor world.clock).1
  rw [hscope] at hscope' hmore hid
  rw [← hmore] at hlists'
  have hnamed : ¬script.name.isNone = true := by
    rw [Option.isNone_eq_false_iff.2 hname]
    exact Bool.false_ne_true
  rw [register_eq_of_start hstart hnamed, hclock]
  refine ⟨⟨_, _, rfl, hscope', hlists', ?_⟩, hid⟩
  rw [hmore, List.map_append]
  exact htook.recordAll _ _

/-- A step does to a started registry what the history says. -/
theorem perform (h : registry.Follows settings firsts first) (step : Step) :
    let r? := step.operation.registration? ⟨settings.traceAll⟩ step.world.clock
    (registry.perform step).registry.Follows settings (addFirst firsts r?) first ∧
      ∀ script literal isConstructor, step.operation = .register script literal isConstructor →
        ∀ id, (registry.perform step).id = some id ↔
          ∃ r ∈ r?, ((addFirst firsts r?).map name)[id.val]? = some r.name := by
  obtain ⟨operation, world⟩ := step
  cases operation with
  | register script literal isConstructor =>
    by_cases hname : script.name.isSome = true
    · have hregister := register_of_start (h.start_eq world) rfl h hname literal isConstructor
      refine ⟨hregister.1, ?_⟩
      rintro _ _ _ ⟨⟩
      exact hregister.2
    · have hnone : script.name = none := by simpa using hname
      rw [perform_unnamed hnone, Operation.registration?, traced?_unnamed hnone]
      refine ⟨h, ?_⟩
      rintro _ _ _ ⟨⟩
      simp
  | lookup script literal => exact ⟨h, by rintro _ _ _ ⟨⟩⟩
  | start =>
    simp only [Registry.perform, h.start_eq world]
    exact ⟨h, by rintro _ _ _ ⟨⟩⟩
  | flush =>
    refine ⟨?_, by rintro _ _ _ ⟨⟩⟩
    obtain ⟨source, override, state⟩ := registry
    obtain ⟨catalogue, stream, rfl, hscope, hlists, htook⟩ := h
    exact ⟨catalogue, _, rfl, hscope, hlists, htook.flush world⟩

end Follows

/-- A registry has come to what its history tells: before a step starts it, it is as it was made. -/
def Reached (source : SettingsSource) (override : Option Outlet) (steps : List Step)
    (registry : Registry) : Prop :=
  match settingsIn? source steps with
  | none => registry = new source override ∧ firstsIn source steps = []
  | some settings =>
    ∃ first : Stream, first.stats.records = 0 ∧
      (override = some (.capture #[]) → first.Recorded []) ∧
      registry.Follows settings (firstsIn source steps) first

namespace Reached

variable {source : SettingsSource} {override : Option Outlet} {earlier : List Step}
  {registry : Registry}

theorem perform (h : Reached source override earlier registry) (step : Step) :
    Reached source override (step :: earlier) (registry.perform step).registry ∧
      ∀ script literal isConstructor, step.operation = .register script literal isConstructor →
        ∀ id, (registry.perform step).id = some id ↔
          ∃ r ∈ step.operation.registration? (scopeIn source (step :: earlier)) step.world.clock,
            ((firstsIn source (step :: earlier)).map name)[id.val]? = some r.name := by
  obtain ⟨operation, world⟩ := step
  unfold Reached at h ⊢
  cases hsettings : settingsIn? source earlier with
  | some settings =>
    rw [hsettings] at h
    obtain ⟨first, hzero, hcapturing, hfollows⟩ := h
    obtain ⟨hfollows', hid⟩ := hfollows.perform ⟨operation, world⟩
    simp only [firstsIn, scopeIn, settingsIn?, hsettings, Option.some_or, Option.any_some]
    exact ⟨⟨first, hzero, hcapturing, hfollows'⟩, hid⟩
  | none =>
    rw [hsettings] at h
    obtain ⟨rfl, hnone⟩ := h
    obtain ⟨first, hzero, hcapturing, hstart, hclock⟩ := follows_start source override world
    simp only [firstsIn, scopeIn, settingsIn?, hsettings, hnone, Option.none_or]
    cases operation with
    | register script literal isConstructor =>
      by_cases hname : script.name.isSome = true
      · have heq : (new source override).start world =
            (((new source override).start world).1, ((new source override).start world).2) := rfl
        have hregister := Follows.register_of_start heq hclock hstart hname literal isConstructor
        simp only [Operation.starts, hname, if_true, Option.any_some]
        refine ⟨⟨first, hzero, hcapturing, hregister.1⟩, ?_⟩
        rintro _ _ _ ⟨⟩
        exact hregister.2
      · have hnone : script.name = none := by simpa using hname
        rw [perform_unnamed hnone, Operation.registration?, traced?_unnamed hnone]
        simp only [Operation.starts, hname, addFirst]
        refine ⟨⟨trivial, trivial⟩, ?_⟩
        rintro _ _ _ ⟨⟩
        simp
    | lookup script literal => exact ⟨⟨rfl, rfl⟩, by rintro _ _ _ ⟨⟩⟩
    | start => exact ⟨⟨first, hzero, hcapturing, hstart⟩, by rintro _ _ _ ⟨⟩⟩
    | flush => exact ⟨⟨rfl, rfl⟩, by rintro _ _ _ ⟨⟩⟩

theorem after (source : SettingsSource) (override : Option Outlet) (steps : List Step) :
    Reached source override steps ((new source override).after steps) := by
  induction steps with
  | nil => exact ⟨rfl, rfl⟩
  | cons step earlier ih => exact (ih.perform step).1

/-- The functions with an id, and the records, are as many as first registrations, as long as there
are ids. -/
theorem size_eq (h : Reached source override earlier registry) :
    registry.size = (definitions (firstsIn source earlier)).length ∧
      registry.stats.records = (definitions (firstsIn source earlier)).length := by
  unfold Reached at h
  cases hsettings : settingsIn? source earlier with
  | none =>
    rw [hsettings] at h
    obtain ⟨rfl, hnone⟩ := h
    rw [hnone]
    exact ⟨rfl, rfl⟩
  | some settings =>
    rw [hsettings] at h
    obtain ⟨first, hzero, -, catalogue, stream, hstate, -, hlists, htook⟩ := h
    refine ⟨?_, ?_⟩
    · rw [Registry.size, hstate, Option.map_some, Option.getD_some, hlists.size_eq]
    · rw [Registry.stats, hstate, Option.map_some, Option.getD_some, htook.records_stats, hzero,
        Nat.zero_add, List.length_map]

end Reached

end CallTrace.Registry
