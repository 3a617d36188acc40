import CallTrace.Proofs.Catalogue
import CallTrace.Proofs.Stream.Batches
import CallTrace.Registry

/-!
# A registry announces what it lists

`Registry.Announced registry depth definitions`: the registry has started on a capturing outlet
with the given depth, its catalogue lists the definitions, and its stream took them. Registering
keeps it so (`Announced.register`), the ids it gives are those of announced functions, and at its
end all definitions are delivered (`Announced.finish`).
-/

namespace CallTrace.Registry

/-- The registry has started and announced the functions of its catalogue. -/
def Announced (registry : Registry) (depth : UInt32) (definitions : List Definition) : Prop :=
  ∃ catalogue stream, registry.state = some ⟨depth, catalogue, stream⟩ ∧
    catalogue.Lists definitions ∧ stream.Recorded (definitions.map .definition)

theorem announced_start (settings : Settings) (world : World) :
    ((new (.fixed settings) (some (.capture #[]))).start world).2 = world ∧
      ((new (.fixed settings) (some (.capture #[]))).start world).1.Announced settings.stackDepth
        [] :=
  ⟨rfl, _, _, rfl, Catalogue.lists_empty _, Stream.recorded_capturing _ settings.capacity_pos⟩

theorem register_of_isNone {script : Script} (h : script.name.isNone = true) (registry : Registry)
    (literal : Literal) (isConstructor : Bool) (world : World) :
    registry.register script literal isConstructor world = (none, registry, world) :=
  if_pos h

/-- What is announced goes to the stream. -/
theorem State.register_eq (state : State) (script : Script) (literal : Literal)
    (isConstructor : Bool) (world : World) :
    let registered := state.catalogue.register script literal isConstructor world.clock
    let recorded := state.stream.recordAll world (registered.2.2.toList.map .definition)
    state.register script literal isConstructor world =
      (registered.1, ⟨state.depth, registered.2.1, recorded.1⟩, recorded.2) := by
  obtain ⟨depth, catalogue, stream⟩ := state
  simp only [State.register]
  obtain ⟨id, catalogue', announced⟩ :=
    catalogue.register script literal isConstructor world.clock
  cases announced with
  | none => rfl
  | some d =>
    simp only [Option.toList_some, List.map_cons, List.map_nil, Stream.recordAll]

theorem start_of_state {registry : Registry} {state : State} (h : registry.state = some state)
    (world : World) : registry.start world = (registry, world) := by
  simp only [start, h]

/-- A function of a named script is registered by the registry as it has started. -/
theorem register_eq_of_start {registry : Registry} {source : SettingsSource}
    {override : Option Outlet} {state : State} {script : Script} {world world' : World}
    (hstart : registry.start world = (⟨source, override, some state⟩, world'))
    (hname : ¬script.name.isNone = true) (literal : Literal) (isConstructor : Bool) :
    let registered := state.catalogue.register script literal isConstructor world'.clock
    let recorded := state.stream.recordAll world' (registered.2.2.toList.map .definition)
    registry.register script literal isConstructor world =
      (registered.1, ⟨source, override, some ⟨state.depth, registered.2.1, recorded.1⟩⟩,
        recorded.2) := by
  unfold register
  rw [if_neg hname, hstart]
  simp only [State.register_eq]

namespace Announced

variable {registry registry' : Registry} {depth : UInt32} {definitions : List Definition}

theorem start (h : registry.Announced depth definitions) (world : World) :
    registry.start world = (registry, world) := by
  obtain ⟨catalogue, stream, hstate, -⟩ := h
  exact start_of_state hstate world

theorem depth?_eq (h : registry.Announced depth definitions) : registry.depth? = some depth := by
  obtain ⟨catalogue, stream, hstate, -⟩ := h
  simp only [Registry.depth?, hstate, Option.map_some]

/-- A function of a named script is announced once the registry has started. -/
theorem register_of_start {script : Script} {world : World}
    (hstart : registry.start world = (registry', world))
    (h : registry'.Announced depth definitions) (hname : ¬script.name.isNone = true)
    (literal : Literal) (isConstructor : Bool) :
    (registry.register script literal isConstructor world).2.2 = world ∧
      ∃ more, (registry.register script literal isConstructor world).2.1.Announced depth
          (definitions ++ more) ∧
        ∀ id ∈ (registry.register script literal isConstructor world).1,
          id.val < (definitions ++ more).length := by
  obtain ⟨source, override, state⟩ := registry'
  obtain ⟨catalogue, stream, rfl, hlists, hstream⟩ := h
  obtain ⟨hlists', hid⟩ := hlists.register script literal isConstructor world.clock
  obtain ⟨hworld, hrecorded⟩ := hstream.recordAll
    ((catalogue.register script literal isConstructor world.clock).2.2.toList.map .definition) world
  rw [← List.map_append] at hrecorded
  rw [register_eq_of_start hstart hname]
  exact ⟨hworld, _, ⟨_, _, rfl, hlists', hrecorded⟩, hid⟩

theorem register (h : registry.Announced depth definitions) (script : Script) (literal : Literal)
    (isConstructor : Bool) (world : World) :
    (registry.register script literal isConstructor world).2.2 = world ∧
      ∃ more, (registry.register script literal isConstructor world).2.1.Announced depth
          (definitions ++ more) ∧
        ∀ id ∈ (registry.register script literal isConstructor world).1,
          id.val < (definitions ++ more).length := by
  by_cases hname : script.name.isNone = true
  · rw [register_of_isNone hname]
    exact ⟨rfl, [], by simpa using h, fun id hid => by cases hid⟩
  · exact register_of_start (h.start world) h hname literal isConstructor

theorem lookup (h : registry.Announced depth definitions) (script : Script) (literal : Literal) :
    ∀ id ∈ registry.lookup script literal, id.val < definitions.length := by
  obtain ⟨catalogue, stream, hstate, hlists, -⟩ := h
  intro id hid
  simp only [Registry.lookup, hstate, Option.bind_some] at hid
  split at hid
  · exact hlists.lookup script literal id hid
  · cases hid

theorem flush (h : registry.Announced depth definitions) (world : World) :
    (registry.flush world).2 = world ∧ (registry.flush world).1.Announced depth definitions := by
  obtain ⟨source, override, state⟩ := registry
  obtain ⟨catalogue, stream, rfl, hlists, hstream⟩ := h
  obtain ⟨hworld, hflushed, -⟩ := hstream.flush world
  exact ⟨hworld, catalogue, _, rfl, hlists, hflushed⟩

theorem stats_eq (h : registry.Announced depth definitions) :
    registry.stats.records = definitions.length := by
  obtain ⟨catalogue, stream, hstate, -, hstream⟩ := h
  simp only [Registry.stats, hstate, Option.map_some, Option.getD_some, hstream.1,
    List.length_map]

theorem size_eq (h : registry.Announced depth definitions) :
    registry.size = definitions.length := by
  obtain ⟨catalogue, stream, hstate, hlists, -⟩ := h
  simp only [Registry.size, hstate, Option.map_some, Option.getD_some, hlists.size_eq]

/-- At its end the registry has delivered all definitions. -/
theorem finish (h : registry.Announced depth definitions) (world : World) :
    ∃ batches, registry.finish world = (some (.capture batches), world) ∧
      Trace.read batches.toList.flatten =
        .ok ((definitions.map Definition.readBack).map .definition) := by
  obtain ⟨catalogue, stream, hstate, hlists, hstream⟩ := h
  obtain ⟨batches, hfinish, hbatched⟩ := hstream.finish world
  refine ⟨batches, ?_, ?_⟩
  · simp only [Registry.finish, hstate, hfinish]
  · rw [hbatched.read_flatten, hlists.filterMap_readBack?_definitions]

end Announced

end CallTrace.Registry
