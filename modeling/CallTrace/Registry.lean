import CallTrace.Catalogue
import CallTrace.Outlet

/-!
# Registry

A catalogue that announces each new function on a stream. It starts when the first function of a
named script comes up, and takes its settings at that moment.
-/

namespace CallTrace

/-- What a registry has once it has started. -/
structure Registry.State where
  depth : UInt32
  catalogue : Catalogue
  stream : Stream

/-- A registry of functions. -/
structure Registry where
  source : SettingsSource
  /-- Takes the place of the outlet that the settings ask for. -/
  override : Option Outlet
  state : Option Registry.State

namespace Registry

/-- A registry that has not started. -/
def new (source : SettingsSource) (override : Option Outlet) : Registry :=
  ⟨source, override, none⟩

/-- What a registry starts with. -/
def State.ofSettings (settings : Settings) (outlet : Outlet) : State where
  depth := settings.stackDepth
  catalogue := Catalogue.empty ⟨settings.traceAll⟩
  stream := Stream.ofSettings settings outlet

/-- The outlet to start with. -/
def openOutlet (override : Option Outlet) (settings : Settings) (stem : String) (world : World) :
    Outlet × World :=
  match override with
  | some outlet => (outlet, world)
  | none => Outlet.ofSettings settings stem world

/-- Starts the registry, unless it has started. -/
def start (registry : Registry) (world : World) : Registry × World :=
  match registry.state with
  | some _ => (registry, world)
  | none =>
    let settings := registry.source.resolve world.environment
    match openOutlet registry.override settings definitionFileStem world with
    | (outlet, world) =>
      ({ registry with override := none, state := some (State.ofSettings settings outlet) }, world)

/-- Whether the registry has started. -/
def isStarted (registry : Registry) : Bool :=
  registry.state.isSome

/-- The depth that the settings gave, once the registry has started. -/
def depth? (registry : Registry) : Option UInt32 :=
  registry.state.map State.depth

/-- Whether functions can be looked up. -/
def collects (registry : Registry) : Bool :=
  registry.depth?.any fun depth => 0 < depth

/-- How many functions have an id. -/
def size (registry : Registry) : Nat :=
  (registry.state.map fun state => state.catalogue.size).getD 0

/-- What was recorded so far. -/
def stats (registry : Registry) : Stats :=
  (registry.state.map fun state => state.stream.stats).getD Stats.zero

/-- The id of a traced function; a new one is announced on the stream. -/
def State.register (state : State) (script : Script) (literal : Literal) (isConstructor : Bool)
    (world : World) : Option FunctionId × State × World :=
  match state with
  | ⟨depth, catalogue, stream⟩ =>
    match catalogue.register script literal isConstructor world.clock with
    | (id, catalogue, none) => (id, ⟨depth, catalogue, stream⟩, world)
    | (id, catalogue, some definition) =>
      match stream.record (.definition definition) world with
      | (stream, world) => (id, ⟨depth, catalogue, stream⟩, world)

/-- The id of a traced function. A script without a name is not traced, and does not start the
registry. -/
def register (registry : Registry) (script : Script) (literal : Literal) (isConstructor : Bool)
    (world : World) : Option FunctionId × Registry × World :=
  if script.name.isNone then (none, registry, world)
  else
    match registry.start world with
    | (⟨source, override, some state⟩, world) =>
      match state.register script literal isConstructor world with
      | (id, state, world) => (id, ⟨source, override, some state⟩, world)
    | (registry, world) => (none, registry, world)

/-- The id of a function that has one, as long as the stack is of interest. -/
def lookup (registry : Registry) (script : Script) (literal : Literal) : Option FunctionId :=
  registry.state.bind fun state =>
    if 0 < state.depth then state.catalogue.lookup script literal else none

/-- Delivers what waits. -/
def flush (registry : Registry) (world : World) : Registry × World :=
  match registry with
  | ⟨source, override, some state⟩ =>
    match state.stream.flush world with
    | (stream, world) => (⟨source, override, some { state with stream := stream }⟩, world)
  | _ => (registry, world)

/-- Ends the registry, and gives its outlet back if it had one. -/
def finish (registry : Registry) (world : World) : Option Outlet × World :=
  match registry.state with
  | some state =>
    match state.stream.finish world with
    | (outlet, world) => (some outlet, world)
  | none => (registry.override, world)

/-- The outlet, if there is one. -/
def outlet? (registry : Registry) : Option Outlet :=
  match registry.state with
  | some state => some state.stream.outlet
  | none => registry.override

end Registry

end CallTrace
