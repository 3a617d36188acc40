import CallTrace.CallTracer

/-!
# Tracer

What an engine holds: a registry of functions and a tracer of calls. The call tracer starts when
the registry has, with the depth that the registry was given.
-/

namespace CallTrace

/-- A registry and a call tracer. -/
structure Tracer where
  registry : Registry
  calls : CallTracer

namespace Tracer

/-- A tracer that takes settings and outlets from one source. -/
def new (source : SettingsSource) : Tracer :=
  ⟨Registry.new source none, CallTracer.new source none⟩

/-- A tracer with given settings and given outlets for definitions and calls. -/
def withOutlets (settings : Settings) (definitions calls : Outlet) : Tracer :=
  ⟨Registry.new (.fixed settings) (some definitions), CallTracer.new (.fixed settings) (some calls)⟩

/-- Starts the call tracer once the registry has started. -/
def followRegistry (tracer : Tracer) (world : World) : Tracer × World :=
  match tracer.registry.depth? with
  | some depth =>
    match tracer.calls.start depth world with
    | (calls, world) => ({ tracer with calls := calls }, world)
  | none => (tracer, world)

/-- Registers a function that the engine is about to make, and gives its id. -/
def create (tracer : Tracer) (script : Script) (literal : Literal) (isConstructor : Bool)
    (world : World) : Option FunctionId × Tracer × World :=
  match tracer with
  | ⟨registry, calls⟩ =>
    match registry.register script literal isConstructor world with
    | (id, registry, world) =>
      match followRegistry ⟨registry, calls⟩ world with
      | (tracer, world) => (id, tracer, world)

/-- The id of a function that has one. -/
def lookup (tracer : Tracer) (script : Script) (literal : Literal) : Option FunctionId :=
  tracer.registry.lookup script literal

/-- Traces an entry, with the live stack from the top. -/
def enter (tracer : Tracer) (callee : Option FunctionId) (stack : List Frame) (world : World) :
    Tracer × World :=
  match tracer with
  | ⟨registry, calls⟩ =>
    match calls.enter callee stack world with
    | (calls, world) => (⟨registry, calls⟩, world)

/-- Traces an exit. -/
def exit (tracer : Tracer) (callee : Option FunctionId) (world : World) : Tracer × World :=
  match tracer with
  | ⟨registry, calls⟩ =>
    match calls.exit callee world with
    | (calls, world) => (⟨registry, calls⟩, world)

/-- Forgets a function object, and tells whether anything was known of it. -/
def forget (tracer : Tracer) (key : FunctionKey) : Bool × Tracer :=
  match tracer with
  | ⟨registry, calls⟩ =>
    match calls.forget key with
    | (wasKnown, calls) => (wasKnown, ⟨registry, calls⟩)

/-- Delivers what waits on both streams, definitions first. -/
def flush (tracer : Tracer) (world : World) : Tracer × World :=
  match tracer with
  | ⟨registry, calls⟩ =>
    match registry.flush world with
    | (registry, world) =>
      match calls.flush world with
      | (calls, world) => (⟨registry, calls⟩, world)

/-- Ends both streams, definitions first, and gives their outlets back. -/
def shutdown (tracer : Tracer) (world : World) : (Option Outlet × Option Outlet) × World :=
  match tracer.registry.finish world with
  | (definitions, world) =>
    match tracer.calls.finish world with
    | (calls, world) => ((definitions, calls), world)

end Tracer

end CallTrace
