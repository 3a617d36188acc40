import CallTrace.Inference
import CallTrace.Registry

/-!
# Call tracer

The inference of calls, with a stream on which what it tells is recorded.
-/

namespace CallTrace

/-- What a call tracer has once it has started. -/
structure CallTracer.State where
  inference : Inference
  stream : Stream

/-- A tracer of calls. -/
structure CallTracer where
  source : SettingsSource
  /-- Takes the place of the outlet that the settings ask for. -/
  override : Option Outlet
  state : Option CallTracer.State

namespace CallTracer

/-- A call tracer that has not started. -/
def new (source : SettingsSource) (override : Option Outlet) : CallTracer :=
  ⟨source, override, none⟩

/-- Starts the tracer for a stack depth, unless it has started. -/
def start (tracer : CallTracer) (depth : UInt32) (world : World) : CallTracer × World :=
  match tracer.state with
  | some _ => (tracer, world)
  | none =>
    let settings := tracer.source.resolve world.environment
    match Registry.openOutlet tracer.override settings callFileStem world with
    | (outlet, world) =>
      ({ tracer with
          override := none
          state := some ⟨Inference.new depth, Stream.ofSettings settings outlet⟩ }, world)

/-- Whether the tracer has started. -/
def isStarted (tracer : CallTracer) : Bool :=
  tracer.state.isSome

/-- Whether stacks are collected. -/
def collects (tracer : CallTracer) : Bool :=
  tracer.state.any fun state => state.inference.collects

/-- How many pairs of caller and callee were told. -/
def knownEdges (tracer : CallTracer) : Nat :=
  (tracer.state.map fun state => state.inference.known.size).getD 0

/-- How many function objects have an id. -/
def trackedFunctions (tracer : CallTracer) : Nat :=
  (tracer.state.map fun state => state.inference.tracked.size).getD 0

/-- How many function objects were handed over. -/
def registeredCallbacks (tracer : CallTracer) : Nat :=
  (tracer.state.map fun state => state.inference.registrants.size).getD 0

/-- What was recorded so far. -/
def stats (tracer : CallTracer) : Stats :=
  (tracer.state.map fun state => state.stream.stats).getD Stats.zero

/-- Records calls. -/
def State.tell (inference : Inference) (stream : Stream) (calls : List Call) (world : World) :
    State × World :=
  match stream.recordAll world (calls.map Record.call) with
  | (stream, world) => (⟨inference, stream⟩, world)

/-- Traces an entry, with the live stack from the top. -/
def enter (tracer : CallTracer) (callee : Option FunctionId) (stack : List Frame) (world : World) :
    CallTracer × World :=
  match tracer with
  | ⟨source, override, some ⟨inference, stream⟩⟩ =>
    match inference.enter callee stack world.clock with
    | (inference, calls) =>
      match State.tell inference stream calls world with
      | (state, world) => (⟨source, override, some state⟩, world)
  | tracer => (tracer, world)

/-- Traces an exit. -/
def exit (tracer : CallTracer) (callee : Option FunctionId) (world : World) : CallTracer × World :=
  match tracer with
  | ⟨source, override, some ⟨inference, stream⟩⟩ =>
    match State.tell inference stream (inference.exit callee world.clock) world with
    | (state, world) => (⟨source, override, some state⟩, world)
  | tracer => (tracer, world)

/-- Forgets a function object, and tells whether anything was known of it. -/
def forget (tracer : CallTracer) (key : FunctionKey) : Bool × CallTracer :=
  match tracer with
  | ⟨source, override, some ⟨inference, stream⟩⟩ =>
    match inference.forget key with
    | (wasKnown, inference) => (wasKnown, ⟨source, override, some ⟨inference, stream⟩⟩)
  | tracer => (false, tracer)

/-- Delivers what waits. -/
def flush (tracer : CallTracer) (world : World) : CallTracer × World :=
  match tracer with
  | ⟨source, override, some ⟨inference, stream⟩⟩ =>
    match stream.flush world with
    | (stream, world) => (⟨source, override, some ⟨inference, stream⟩⟩, world)
  | tracer => (tracer, world)

/-- Ends the tracer, and gives its outlet back if it had one. -/
def finish (tracer : CallTracer) (world : World) : Option Outlet × World :=
  match tracer.state with
  | some state =>
    match state.stream.finish world with
    | (outlet, world) => (some outlet, world)
  | none => (tracer.override, world)

/-- The outlet, if there is one. -/
def outlet? (tracer : CallTracer) : Option Outlet :=
  match tracer.state with
  | some state => some state.stream.outlet
  | none => tracer.override

end CallTracer

end CallTrace
