import CallTrace.Proofs.Inference
import CallTrace.Proofs.Registry.Operation
import CallTrace.Proofs.Stream.Verdicts
import CallTrace.Proofs.Tracer.Run

/-!
# Operations of a tracer of the environment

A tracer that takes its settings from the environment has not started, or both of its parts have
(`Tracer.started`). Then an operation is one of its catalogue, one of its inference, and steps on
its two streams, that of definitions first (`Tracer.perform_started`). The creation of a function of
a named script starts both parts with the settings of the moment
(`Tracer.perform_new_of_starts`), and nothing else does (`Tracer.perform_new_of_not_starts`).
-/

namespace CallTrace

/-- What an operation does to a catalogue: the id that it gives, the catalogue afterwards, and the
steps on the stream of definitions. -/
def Catalogue.respond (catalogue : Catalogue) (depth : UInt32) (clock : Int64) :
    Tracer.Operation → Option FunctionId × Catalogue × List (StreamStep Record)
  | .create script literal isConstructor =>
    match catalogue.register script literal isConstructor clock with
    | (id, catalogue, definition?) =>
      (id, catalogue, (definition?.toList.map .definition).map .record)
  | .lookup script literal =>
    (if 0 < depth then catalogue.lookup script literal else none, catalogue, [])
  | .flush => (none, catalogue, [.flush])
  | .enter .. | .exit _ | .forget _ => (none, catalogue, [])

/-- What an operation does to an inference: the inference afterwards, and the steps on the stream of
calls. -/
def Inference.respond (inference : Inference) (clock : Int64) :
    Tracer.Operation → Inference × List (StreamStep Record)
  | .enter callee stack =>
    match inference.enter callee stack clock with
    | (inference, calls) => (inference, (calls.map .call).map .record)
  | .exit callee => (inference, ((inference.exit callee clock).map .call).map .record)
  | .forget key => ((inference.forget key).2, [])
  | .flush => (inference, [.flush])
  | .create .. | .lookup .. => (inference, [])

theorem Catalogue.register_scope (catalogue : Catalogue) (script : Script) (literal : Literal)
    (isConstructor : Bool) (clock : Int64) :
    (catalogue.register script literal isConstructor clock).2.1.scope = catalogue.scope := by
  rcases catalogue.register_cases script literal isConstructor clock with
    ⟨-, h⟩ | ⟨_, _, -, -, h⟩ | ⟨_, -, -, -, h⟩ | ⟨_, _, -, -, -, h⟩
  · rw [h]
  · rw [h]
  · rw [h]
  · rw [h]
    rfl

theorem Catalogue.respond_scope (catalogue : Catalogue) (depth : UInt32) (clock : Int64)
    (operation : Tracer.Operation) :
    (catalogue.respond depth clock operation).2.1.scope = catalogue.scope := by
  cases operation with
  | create script literal isConstructor =>
    exact catalogue.register_scope script literal isConstructor clock
  | _ => rfl

theorem Inference.respond_collects (inference : Inference) (clock : Int64)
    (operation : Tracer.Operation) :
    (inference.respond clock operation).1.collects = inference.collects := by
  cases operation with
  | enter callee stack => exact inference.enter_collects callee stack clock
  | _ => rfl

theorem Catalogue.register_of_isNone {script : Script} (h : script.name.isNone = true)
    (catalogue : Catalogue) (literal : Literal) (isConstructor : Bool) (clock : Int64) :
    catalogue.register script literal isConstructor clock = (none, catalogue, none) := by
  have hname : catalogue.nameOf? script literal = none := by
    unfold nameOf?
    rw [Option.isNone_iff_eq_none.1 h]
    rfl
  unfold register
  rw [hname]

namespace Outlet

theorem ofSettings_ne_capture (settings : Settings) (stem : String) (world : World)
    (batches : Array Bytes) : (ofSettings settings stem world).1 ≠ capture batches := by
  unfold ofSettings fileOfSettings createFile
  split
  · exact fun h => by cases h
  · split
    · rename_i outlet disk heq
      split at heq
      · cases heq
        exact fun h => by cases h
      · cases heq
    · exact fun h => by cases h

theorem environment_ofSettings (settings : Settings) (stem : String) (world : World) :
    (ofSettings settings stem world).2.environment = world.environment := by
  unfold ofSettings fileOfSettings
  split
  · rfl
  · split <;> rfl

end Outlet

namespace Tracer

/-- Whether an operation starts a tracer that has not started. -/
def Operation.starts : Operation → Bool
  | create script _ _ => script.name.isSome
  | _ => false

/-- A tracer of the environment that has started. -/
def started (registry : Registry.State) (calls : CallTracer.State) : Tracer :=
  ⟨⟨.environment, none, some registry⟩, ⟨.environment, none, some calls⟩⟩

/-- The world that the registry leaves to the call tracer. -/
def worldForCalls (tracer : Tracer) (world : World) : Operation → World
  | .create script literal isConstructor =>
    (tracer.registry.register script literal isConstructor world).2.2
  | .flush => (tracer.registry.flush world).2
  | _ => world

theorem register_of_start {registry : Registry} {depth : UInt32} {catalogue : Catalogue}
    {definitions : Stream} {script : Script} {world world' : World} {clock : Int64}
    (hstart : registry.start world =
      (⟨.environment, none, some ⟨depth, catalogue, definitions⟩⟩, world'))
    (hclock : world'.clock = clock) (hname : ¬script.name.isNone = true) (literal : Literal)
    (isConstructor : Bool) :
    let responded := catalogue.respond depth clock (.create script literal isConstructor)
    let recorded := definitions.run id world' responded.2.2
    registry.register script literal isConstructor world =
      (responded.1, ⟨.environment, none, some ⟨depth, responded.2.1, recorded.1⟩⟩, recorded.2) := by
  rw [Registry.register_eq_of_start hstart hname, Stream.recordAll_eq_run, hclock]
  rfl

section
variable (depth : UInt32) (catalogue : Catalogue) (definitions : Stream) (inference : Inference)
  (calls : Stream) {world : World} {clock : Int64} (hclock : world.clock = clock)
  (operation : Operation)
include hclock

theorem register_started (script : Script) (literal : Literal) (isConstructor : Bool) :
    let responded := catalogue.respond depth clock (.create script literal isConstructor)
    let recorded := definitions.run id world responded.2.2
    (Registry.mk .environment none (some ⟨depth, catalogue, definitions⟩)).register script literal
        isConstructor world =
      (responded.1, ⟨.environment, none, some ⟨depth, responded.2.1, recorded.1⟩⟩, recorded.2) := by
  by_cases hname : script.name.isNone = true
  · rw [Registry.register_of_isNone hname]
    simp only [Catalogue.respond, Catalogue.register_of_isNone hname]
    rfl
  · exact register_of_start (Registry.start_of_state rfl world) hclock hname literal isConstructor

theorem worldForCalls_started :
    worldForCalls (started ⟨depth, catalogue, definitions⟩ ⟨inference, calls⟩) world operation =
      (definitions.run id world (catalogue.respond depth clock operation).2.2).2 := by
  cases operation with
  | create script literal isConstructor =>
    exact congrArg (·.2.2) (register_started depth catalogue definitions hclock _ _ _)
  | _ => rfl

/-- **What an operation does to a tracer that has started.** -/
theorem perform_started :
    let responded := catalogue.respond depth clock operation
    let inferred := inference.respond clock operation
    let definitions' := definitions.run id world responded.2.2
    let calls' := calls.run id definitions'.2 inferred.2
    (started ⟨depth, catalogue, definitions⟩ ⟨inference, calls⟩).perform world operation =
      (responded.1, started ⟨depth, responded.2.1, definitions'.1⟩ ⟨inferred.1, calls'.1⟩,
        calls'.2) := by
  cases operation with
  | create script literal isConstructor =>
    simp only [perform, create, started, register_started depth catalogue definitions hclock]
    rfl
  | enter callee stack =>
    simp only [perform, enter, started, CallTracer.enter, CallTracer.State.tell,
      Stream.recordAll_eq_run, hclock]
    rfl
  | exit callee =>
    simp only [perform, exit, started, CallTracer.exit, CallTracer.State.tell,
      Stream.recordAll_eq_run, hclock]
    rfl
  | lookup script literal => rfl
  | forget key => rfl
  | flush => rfl

end

/-! ## Starting -/

theorem perform_new_of_not_starts {operation : Operation} (h : operation.starts = false)
    (world : World) :
    (new .environment).perform world operation = (none, new .environment, world) := by
  cases operation with
  | create script literal isConstructor =>
    have hname : script.name.isNone = true := by simpa [Operation.starts] using h
    simp only [perform, create, new, Registry.register_of_isNone hname]
    rfl
  | _ => rfl

theorem start_new {world : World} {settings : Settings}
    (hsettings : Settings.ofEnvironment world.environment = settings) (depth : UInt32) :
    let opened := Outlet.ofSettings settings callFileStem world
    (CallTracer.new .environment none).start depth world =
      (⟨.environment, none, some ⟨.new depth, Stream.ofSettings settings opened.1⟩⟩, opened.2) := by
  subst hsettings
  rfl

/-- **What starts a tracer:** both parts take the settings of the moment, the call tracer after the
function was registered. -/
theorem perform_new_of_starts {operation : Operation} (h : operation.starts = true) {world : World}
    {settings : Settings} (hsettings : Settings.ofEnvironment world.environment = settings)
    {clock : Int64} (hclock : world.clock = clock) :
    let opened := Outlet.ofSettings settings definitionFileStem world
    let responded :=
      (Catalogue.empty ⟨settings.traceAll⟩).respond settings.stackDepth clock operation
    let definitions := (Stream.ofSettings settings opened.1).run id opened.2 responded.2.2
    let opened' := Outlet.ofSettings settings callFileStem definitions.2
    worldForCalls (new .environment) world operation = definitions.2 ∧
      (new .environment).perform world operation =
        (responded.1, started ⟨settings.stackDepth, responded.2.1, definitions.1⟩
          ⟨.new settings.stackDepth, Stream.ofSettings settings opened'.1⟩, opened'.2) := by
  cases operation with
  | create script literal isConstructor =>
    intro opened responded definitions opened'
    have hname : ¬script.name.isNone = true := by
      rw [Option.isNone_eq_false_iff.2 h]
      exact Bool.false_ne_true
    have hopened : opened.2.clock = clock :=
      (Registry.clock_openOutlet none _ definitionFileStem world).trans hclock
    have hregister : (Registry.new .environment none).register script literal isConstructor world =
        (responded.1, ⟨.environment, none, some ⟨settings.stackDepth, responded.2.1,
          definitions.1⟩⟩, definitions.2) := by
      subst hsettings
      exact register_of_start rfl hopened hname literal isConstructor
    have henvironment : Settings.ofEnvironment definitions.2.environment = settings := by
      have hsame : definitions.2.environment = world.environment :=
        (Stream.run_keeps _ _ _).2.2.trans (Outlet.environment_ofSettings ..)
      rw [hsame, hsettings]
    constructor
    · exact congrArg (·.2.2) hregister
    · simp only [perform, create, new, hregister, followRegistry, Registry.depth?, Option.map_some,
        start_new henvironment]
      rfl
  | _ => cases h

end Tracer

end CallTrace
