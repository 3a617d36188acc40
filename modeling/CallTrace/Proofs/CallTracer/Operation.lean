import CallTrace.Proofs.CallTracer.Recorded

/-!
# Operations of a call tracer

A run of a call tracer performs operations of all kinds in any order, each in the world of its
moment (`CallTracer.perform`). Histories have the latest step first, as stacks have the innermost
frame first. A run does to a started tracer what it does to its inference, and its stream takes the
calls that the inference tells, whatever the outlet (`CallTracer.after_eq`).
-/

namespace CallTrace

/-- An operation of a call tracer. -/
inductive CallTracer.Operation where
  | start (depth : UInt32)
  | enter (callee : Option FunctionId) (stack : List Frame)
  | exit (callee : Option FunctionId)
  | forget (key : FunctionKey)
  | flush

structure CallTracer.Step where
  operation : CallTracer.Operation
  world : World

namespace Inference

/-- The inference after an operation, and the calls that it tells. -/
def perform (inference : Inference) (clock : Int64) : CallTracer.Operation → Inference × List Call
  | .enter callee stack => inference.enter callee stack clock
  | .exit callee => (inference, inference.exit callee clock)
  | .forget key => ((inference.forget key).2, [])
  | .start _ | .flush => (inference, [])

def after (inference : Inference) : List CallTracer.Step → Inference
  | [] => inference
  | step :: earlier => ((inference.after earlier).perform step.world.clock step.operation).1

def told (inference : Inference) : List CallTracer.Step → List Call
  | [] => []
  | step :: earlier =>
    inference.told earlier ++
      ((inference.after earlier).perform step.world.clock step.operation).2

end Inference

namespace CallTracer

/-! ## Runs -/

/-- What a step brings about: among it, the calls handed to the stream. -/
structure Outcome where
  tracer : CallTracer
  world : World
  calls : List Call
  /-- Whether anything was known of what is forgotten. -/
  wasKnown : Option Bool

/-- The calls that a step hands to the stream. -/
def handed (tracer : CallTracer) (step : Step) : List Call :=
  (tracer.state.map fun state =>
    (state.inference.perform step.world.clock step.operation).2).getD []

def perform (tracer : CallTracer) (step : Step) : Outcome :=
  match step.operation with
  | .start depth =>
    match tracer.start depth step.world with
    | (tracer', world) => ⟨tracer', world, tracer.handed step, none⟩
  | .enter callee stack =>
    match tracer.enter callee stack step.world with
    | (tracer', world) => ⟨tracer', world, tracer.handed step, none⟩
  | .exit callee =>
    match tracer.exit callee step.world with
    | (tracer', world) => ⟨tracer', world, tracer.handed step, none⟩
  | .forget key =>
    match tracer.forget key with
    | (wasKnown, tracer') => ⟨tracer', step.world, tracer.handed step, some wasKnown⟩
  | .flush =>
    match tracer.flush step.world with
    | (tracer', world) => ⟨tracer', world, tracer.handed step, none⟩

def after (tracer : CallTracer) : List Step → CallTracer
  | [] => tracer
  | step :: earlier => ((tracer.after earlier).perform step).tracer

def outcomes (tracer : CallTracer) : List Step → List Outcome
  | [] => []
  | step :: earlier => (tracer.after earlier).perform step :: tracer.outcomes earlier

/-- The calls handed to the stream in a history, in the order in which they were told. -/
def told (tracer : CallTracer) : List Step → List Call
  | [] => []
  | step :: earlier => tracer.told earlier ++ ((tracer.after earlier).perform step).calls

/-- A tracer that has started for a depth and done nothing else. -/
def started (source : SettingsSource) (override : Option Outlet) (depth : UInt32)
    (world : World) : CallTracer :=
  ((new source override).start depth world).1

variable {tracer : CallTracer} {inference : Inference}

theorem after_append (tracer : CallTracer) (later earlier : List Step) :
    tracer.after (later ++ earlier) = (tracer.after earlier).after later := by
  induction later with
  | nil => rfl
  | cons step rest ih => rw [List.cons_append, after, ih, after]

theorem outcomes_append (tracer : CallTracer) (later earlier : List Step) :
    tracer.outcomes (later ++ earlier) =
      (tracer.after earlier).outcomes later ++ tracer.outcomes earlier := by
  induction later with
  | nil => rfl
  | cons step rest ih =>
    rw [List.cons_append, outcomes, ih, after_append, outcomes, List.cons_append]

/-! ## A tracer and its inference -/

/-- The tracer has started, and its inference has come to the given one. -/
def Infers (tracer : CallTracer) (inference : Inference) : Prop :=
  ∃ stream, tracer.state = some ⟨inference, stream⟩

/-- A tracer that has started knows nothing, and has recorded nothing. -/
theorem state_started (source : SettingsSource) (override : Option Outlet) (depth : UInt32)
    (world : World) :
    ∃ stream, (started source override depth world).state = some ⟨.new depth, stream⟩ ∧
      stream.stats.records = 0 ∧ (override = some (.capture #[]) → stream.Recorded []) := by
  refine ⟨_, rfl, rfl, ?_⟩
  rintro rfl
  exact Stream.recorded_capturing _ (source.resolve world.environment).capacity_pos

theorem infers_started (source : SettingsSource) (override : Option Outlet) (depth : UInt32)
    (world : World) : (started source override depth world).Infers (.new depth) :=
  ⟨_, rfl⟩

/-- A step does to a started tracer what it does to its inference, and the stream takes the calls
that are told. -/
theorem perform_eq {stream : Stream} (h : tracer.state = some ⟨inference, stream⟩) (step : Step) :
    ∃ stream', (tracer.perform step).tracer.state =
        some ⟨(inference.perform step.world.clock step.operation).1, stream'⟩ ∧
      (tracer.perform step).calls =
        (inference.perform step.world.clock step.operation).2 ∧
      stream.Took ((tracer.perform step).calls.map .call) stream' := by
  obtain ⟨source, override, state⟩ := tracer
  obtain rfl : state = some ⟨inference, stream⟩ := h
  obtain ⟨operation, world⟩ := step
  cases operation with
  | start depth => exact ⟨stream, rfl, rfl, .nil⟩
  | enter callee stack => exact ⟨_, rfl, rfl, Stream.Took.nil.recordAll _ world⟩
  | exit callee => exact ⟨_, rfl, rfl, Stream.Took.nil.recordAll _ world⟩
  | forget key => exact ⟨stream, rfl, rfl, .nil⟩
  | flush => exact ⟨_, rfl, rfl, Stream.Took.nil.flush world⟩

/-- **A run of a tracer is one of its inference.** Whatever the outlet, the stream takes the calls
that are told. -/
theorem after_eq {stream : Stream} (h : tracer.state = some ⟨inference, stream⟩)
    (steps : List Step) :
    ∃ stream', (tracer.after steps).state = some ⟨inference.after steps, stream'⟩ ∧
      tracer.told steps = inference.told steps ∧
      stream.Took ((tracer.told steps).map .call) stream' := by
  induction steps with
  | nil => exact ⟨stream, h, rfl, .nil⟩
  | cons step earlier ih =>
    obtain ⟨middle, hmiddle, htold, htook⟩ := ih
    obtain ⟨last, hlast, hcalls, htook'⟩ := perform_eq hmiddle step
    refine ⟨last, hlast, ?_, ?_⟩
    · rw [told, Inference.told, htold, hcalls]
    · rw [told, List.map_append]
      exact htook.trans htook'

/-! ## What a tracer knows -/

/-- The tracer holds the pair as known. -/
def Knows (tracer : CallTracer) (pair : FunctionId × FunctionId) : Prop :=
  ∃ state, tracer.state = some state ∧ pair ∈ state.inference.known

/-- The id that the tracer has for a function object. -/
def tracked? (tracer : CallTracer) (key : FunctionKey) : Option FunctionId :=
  tracer.state.bind fun state => state.inference.tracked[key]?

/-- Who handed a function object over, as far as the tracer knows. -/
def registrant? (tracer : CallTracer) (key : FunctionKey) : Option FunctionId :=
  tracer.state.bind fun state => state.inference.registrants[key]?

namespace Infers

theorem perform (h : tracer.Infers inference) (step : Step) :
    (tracer.perform step).tracer.Infers
        (inference.perform step.world.clock step.operation).1 ∧
      (tracer.perform step).calls =
        (inference.perform step.world.clock step.operation).2 := by
  obtain ⟨stream, hstate⟩ := h
  obtain ⟨stream', hstate', hcalls, -⟩ := perform_eq hstate step
  exact ⟨⟨stream', hstate'⟩, hcalls⟩

theorem after (h : tracer.Infers inference) (steps : List Step) :
    (tracer.after steps).Infers (inference.after steps) := by
  obtain ⟨stream, hstate⟩ := h
  obtain ⟨stream', hstate', -⟩ := after_eq hstate steps
  exact ⟨stream', hstate'⟩

theorem knows_iff (h : tracer.Infers inference) (pair : FunctionId × FunctionId) :
    tracer.Knows pair ↔ pair ∈ inference.known := by
  obtain ⟨stream, hstate⟩ := h
  simp [Knows, hstate]

theorem tracked?_eq (h : tracer.Infers inference) (key : FunctionKey) :
    tracer.tracked? key = inference.tracked[key]? := by
  obtain ⟨stream, hstate⟩ := h
  simp [tracked?, hstate]

theorem registrant?_eq (h : tracer.Infers inference) (key : FunctionKey) :
    tracer.registrant? key = inference.registrants[key]? := by
  obtain ⟨stream, hstate⟩ := h
  simp [registrant?, hstate]

/-- The counts are the sizes of what the inference holds. -/
theorem counts_eq (h : tracer.Infers inference) :
    tracer.knownEdges = inference.known.size ∧
      tracer.trackedFunctions = inference.tracked.size ∧
      tracer.registeredCallbacks = inference.registrants.size := by
  obtain ⟨stream, hstate⟩ := h
  simp [knownEdges, trackedFunctions, registeredCallbacks, hstate]

end Infers

end CallTracer

end CallTrace
