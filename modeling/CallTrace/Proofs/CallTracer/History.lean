import CallTrace.Proofs.CallTracer.Recorded

/-!
# Histories of a call stack

A call stack comes about by entries and exits, where each exit leaves the innermost open frame
(`StackStep`). A call tracer that follows a history is shown each entry with the whole stack and
each exit (`CallTracer.followAll`), and records what its inference tells of it
(`CallTracer.Recorded.followAll`).
-/

namespace CallTrace

/-- A step of a call stack. -/
inductive StackStep where
  | enter (frame : Frame) (clock : Int64)
  | exit (clock : Int64)

namespace StackStep

/-- The frames that are open after a step, the innermost one first. -/
def after (frames : List Frame) : StackStep → List Frame
  | enter frame _ => frame :: frames
  | exit _ => frames.tail

/-- The frame that a step enters. -/
def frame? : StackStep → Option Frame
  | enter frame _ => some frame
  | exit _ => none

end StackStep

variable (idOf : FunctionKey → Option FunctionId)

namespace Inference

/-- What an inference tells of a step. -/
def follow (frames : List Frame) (inference : Inference) : StackStep → Inference × List Call
  | .enter frame clock => inference.enter (idOf frame.key) (frame :: frames) clock
  | .exit clock =>
    match frames with
    | [] => (inference, [])
    | top :: _ => (inference, inference.exit (idOf top.key) clock)

/-- What an inference tells of steps one after the other. -/
def followAll : List Frame → Inference → List StackStep → Inference × List Call
  | _, inference, [] => (inference, [])
  | frames, inference, step :: rest =>
    match inference.follow idOf frames step with
    | (inference, calls) =>
      match inference.followAll (step.after frames) rest with
      | (inference, more) => (inference, calls ++ more)

end Inference

namespace CallTracer

/-- Traces a step of a call stack, of whose functions some are known by ids. -/
def follow (frames : List Frame) (tracer : CallTracer) (world : World) :
    StackStep → CallTracer × World
  | .enter frame clock =>
    tracer.enter (idOf frame.key) (frame :: frames) { world with clock := clock }
  | .exit clock =>
    match frames with
    | [] => (tracer, world)
    | top :: _ => tracer.exit (idOf top.key) { world with clock := clock }

/-- Traces steps one after the other. -/
def followAll : List Frame → CallTracer → World → List StackStep → CallTracer × World
  | _, tracer, world, [] => (tracer, world)
  | frames, tracer, world, step :: rest =>
    match tracer.follow idOf frames world step with
    | (tracer, world) => tracer.followAll (step.after frames) world rest

/-- What a tracer delivers that starts for a depth, follows steps of a stack, and ends. -/
def deliveries (source : SettingsSource) (depth : UInt32) (steps : List StackStep)
    (world : World) : List Bytes :=
  match (new source (some (.capture #[]))).start depth world with
  | (tracer, world) =>
    match tracer.followAll idOf [] world steps with
    | (tracer, world) => ((tracer.finish world).1.map Outlet.batches).getD []

namespace Recorded

variable {tracer : CallTracer} {inference : Inference} {calls : List Call}

theorem follow (h : tracer.Recorded inference calls) (frames : List Frame) (world : World)
    (step : StackStep) :
    (tracer.follow idOf frames world step).1.Recorded (inference.follow idOf frames step).1
      (calls ++ (inference.follow idOf frames step).2) := by
  cases step with
  | enter frame clock => exact (h.enter _ _ _).2
  | exit clock =>
    cases frames with
    | nil => simpa [Inference.follow, CallTracer.follow] using h
    | cons top below => exact (h.exit _ _).2

theorem followAll (h : tracer.Recorded inference calls) (frames : List Frame) (world : World)
    (steps : List StackStep) :
    (tracer.followAll idOf frames world steps).1.Recorded
      (inference.followAll idOf frames steps).1
      (calls ++ (inference.followAll idOf frames steps).2) := by
  induction steps generalizing tracer inference calls frames world with
  | nil => simpa [Inference.followAll, CallTracer.followAll] using h
  | cons step rest ih =>
    have hrest := ih (h.follow idOf frames world step) (step.after frames)
      (tracer.follow idOf frames world step).2
    rwa [List.append_assoc] at hrest

end Recorded

/-- What is delivered are the calls that the inference told. -/
theorem read_deliveries (source : SettingsSource) (depth : UInt32) (steps : List StackStep)
    (world : World) :
    Trace.read (deliveries idOf source depth steps world).flatten =
      .ok (((Inference.new depth).followAll idOf [] steps).2.map .call) := by
  obtain ⟨-, hstart⟩ := recorded_start source depth world
  have hfollow := hstart.followAll idOf []
    ((new source (some (.capture #[]))).start depth world).2 steps
  obtain ⟨batches, hfinish, hread⟩ := hfollow.finish
    (((new source (some (.capture #[]))).start depth world).1.followAll idOf []
      ((new source (some (.capture #[]))).start depth world).2 steps).2
  simp only [deliveries, hfinish, Option.map_some, Option.getD_some, Outlet.batches]
  rw [hread, List.nil_append]

end CallTracer

end CallTrace
