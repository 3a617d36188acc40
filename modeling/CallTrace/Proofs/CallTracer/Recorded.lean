import CallTrace.CallTracer
import CallTrace.Proofs.Stream.Batches

/-!
# A call tracer records what its inference tells

`CallTracer.Recorded tracer inference calls`: the tracer has started on a capturing outlet, its
inference has come to `inference`, and its stream took the calls. Each operation of the tracer is
that of its inference, with the calls it tells added (`Recorded.enter`, `Recorded.exit`), and at
its end the calls are read back from what was delivered (`Recorded.finish`).
-/

namespace CallTrace.CallTracer

/-- The tracer has started, with the given inference, and recorded the calls. -/
def Recorded (tracer : CallTracer) (inference : Inference) (calls : List Call) : Prop :=
  ∃ stream, tracer.state = some ⟨inference, stream⟩ ∧ stream.Recorded (calls.map .call)

theorem recorded_start (source : SettingsSource) (depth : UInt32) (world : World) :
    ((new source (some (.capture #[]))).start depth world).2 = world ∧
      ((new source (some (.capture #[]))).start depth world).1.Recorded (.new depth) [] :=
  ⟨rfl, _, rfl, Stream.recorded_capturing _ (source.resolve world.environment).capacity_pos⟩

theorem filterMap_readBack?_map_call (calls : List Call) :
    (calls.map Record.call).filterMap Record.readBack? = calls.map Record.call := by
  rw [List.filterMap_map]
  exact congrFun List.filterMap_eq_map calls

namespace Recorded

variable {tracer : CallTracer} {inference : Inference} {calls : List Call}

theorem start (h : tracer.Recorded inference calls) (depth : UInt32) (world : World) :
    tracer.start depth world = (tracer, world) := by
  obtain ⟨stream, hstate, -⟩ := h
  simp only [CallTracer.start, hstate]

theorem tell {stream : Stream} (h : stream.Recorded (calls.map .call)) (inference : Inference)
    (more : List Call) (world : World) :
    (State.tell inference stream more world).2 = world ∧
      ∃ stream', (State.tell inference stream more world).1 = ⟨inference, stream'⟩ ∧
        stream'.Recorded ((calls ++ more).map .call) := by
  obtain ⟨hworld, hrecorded⟩ := h.recordAll (more.map .call) world
  refine ⟨hworld, _, rfl, ?_⟩
  rw [List.map_append]
  exact hrecorded

theorem enter (h : tracer.Recorded inference calls) (callee : Option FunctionId)
    (stack : List Frame) (world : World) :
    (tracer.enter callee stack world).2 = world ∧
      (tracer.enter callee stack world).1.Recorded (inference.enter callee stack world.clock).1
        (calls ++ (inference.enter callee stack world.clock).2) := by
  obtain ⟨source, override, state⟩ := tracer
  obtain ⟨stream, rfl, hstream⟩ := h
  obtain ⟨hworld, stream', hstate, hrecorded⟩ := tell hstream
    (inference.enter callee stack world.clock).1 (inference.enter callee stack world.clock).2 world
  exact ⟨hworld, stream', congrArg some hstate, hrecorded⟩

theorem exit (h : tracer.Recorded inference calls) (callee : Option FunctionId) (world : World) :
    (tracer.exit callee world).2 = world ∧
      (tracer.exit callee world).1.Recorded inference
        (calls ++ inference.exit callee world.clock) := by
  obtain ⟨source, override, state⟩ := tracer
  obtain ⟨stream, rfl, hstream⟩ := h
  obtain ⟨hworld, stream', hstate, hrecorded⟩ := tell hstream inference
    (inference.exit callee world.clock) world
  exact ⟨hworld, stream', congrArg some hstate, hrecorded⟩

theorem forget (h : tracer.Recorded inference calls) (key : FunctionKey) :
    (tracer.forget key).2.Recorded (inference.forget key).2 calls := by
  obtain ⟨source, override, state⟩ := tracer
  obtain ⟨stream, rfl, hstream⟩ := h
  exact ⟨stream, rfl, hstream⟩

theorem flush (h : tracer.Recorded inference calls) (world : World) :
    (tracer.flush world).2 = world ∧ (tracer.flush world).1.Recorded inference calls := by
  obtain ⟨source, override, state⟩ := tracer
  obtain ⟨stream, rfl, hstream⟩ := h
  obtain ⟨hworld, hflushed, -⟩ := hstream.flush world
  exact ⟨hworld, _, rfl, hflushed⟩

theorem stats_eq (h : tracer.Recorded inference calls) : tracer.stats.records = calls.length := by
  obtain ⟨stream, hstate, hstream⟩ := h
  simp only [CallTracer.stats, hstate, Option.map_some, Option.getD_some, hstream.1,
    List.length_map]

/-- At its end the tracer has delivered all calls. -/
theorem finish (h : tracer.Recorded inference calls) (world : World) :
    ∃ batches, tracer.finish world = (some (.capture batches), world) ∧
      Trace.read batches.toList.flatten = .ok (calls.map .call) := by
  obtain ⟨source, override, state⟩ := tracer
  obtain ⟨stream, rfl, hstream⟩ := h
  obtain ⟨batches, hfinish, hbatched⟩ := hstream.finish world
  refine ⟨batches, ?_, ?_⟩
  · simp only [CallTracer.finish, hfinish]
  · rw [hbatched.read_flatten, filterMap_readBack?_map_call]

end Recorded

end CallTrace.CallTracer
