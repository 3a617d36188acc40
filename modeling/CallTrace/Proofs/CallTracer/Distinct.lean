import CallTrace.Proofs.CallTracer.Operation
import CallTrace.Proofs.Inference

/-!
# Every pair is told once

Where stacks are collected, the calls told in a run are the known pairs, each told once
(`Inference.ToldOnce.after`), and the ids in them are those of functions that were entered
(`Inference.within_after`). So what the stream takes are distinct calls between entered functions,
as many as are known (`CallTracer.told_once`).
-/

namespace CallTrace

namespace Inference

variable {inference : Inference} {calls : List Call}

/-! ## Distinct calls -/

/-- The calls are the known pairs, each told once. -/
structure ToldOnce (inference : Inference) (calls : List Call) : Prop extends
    Told inference calls where
  nodup : (calls.map Call.edge).Nodup
  size_eq : inference.known.size = calls.length

namespace ToldOnce

theorem new (depth : UInt32) : (Inference.new depth).ToldOnce [] :=
  ⟨told_new depth, List.nodup_nil, Std.HashSet.size_empty⟩

theorem congr {inference' : Inference} (hknown : inference'.known = inference.known)
    (h : inference.ToldOnce calls) : inference'.ToldOnce calls :=
  ⟨h.toTold.congr hknown, h.nodup, hknown ▸ h.size_eq⟩

theorem tell (h : inference.ToldOnce calls) (caller callee : FunctionId) (clock : Int64) :
    (inference.tell caller callee clock).1.ToldOnce
      (calls ++ (inference.tell caller callee clock).2) := by
  have htold := h.toTold.tell caller callee clock
  unfold Inference.tell at htold ⊢
  by_cases hknown : (caller, callee) ∈ inference.known
  · rw [if_pos (Std.HashSet.mem_iff_contains.1 hknown), List.append_nil]
    exact h
  · rw [if_neg fun hcontains => hknown (Std.HashSet.mem_iff_contains.2 hcontains)] at htold ⊢
    have hnew : (some caller, some callee) ∉ calls.map Call.edge := by
      intro hedge
      exact hknown ((h.mem_known_iff caller callee).2 (List.mem_map.1 hedge))
    refine ⟨htold, ?_, ?_⟩
    · rw [List.map_append, List.nodup_append]
      refine ⟨h.nodup, List.pairwise_singleton .., fun edge hedge other hother heq => hnew ?_⟩
      rw [heq, List.mem_singleton.1 hother] at hedge
      exact hedge
    · simp only [Std.HashSet.size_insert, if_neg hknown, h.size_eq, List.length_append,
        List.length_singleton]

theorem perform (h : inference.ToldOnce calls) (hcollects : inference.collects = true)
    (clock : Int64) (operation : CallTracer.Operation) :
    (inference.perform clock operation).1.ToldOnce
      (calls ++ (inference.perform clock operation).2) := by
  cases operation with
  | start depth => rwa [Inference.perform, List.append_nil]
  | enter callee stack =>
    exact enter_induction ToldOnce congr
      (fun caller callee clock h => h.tell caller callee clock) hcollects h callee stack clock
  | exit callee => rwa [Inference.perform, exit_of_collects hcollects, List.append_nil]
  | forget key =>
    rw [Inference.perform, List.append_nil]
    refine congr ?_ h
    rfl
  | flush => rwa [Inference.perform, List.append_nil]

end ToldOnce

theorem perform_collects (inference : Inference) (clock : Int64)
    (operation : CallTracer.Operation) :
    (inference.perform clock operation).1.collects = inference.collects := by
  cases operation with
  | enter callee stack => exact enter_collects ..
  | start depth => rfl
  | exit callee => rfl
  | forget key => rfl
  | flush => rfl

theorem after_collects (inference : Inference) (steps : List CallTracer.Step) :
    (inference.after steps).collects = inference.collects := by
  induction steps with
  | nil => rfl
  | cons step earlier ih => exact (perform_collects ..).trans ih

/-- **The calls told in a run are the known pairs, each told once.** -/
theorem ToldOnce.after (h : inference.ToldOnce []) (hcollects : inference.collects = true)
    (steps : List CallTracer.Step) :
    (inference.after steps).ToldOnce (inference.told steps) := by
  induction steps with
  | nil => exact h
  | cons step earlier ih => exact ih.perform ((after_collects ..).trans hcollects) _ _

/-- What is known stays known. -/
theorem mem_known_perform {pair : FunctionId × FunctionId} (h : pair ∈ inference.known)
    (clock : Int64) (operation : CallTracer.Operation) :
    pair ∈ (inference.perform clock operation).1.known := by
  cases operation with
  | enter callee stack =>
    cases callee with
    | none => exact h
    | some callee =>
      simp only [perform, enter]
      split
      · cases stack with
        | nil => exact h
        | cons top below => exact (mem_enterStack_known ..).2 (.inl h)
      · exact h
  | start depth => exact h
  | exit callee => exact h
  | forget key => exact h
  | flush => exact h

/-! ## Entered functions -/

/-- The ids that an inference comes to hold in a run are those of functions that were entered. -/
theorem within_after (depth : UInt32) (steps : List CallTracer.Step) :
    ((new depth).after steps).Within fun id =>
      ∃ step ∈ steps, ∃ stack, step.operation = .enter (some id) stack := by
  induction steps with
  | nil => exact within_new _ depth
  | cons step earlier ih =>
    obtain ⟨operation, world⟩ := step
    have hearlier : ((new depth).after earlier).Within fun id =>
        ∃ step ∈ ⟨operation, world⟩ :: earlier, ∃ stack, step.operation = .enter (some id) stack :=
      ih.mono fun id ⟨step, hstep, hentered⟩ => ⟨step, List.mem_cons_of_mem _ hstep, hentered⟩
    cases operation with
    | enter callee stack =>
      refine hearlier.enter (fun id hid => ?_) stack world.clock
      exact ⟨_, List.mem_cons_self, stack, by rw [Option.mem_def.1 hid]⟩
    | forget key => exact hearlier.forget key
    | start depth => exact hearlier
    | exit callee => exact hearlier
    | flush => exact hearlier

end Inference

/-! ## What a tracer writes -/

namespace CallTracer

variable {tracer : CallTracer} {inference : Inference}

/-- Where stacks are collected, an exit does nothing. -/
theorem perform_exit (h : tracer.Infers inference) (hcollects : inference.collects = true)
    (callee : Option FunctionId) (world : World) :
    tracer.perform ⟨.exit callee, world⟩ = ⟨tracer, world, [], none⟩ := by
  obtain ⟨source, override, state⟩ := tracer
  obtain ⟨stream, rfl⟩ := h
  have hexit := Inference.exit_of_collects hcollects callee world.clock
  simp only [perform, handed, Inference.perform, CallTracer.exit, State.tell, hexit,
    Option.map_some, Option.getD_some]
  rfl

/-- **Every pair is told once.** In a run of a tracer that collects stacks, the calls that the
stream takes have different pairs of ends, and both ends are functions that were entered. They are
the pairs that are known, as many as there are records; none of them is ever forgotten, and an exit
adds nothing. On a capturing outlet they are what is read back in the end. -/
theorem told_once (source : SettingsSource) (override : Option Outlet) {depth : UInt32}
    (hdepth : 1 < depth) (start : World) (steps : List Step) :
    let origin := started source override depth start
    let tracer := origin.after steps
    let calls := origin.told steps
    let Entered := fun id : FunctionId =>
      ∃ step ∈ steps, ∃ stack, step.operation = .enter (some id) stack
    (∃ first last, origin.state.map State.stream = some first ∧
      tracer.state.map State.stream = some last ∧ first.Took (calls.map .call) last) ∧
    (calls.map Call.edge).Nodup ∧
    (∀ call ∈ calls, ∃ caller callee, call.edge = (some caller, some callee) ∧
      Entered caller ∧ Entered callee) ∧
    (∀ caller callee, tracer.Knows (caller, callee) ↔
      ∃ call ∈ calls, call.edge = (some caller, some callee)) ∧
    tracer.knownEdges = tracer.stats.records ∧
    (∀ step pair, tracer.Knows pair → (tracer.perform step).tracer.Knows pair) ∧
    (∀ callee world, tracer.perform ⟨.exit callee, world⟩ = ⟨tracer, world, [], none⟩) ∧
    (override = some (.capture #[]) → ∀ world, ∃ batches,
      tracer.finish world = (some (.capture batches), world) ∧
        Trace.read batches.toList.flatten = .ok (calls.map .call)) := by
  intro origin tracer calls Entered
  obtain ⟨first, horigin, hzero, hcapturing⟩ := state_started source override depth start
  obtain ⟨last, hlast, htold, htook⟩ := after_eq horigin steps
  have hinfers : tracer.Infers ((Inference.new depth).after steps) := ⟨last, hlast⟩
  have hcollects : (Inference.new depth).collects = true := decide_eq_true hdepth
  have honce : ((Inference.new depth).after steps).ToldOnce calls := by
    have h := (Inference.ToldOnce.new depth).after hcollects steps
    rwa [← htold] at h
  have hwithin := Inference.within_after depth steps
  refine ⟨⟨first, last, ?_, ?_, htook⟩, honce.nodup, fun call hcall => ?_, fun caller callee => ?_,
    ?_, fun step pair hpair => ?_, fun callee world => ?_, fun hoverride world => ?_⟩
  · exact congrArg (Option.map State.stream) horigin
  · exact congrArg (Option.map State.stream) hlast
  · obtain ⟨pair, hpair, hedge⟩ := honce.known_of_mem call hcall
    obtain ⟨hcaller, hcallee⟩ := hwithin.known pair hpair
    exact ⟨pair.1, pair.2, hedge, hcaller, hcallee⟩
  · exact (hinfers.knows_iff _).trans (honce.mem_known_iff caller callee)
  · have hstats : tracer.stats = last.stats := by
      rw [stats, hlast]
      rfl
    rw [hinfers.counts_eq.1, honce.size_eq, hstats, htook.records_stats, hzero, Nat.zero_add,
      List.length_map]
  · rw [(hinfers.perform step).1.knows_iff]
    exact Inference.mem_known_perform ((hinfers.knows_iff pair).1 hpair) _ _
  · exact perform_exit hinfers ((Inference.after_collects ..).trans hcollects) callee world
  · have hrecorded : tracer.Recorded ((Inference.new depth).after steps) calls :=
      ⟨last, hlast, htook.recorded (hcapturing hoverride)⟩
    exact hrecorded.finish world

/-- A function is entered again by the same caller, after it was forgotten; between, there is an
entry of one that is not traced. A single call is read back. -/
theorem told_once_entered_again :
    let world : World := ⟨⟨[], []⟩, [], fun _ => none, 0, ""⟩
    let frame : UInt64 → Frame := fun address => ⟨⟨address, 0⟩, []⟩
    let steps : List Step := [
      ⟨.enter (some ⟨1, by decide⟩) [frame 2, frame 1], world⟩,
      ⟨.enter none [frame 3, frame 1], world⟩,
      ⟨.forget ⟨2, 0⟩, world⟩,
      ⟨.enter (some ⟨1, by decide⟩) [frame 2, frame 1], world⟩,
      ⟨.enter (some ⟨0, by decide⟩) [frame 1], world⟩]
    let tracer := (started .environment (some (.capture #[])) 2 world).after steps
    let call : Call := ⟨some ⟨0, by decide⟩, some ⟨1, by decide⟩, 0⟩
    (1 : UInt32) < 2 ∧ tracer.knownEdges = tracer.stats.records ∧
      tracer.Knows (⟨0, by decide⟩, ⟨1, by decide⟩) ∧
      ∃ batches, tracer.finish world = (some (.capture batches), world) ∧
        Trace.read batches.toList.flatten = .ok [.call call] := by
  intro world frame steps tracer call
  have hdepth : (1 : UInt32) < 2 := by decide
  have htold : (started .environment (some (.capture #[])) 2 world).told steps = [call] := by
    obtain ⟨first, hstarted, -⟩ := state_started .environment (some (.capture #[])) 2 world
    obtain ⟨-, -, htold, -⟩ := after_eq hstarted steps
    rw [htold]
    simp [steps, frame, world, call, Inference.told, Inference.after, Inference.perform,
      Inference.new, Inference.enter, Inference.enterStack, Inference.meetTop,
      Inference.clearPending, Inference.track, Inference.gather, Inference.caller?, Inference.tell,
      Inference.handOver, Inference.forget, Frame.callables,
      Std.HashMap.getElem?_insert, Std.HashMap.getElem_insert]
  obtain ⟨-, -, -, hknows, hcount, -, -, hread⟩ :=
    told_once .environment (some (.capture #[])) hdepth world steps
  rw [htold] at hknows hread
  exact ⟨hdepth, hcount, (hknows _ _).2 ⟨call, List.mem_singleton_self _, rfl⟩, hread rfl world⟩

end CallTracer

end CallTrace
