import CallTrace.Proofs.CallTracer.Attribution
import Mathlib.Logic.Equiv.Basic

/-!
# Renaming function objects

A tracer tells function objects apart, and sees nothing else of them. `Inference.Renamed f`: two
inferences hold the same under different names of the function objects. An injective renaming is
kept by every operation that is renamed with it (`Inference.Renamed.perform`), and what can be seen
of the two runs is the same (`CallTracer.Infers.map_report_outcomes`). Of a function object that was
forgotten nothing is held, so it may as well be one that was never seen
(`CallTracer.forgotten_as_new`).
-/

namespace CallTrace

/-! ## Other names for function objects -/

def Argument.rename (f : FunctionKey → FunctionKey) : Argument → Argument
  | .callable key => .callable (f key)
  | .value => .value

def Frame.rename (f : FunctionKey → FunctionKey) (frame : Frame) : Frame :=
  ⟨f frame.key, frame.arguments.map (Argument.rename f)⟩

namespace CallTracer.Operation

def rename (f : FunctionKey → FunctionKey) : Operation → Operation
  | .enter callee stack => .enter callee (stack.map (Frame.rename f))
  | .forget key => .forget (f key)
  | operation => operation

/-- The function objects in an operation. -/
def keys : Operation → List FunctionKey
  | .enter _ stack => stack.flatMap fun frame => frame.key :: frame.callables
  | .forget key => [key]
  | _ => []

end CallTracer.Operation

variable {f g : FunctionKey → FunctionKey}

theorem Frame.callables_rename (f : FunctionKey → FunctionKey) (frame : Frame) :
    (frame.rename f).callables = frame.callables.map f := by
  rw [callables, callables, rename, List.filterMap_map, List.map_filterMap]
  congr 1
  funext argument
  cases argument <;> rfl

theorem Frame.rename_congr {frame : Frame}
    (h : ∀ key ∈ frame.key :: frame.callables, f key = g key) :
    frame.rename f = frame.rename g := by
  rw [rename, rename, h frame.key List.mem_cons_self]
  congr 1
  refine List.map_congr_left fun argument hargument => ?_
  cases argument with
  | callable key =>
    have hkey : key ∈ frame.callables := List.mem_filterMap.2 ⟨.callable key, hargument, rfl⟩
    rw [Argument.rename, Argument.rename, h key (List.mem_cons_of_mem _ hkey)]
  | value => rfl

/-- Only the names of the function objects in an operation matter. -/
theorem CallTracer.Operation.rename_congr {operation : Operation}
    (h : ∀ key ∈ operation.keys, f key = g key) : operation.rename f = operation.rename g := by
  cases operation with
  | enter callee stack =>
    refine congrArg (Operation.enter callee) (List.map_congr_left fun frame hframe => ?_)
    exact Frame.rename_congr fun key hkey => h key (List.mem_flatMap.2 ⟨frame, hframe, hkey⟩)
  | forget key => rw [rename, rename, h key (List.mem_singleton_self key)]
  | start depth => rfl
  | exit callee => rfl
  | flush => rfl

/-! ## Renamed maps -/

/-- The second map has under the new names what the first has under the old ones, and no more. -/
structure RenamedMap (f : FunctionKey → FunctionKey)
    (m m' : Std.HashMap FunctionKey FunctionId) : Prop where
  getElem?_eq : ∀ key, m'[f key]? = m[key]?
  size_eq : m'.size = m.size

namespace RenamedMap

variable {m m' : Std.HashMap FunctionKey FunctionId}

theorem mem_iff (h : RenamedMap f m m') (key : FunctionKey) : f key ∈ m' ↔ key ∈ m := by
  rw [Std.HashMap.mem_iff_isSome_getElem?, Std.HashMap.mem_iff_isSome_getElem?, h.getElem?_eq]

theorem contains_eq (h : RenamedMap f m m') (key : FunctionKey) :
    m'.contains (f key) = m.contains key := by
  rw [Bool.eq_iff_iff, ← Std.HashMap.mem_iff_contains, ← Std.HashMap.mem_iff_contains, h.mem_iff]

theorem insert (hf : Function.Injective f) (h : RenamedMap f m m') (key : FunctionKey)
    (id : FunctionId) : RenamedMap f (m.insert key id) (m'.insert (f key) id) where
  getElem?_eq other := by
    simp only [Std.HashMap.getElem?_insert, beq_iff_eq, hf.eq_iff, h.getElem?_eq]
  size_eq := by simp only [Std.HashMap.size_insert, h.mem_iff, h.size_eq]

theorem insertAll (hf : Function.Injective f) (h : RenamedMap f m m') (id : FunctionId)
    (keys : List FunctionKey) :
    RenamedMap f (keys.foldl (fun m key => m.insert key id) m)
      ((keys.map f).foldl (fun m key => m.insert key id) m') := by
  induction keys generalizing m m' with
  | nil => exact h
  | cons key rest ih => exact ih (h.insert hf key id)

theorem erase (hf : Function.Injective f) (h : RenamedMap f m m') (key : FunctionKey) :
    RenamedMap f (m.erase key) (m'.erase (f key)) where
  getElem?_eq other := by
    simp only [Std.HashMap.getElem?_erase, beq_iff_eq, hf.eq_iff, h.getElem?_eq]
  size_eq := by simp only [Std.HashMap.size_erase, h.mem_iff, h.size_eq]

/-- A map that has nothing under either of two names may have them swapped. -/
theorem swap {key key' : FunctionKey} (h : m[key]? = none) (h' : m[key']? = none) :
    RenamedMap (Equiv.swap key key') m m where
  getElem?_eq other := by
    rw [Equiv.swap_apply_def]
    split
    next heq => rw [heq, h, h']
    next =>
      split
      next heq => rw [heq, h, h']
      next => rfl
  size_eq := rfl

end RenamedMap

namespace Inference

variable {state state' : Inference}

/-- The second inference holds under the new names what the first holds under the old ones. What is
pending is left aside: no entry sees it. -/
structure Renamed (f : FunctionKey → FunctionKey) (state state' : Inference) : Prop where
  collects : state'.collects = state.collects
  known : state'.known = state.known
  tracked : RenamedMap f state.tracked state'.tracked
  registrants : RenamedMap f state.registrants state'.registrants

/-- What is answered when a function object is forgotten. -/
def wasKnown? (state : Inference) : CallTracer.Operation → Option Bool
  | .forget key => some (state.forget key).1
  | _ => none

namespace Renamed

theorem tell (h : state.Renamed f state') (caller callee : FunctionId) (clock clock' : Int64) :
    (state.tell caller callee clock).1.Renamed f (state'.tell caller callee clock').1 ∧
      (state'.tell caller callee clock').2.map Call.edge =
        (state.tell caller callee clock).2.map Call.edge := by
  unfold Inference.tell
  rw [h.known]
  split
  · exact ⟨h, rfl⟩
  · exact ⟨⟨h.collects, rfl, h.tracked, h.registrants⟩, rfl⟩

theorem tellAll (h : state.Renamed f state') (callee : FunctionId) (clock clock' : Int64)
    (callers : List FunctionId) :
    (state.tellAll callee clock callers).1.Renamed f (state'.tellAll callee clock' callers).1 ∧
      (state'.tellAll callee clock' callers).2.map Call.edge =
        (state.tellAll callee clock callers).2.map Call.edge := by
  induction callers generalizing state state' with
  | nil => exact ⟨h, rfl⟩
  | cons caller rest ih =>
    obtain ⟨htell, hcalls⟩ := h.tell caller callee clock clock'
    obtain ⟨hrest, hmore⟩ := ih htell
    refine ⟨hrest, ?_⟩
    simp only [Inference.tellAll, List.map_append, hcalls, hmore]

theorem caller?_eq (h : state.Renamed f state') (frames : List Frame) :
    state'.caller? (frames.map (Frame.rename f)) = state.caller? frames := by
  rw [caller?, caller?, List.findSome?_map]
  congr 1
  funext frame
  exact h.tracked.getElem?_eq frame.key

section

variable (hf : Function.Injective f) (h : state.Renamed f state')
include hf h

theorem track (key : FunctionKey) (id : FunctionId) :
    (state.track key id).Renamed f (state'.track (f key) id) :=
  ⟨h.collects, h.known, h.tracked.insert hf key id, h.registrants⟩

theorem meetTop (callee : FunctionId) (top : Frame) :
    (state.meetTop callee top).Renamed f (state'.meetTop callee (top.rename f)) :=
  ⟨h.collects, h.known, h.tracked.insert hf top.key callee, h.registrants⟩

theorem handOver (hpending : state'.pending = state.pending.map f) (registrant : FunctionId) :
    (state.handOver registrant).Renamed f (state'.handOver registrant) := by
  refine ⟨h.collects, h.known, h.tracked, ?_⟩
  rw [Inference.handOver, Inference.handOver, hpending]
  exact h.registrants.insertAll hf registrant state.pending

theorem callers_eq (callee : FunctionId) (top : Frame) (below : List Frame) :
    state'.callers callee (top.rename f) (below.map (Frame.rename f)) =
      state.callers callee top below := by
  have hcaller := (h.track hf top.key callee).caller?_eq below
  rw [callers, callers, ← hcaller, Frame.rename, h.registrants.getElem?_eq]

theorem enterStack (callee : FunctionId) (stack : List Frame) (clock clock' : Int64) :
    (state.enterStack callee clock stack).1.Renamed f
        (state'.enterStack callee clock' (stack.map (Frame.rename f))).1 ∧
      (state'.enterStack callee clock' (stack.map (Frame.rename f))).2.map Call.edge =
        (state.enterStack callee clock stack).2.map Call.edge := by
  cases stack with
  | nil => exact ⟨⟨h.collects, h.known, h.tracked, h.registrants⟩, rfl⟩
  | cons top below =>
    have hcaller := (h.track hf top.key callee).caller?_eq below
    have hmet := h.meetTop hf callee top
    obtain ⟨htell, hcalls⟩ := hmet.tellAll callee clock clock' (state.callers callee top below)
    rw [List.map_cons, enterStack_cons, enterStack_cons, h.callers_eq hf]
    refine ⟨?_, hcalls⟩
    rw [show (top.rename f).key = f top.key from rfl, hcaller]
    cases (state.track top.key callee).caller? below with
    | none => exact htell
    | some caller =>
      -- what is pending comes from the renamed frame alone
      refine htell.handOver hf ?_ caller
      rw [tellAll_pending, tellAll_pending, meetTop_pending, meetTop_pending,
        Frame.callables_rename]

/-- **Renamed operations keep the renaming,** and tell the same calls. -/
theorem perform (operation : CallTracer.Operation) (clock clock' : Int64) :
    (state.perform clock operation).1.Renamed f (state'.perform clock' (operation.rename f)).1 ∧
      (state'.perform clock' (operation.rename f)).2.map Call.edge =
        (state.perform clock operation).2.map Call.edge ∧
      state'.wasKnown? (operation.rename f) = state.wasKnown? operation := by
  cases operation with
  | enter callee stack =>
    simp only [Inference.perform, CallTracer.Operation.rename, Inference.enter, h.collects]
    cases callee with
    | none => exact ⟨h, rfl, rfl⟩
    | some callee =>
      cases hcollects : state.collects with
      | true =>
        obtain ⟨hrenamed, hcalls⟩ := h.enterStack hf callee stack clock clock'
        exact ⟨hrenamed, hcalls, rfl⟩
      | false => exact ⟨h, rfl, rfl⟩
  | exit callee =>
    refine ⟨h, ?_, rfl⟩
    simp only [Inference.perform, CallTracer.Operation.rename, Inference.exit, h.collects]
    cases callee with
    | none => rfl
    | some callee => cases state.collects <;> rfl
  | forget key =>
    refine ⟨⟨h.collects, h.known, h.tracked.erase hf key, h.registrants.erase hf key⟩, rfl, ?_⟩
    simp only [CallTracer.Operation.rename, wasKnown?, Inference.forget, h.tracked.contains_eq,
      h.registrants.contains_eq]
  | start depth => exact ⟨h, rfl, rfl⟩
  | flush => exact ⟨h, rfl, rfl⟩

/-- Renamed runs keep the renaming. -/
theorem after {steps steps' : List CallTracer.Step}
    (hsteps : steps'.map CallTracer.Step.operation =
      steps.map fun step => step.operation.rename f) :
    (state.after steps).Renamed f (state'.after steps') := by
  induction steps generalizing steps' with
  | nil =>
    obtain rfl : steps' = [] := List.map_eq_nil_iff.1 hsteps
    exact h
  | cons step earlier ih =>
    obtain ⟨step', earlier', rfl, hstep, hearlier⟩ := List.map_eq_cons_iff.1 hsteps
    rw [Inference.after, Inference.after, hstep]
    exact ((ih hearlier).perform hf ..).1

end

end Renamed

/-- What was forgotten may take any name under which nothing is held. -/
theorem renamed_forget (state : Inference) (key : FunctionKey) {fresh : FunctionKey}
    (htracked : state.tracked[fresh]? = none) (hregistrants : state.registrants[fresh]? = none) :
    (state.forget key).2.Renamed (Equiv.swap key fresh) (state.forget key).2 := by
  have hnone {m : Std.HashMap FunctionKey FunctionId} (h : m[fresh]? = none) :
      (m.erase key)[key]? = none ∧ (m.erase key)[fresh]? = none := by
    simp [Std.HashMap.getElem?_erase, h]
  exact ⟨rfl, rfl, .swap (hnone htracked).1 (hnone htracked).2,
    .swap (hnone hregistrants).1 (hnone hregistrants).2⟩

end Inference

/-! ## What can be seen of a run -/

namespace CallTracer

/-- What can be seen of a step: the calls without their times, whether anything was known of what is
forgotten, and how much is held. -/
structure Report where
  edges : List (Option FunctionId × Option FunctionId)
  wasKnown : Option Bool
  knownEdges : Nat
  trackedFunctions : Nat
  registeredCallbacks : Nat
deriving DecidableEq

def Outcome.report (outcome : Outcome) : Report where
  edges := outcome.calls.map Call.edge
  wasKnown := outcome.wasKnown
  knownEdges := outcome.tracer.knownEdges
  trackedFunctions := outcome.tracer.trackedFunctions
  registeredCallbacks := outcome.tracer.registeredCallbacks

variable {tracer tracer' : CallTracer} {inference inference' : Inference}

theorem Infers.wasKnown_eq (h : tracer.Infers inference) (step : Step) :
    (tracer.perform step).wasKnown = inference.wasKnown? step.operation := by
  obtain ⟨source, override, state⟩ := tracer
  obtain ⟨stream, rfl⟩ := h
  obtain ⟨operation, world⟩ := step
  cases operation <;> rfl

/-- What can be seen of a step of a renamed tracer is the same. -/
theorem Infers.report_perform (h : tracer.Infers inference) (h' : tracer'.Infers inference')
    (hf : Function.Injective f) (hrenamed : inference.Renamed f inference') {step step' : Step}
    (hstep : step'.operation = step.operation.rename f) :
    (tracer'.perform step').report = (tracer.perform step).report := by
  obtain ⟨hinfers, hcalls⟩ := h.perform step
  obtain ⟨hinfers', hcalls'⟩ := h'.perform step'
  obtain ⟨hafter, hedges, hknown⟩ :=
    hrenamed.perform hf step.operation step.world.clock step'.world.clock
  rw [hstep] at hinfers' hcalls'
  rw [Outcome.report, Outcome.report, hcalls, hcalls', hedges, h.wasKnown_eq, h'.wasKnown_eq, hstep,
    hknown]
  obtain ⟨hpairs, htracked, hregistered⟩ := hinfers.counts_eq
  obtain ⟨hpairs', htracked', hregistered'⟩ := hinfers'.counts_eq
  rw [hpairs, hpairs', htracked, htracked', hregistered, hregistered', hafter.known,
    hafter.tracked.size_eq, hafter.registrants.size_eq]

/-- **What can be seen of a renamed run is the same.** -/
theorem Infers.map_report_outcomes (h : tracer.Infers inference) (h' : tracer'.Infers inference')
    (hf : Function.Injective f) (hrenamed : inference.Renamed f inference')
    {steps steps' : List Step}
    (hsteps : steps'.map Step.operation = steps.map fun step => step.operation.rename f) :
    (tracer'.outcomes steps').map Outcome.report =
      (tracer.outcomes steps).map Outcome.report := by
  induction steps generalizing steps' with
  | nil =>
    obtain rfl : steps' = [] := List.map_eq_nil_iff.1 hsteps
    rfl
  | cons step earlier ih =>
    obtain ⟨step', earlier', rfl, hstep, hearlier⟩ := List.map_eq_cons_iff.1 hsteps
    have hbefore := hrenamed.after hf hearlier
    rw [outcomes, outcomes, List.map_cons, List.map_cons, ih hearlier,
      (h.after earlier).report_perform (h'.after earlier') hf hbefore hstep]

/-- The ends of the calls told in a run are those that can be seen of its steps. -/
theorem map_edge_told (tracer : CallTracer) (steps : List Step) :
    (tracer.told steps).map Call.edge =
      ((tracer.outcomes steps).map Outcome.report).reverse.flatMap Report.edges := by
  induction steps with
  | nil => rfl
  | cons step earlier ih =>
    rw [told, List.map_append, ih, outcomes, List.map_cons, List.reverse_cons, List.flatMap_append,
      List.flatMap_singleton]
    rfl

/-- **A function object that was forgotten is as good as a new one.** After it was forgotten, let
something be done in which it occurs: on stacks, among arguments, or to be forgotten again. The same
can be seen when a function object of which nothing is held occurs in its place, whatever the worlds
of the two runs; and the streams take the calls that are seen. -/
theorem forgotten_as_new (source : SettingsSource) (override : Option Outlet) (depth : UInt32)
    (start : World) (earlier : List Step) {key fresh : FunctionKey} {later later' : List Step}
    (world world' : World) :
    let tracer := (started source override depth start).after earlier
    let run := later ++ [⟨.forget key, world⟩]
    let run' := later' ++ [⟨.forget key, world'⟩]
    tracer.tracked? fresh = none → tracer.registrant? fresh = none →
    (∀ step ∈ later, fresh ∉ step.operation.keys) →
    later'.map Step.operation =
      later.map (fun step => step.operation.rename (Function.update id key fresh)) →
    (tracer.outcomes run').map Outcome.report = (tracer.outcomes run).map Outcome.report ∧
      (tracer.told run').map Call.edge = (tracer.told run).map Call.edge ∧
      ∃ first last last', tracer.state.map State.stream = some first ∧
        (tracer.after run).state.map State.stream = some last ∧
        (tracer.after run').state.map State.stream = some last' ∧
        first.Took ((tracer.told run).map .call) last ∧
        first.Took ((tracer.told run').map .call) last' := by
  intro tracer run run' htracked hregistrant hfresh hlater
  obtain ⟨stream, hstarted, -⟩ := state_started source override depth start
  obtain ⟨first, hfirst, -⟩ := after_eq hstarted earlier
  have hinfers : tracer.Infers ((Inference.new depth).after earlier) := ⟨first, hfirst⟩
  rw [hinfers.tracked?_eq] at htracked
  rw [hinfers.registrant?_eq] at hregistrant
  have hrenamed := Inference.renamed_forget _ key htracked hregistrant
  -- the replacement is not injective, but where the new name does not occur it is a swap
  have hswap : later'.map Step.operation =
      later.map fun step => step.operation.rename (Equiv.swap key fresh) := by
    rw [hlater]
    refine List.map_congr_left fun step hstep => Operation.rename_congr fun other hother => ?_
    have hother' : other ≠ fresh := fun heq => hfresh step hstep (heq ▸ hother)
    rw [Function.update_apply, Equiv.swap_apply_def, if_neg hother', id]
  have hreports : (tracer.outcomes run').map Outcome.report =
      (tracer.outcomes run).map Outcome.report := by
    rw [outcomes_append, outcomes_append, List.map_append, List.map_append]
    have hlaterReports := (hinfers.after [⟨.forget key, world⟩]).map_report_outcomes
      (hinfers.after [⟨.forget key, world'⟩]) (Equiv.injective _) hrenamed hswap
    rw [hlaterReports]
    rfl
  obtain ⟨last, hlast, -, htook⟩ := after_eq hfirst run
  obtain ⟨last', hlast', -, htook'⟩ := after_eq hfirst run'
  refine ⟨hreports, ?_, first, last, last', ?_, ?_, ?_, htook, htook'⟩
  · rw [map_edge_told, map_edge_told, hreports]
  · exact congrArg (Option.map State.stream) hfirst
  · exact congrArg (Option.map State.stream) hlast
  · exact congrArg (Option.map State.stream) hlast'

/-- A function object that had an id, and was handed over to itself, is forgotten. Then it is on the
stack below an entry, is handed over, entered, and forgotten again. -/
theorem forgotten_as_new_handed_over :
    let world : World := ⟨⟨[], []⟩, [], fun _ => none, 0, ""⟩
    let frame : UInt64 → List UInt64 → Frame := fun address given =>
      ⟨⟨address, 0⟩, given.map fun other => .callable ⟨other, 0⟩⟩
    let earlier : List Step := [⟨.enter (some ⟨1, by decide⟩) [frame 2 [2], frame 1 []], world⟩,
      ⟨.enter (some ⟨0, by decide⟩) [frame 1 []], world⟩]
    let later : UInt64 → List Step := fun address => [⟨.forget ⟨address, 0⟩, world⟩,
      ⟨.enter (some ⟨1, by decide⟩) [frame address [], frame 9 []], world⟩,
      ⟨.enter (some ⟨3, by decide⟩) [frame 3 [address], frame address [], frame 1 []], world⟩]
    let tracer := (started .environment (some (.capture #[])) 2 world).after earlier
    tracer.tracked? ⟨7, 0⟩ = none ∧ tracer.registrant? ⟨7, 0⟩ = none ∧
      (∀ step ∈ later 2, ⟨7, 0⟩ ∉ step.operation.keys) ∧
      (later 7).map Step.operation = (later 2).map (fun step =>
        step.operation.rename (Function.update id ⟨2, 0⟩ ⟨7, 0⟩)) ∧
      (tracer.outcomes (later 7 ++ [⟨.forget ⟨2, 0⟩, world⟩])).map Outcome.report =
        (tracer.outcomes (later 2 ++ [⟨.forget ⟨2, 0⟩, world⟩])).map Outcome.report := by
  intro world frame earlier later tracer
  obtain ⟨inference, hinfers, hremembers⟩ :=
    remembers_after .environment (some (.capture #[])) (by decide : (1 : UInt32) < 2) world earlier
  have htracked : tracer.tracked? ⟨7, 0⟩ = none := by
    rw [hinfers.tracked?_eq, hremembers.tracked]
    decide
  have hregistrant : tracer.registrant? ⟨7, 0⟩ = none := by
    rw [hinfers.registrant?_eq, hremembers.registrants]
    decide
  have hfresh : ∀ step ∈ later 2, ⟨7, 0⟩ ∉ step.operation.keys := by decide
  exact ⟨htracked, hregistrant, hfresh, rfl, (forgotten_as_new .environment (some (.capture #[])) 2
    world earlier world world htracked hregistrant hfresh rfl).1⟩

end CallTracer

end CallTrace
