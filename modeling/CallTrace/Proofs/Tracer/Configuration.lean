import CallTrace.Proofs.Tracer.Start

/-!
# A tracer is configured once

What a step brings about (`Tracer.Outcome`) are an id, the state afterwards, and records and
deliveries on both streams, of which the counters tell (`Tracer.stats_outcome`). Once a tracer has
started, its surroundings have a say in the time and in the verdicts of the outlets only. So tracers
that differ in their outlets alone stay so if they do the same at the same time and the verdicts are
the same (`Tracer.Alike`, `Tracer.Alike.perform`). What a run brings about depends on the
environment through the settings it starts with (`Tracer.alike_after`), and not on what the
environment was before or becomes after (`Tracer.configured_once`).
-/

namespace CallTrace.Tracer

/-! ## What a step brings about -/

/-- What a tracer has once it has started, apart from its outlets and counters. -/
structure State where
  depth : UInt32
  catalogue : Catalogue
  definitions : LineBuffer
  inference : Inference
  calls : LineBuffer

def state? (tracer : Tracer) : Option State :=
  tracer.registry.state.bind fun registry =>
    tracer.calls.state.map fun callTracer =>
      ⟨registry.depth, registry.catalogue, registry.stream.recorder.buffer,
        callTracer.inference, callTracer.stream.recorder.buffer⟩

/-- What happens on the stream of definitions, which the operation may start. -/
def definitionTraffic (tracer : Tracer) (world : World) (operation : Operation) : Traffic :=
  match if operation.starts then tracer.registry.start world else (tracer.registry, world) with
  | (registry, world') =>
    match registry.state with
    | some ⟨depth, catalogue, stream⟩ =>
      stream.traffic world' (catalogue.respond depth world.clock operation).2.2
    | none => .none

/-- What happens on the stream of calls, after what happens on that of definitions. -/
def callTraffic (tracer : Tracer) (world : World) (operation : Operation) : Traffic :=
  match tracer.calls.state with
  | some ⟨inference, stream⟩ =>
    stream.traffic (tracer.worldForCalls world operation)
      (inference.respond world.clock operation).2
  | none => .none

structure Outcome where
  id : Option FunctionId
  state? : Option State
  definitionStats : Stats
  callStats : Stats
  definitions : Traffic
  calls : Traffic

/-- What became of the deliveries on both streams. -/
def Outcome.verdicts (outcome : Outcome) : List Bool × List Bool :=
  (outcome.definitions.verdicts, outcome.calls.verdicts)

def outcome (tracer : Tracer) (step : Step) : Outcome :=
  let performed := tracer.perform step.world step.operation
  ⟨performed.1, performed.2.1.state?, performed.2.1.registry.stats, performed.2.1.calls.stats,
    tracer.definitionTraffic step.world step.operation,
    tracer.callTraffic step.world step.operation⟩

def outcomes (tracer : Tracer) : List Step → List Outcome
  | [] => []
  | step :: earlier => (tracer.after earlier).outcome step :: tracer.outcomes earlier

section
variable {world : World} {clock : Int64} (hclock : world.clock = clock) {operation : Operation}
include hclock

theorem definitionTraffic_started (depth : UInt32) (catalogue : Catalogue) (definitions : Stream)
    (callTracer : CallTracer.State) :
    (started ⟨depth, catalogue, definitions⟩ callTracer).definitionTraffic world operation =
      definitions.traffic world (catalogue.respond depth clock operation).2.2 := by
  subst hclock
  unfold definitionTraffic
  cases operation.starts <;> rfl

theorem callTraffic_started (depth : UInt32) (catalogue : Catalogue) (definitions : Stream)
    (inference : Inference) (calls : Stream) :
    (started ⟨depth, catalogue, definitions⟩ ⟨inference, calls⟩).callTraffic world operation =
      calls.traffic (definitions.run id world (catalogue.respond depth clock operation).2.2).2
        (inference.respond clock operation).2 := by
  rw [← worldForCalls_started depth catalogue definitions inference calls hclock, ← hclock]
  rfl

theorem definitionTraffic_new_of_starts (h : operation.starts = true) {settings : Settings}
    (hsettings : Settings.ofEnvironment world.environment = settings) :
    let opened := Outlet.ofSettings settings definitionFileStem world
    let responded :=
      (Catalogue.empty ⟨settings.traceAll⟩).respond settings.stackDepth clock operation
    (new .environment).definitionTraffic world operation =
      (Stream.ofSettings settings opened.1).traffic opened.2 responded.2.2 := by
  subst hclock hsettings
  unfold definitionTraffic
  rw [if_pos h]
  rfl

end

theorem definitionTraffic_new_of_not_starts {operation : Operation} (h : operation.starts = false)
    (world : World) : (new .environment).definitionTraffic world operation = .none := by
  unfold definitionTraffic
  rw [h]
  rfl

/-- The counters after a step are those before it, with what happened on the streams counted. -/
theorem stats_outcome (steps : List Step) (step : Step) :
    let tracer := (new .environment).after steps
    let outcome := tracer.outcome step
    outcome.definitionStats = tracer.registry.stats.tally outcome.definitions.records.length
        outcome.definitions.attempts ∧
      outcome.callStats =
        tracer.calls.stats.tally outcome.calls.records.length outcome.calls.attempts := by
  intro tracer outcome
  obtain ⟨operation, world⟩ := step
  have hafter := startedAt_after steps
  cases hfirst : startOf? steps with
  | some first =>
    rw [hfirst] at hafter
    obtain ⟨⟨depth, catalogue, definitions⟩, ⟨inference, calls⟩, htracer, -⟩ := hafter
    have hperform := perform_started depth catalogue definitions inference calls
      (Eq.refl world.clock) operation
    simp only [outcome, tracer, htracer, Tracer.outcome, hperform, definitionTraffic_started rfl,
      callTraffic_started rfl]
    exact ⟨definitions.stats_run _ _, calls.stats_run _ _⟩
  | none =>
    rw [hfirst] at hafter
    have htracer : tracer = new .environment := hafter
    cases hstarts : operation.starts with
    | false =>
      have hperform := perform_new_of_not_starts hstarts world
      simp only [outcome, htracer, Tracer.outcome, hperform,
        definitionTraffic_new_of_not_starts hstarts]
      exact ⟨rfl, rfl⟩
    | true =>
      obtain ⟨-, hperform⟩ := perform_new_of_starts hstarts rfl (Eq.refl world.clock)
      simp only [outcome, htracer, Tracer.outcome, hperform,
        definitionTraffic_new_of_starts rfl hstarts rfl]
      exact ⟨Stream.stats_run _ _ _, rfl⟩

/-! ## Two runs -/

/-- Both tracers have not started, or they differ in their outlets alone. -/
inductive Alike : Tracer → Tracer → Prop
  | new : Alike (.new .environment) (.new .environment)
  | started (depth : UInt32) (catalogue : Catalogue) (inference : Inference)
      {definitions definitions' calls calls' : Stream}
      (hdefinitions : definitions.recorder = definitions'.recorder)
      (hcalls : calls.recorder = calls'.recorder) :
      Alike (.started ⟨depth, catalogue, definitions⟩ ⟨inference, calls⟩)
        (.started ⟨depth, catalogue, definitions'⟩ ⟨inference, calls'⟩)

namespace Alike

variable {tracer tracer' : Tracer}

theorem state?_eq (h : Alike tracer tracer') : tracer.state? = tracer'.state? := by
  cases h with
  | new => rfl
  | started depth catalogue inference hdefinitions hcalls =>
    simp only [state?, Tracer.started, Option.bind_some, Option.map_some, hdefinitions, hcalls]

theorem stats_eq (h : Alike tracer tracer') :
    tracer.registry.stats = tracer'.registry.stats ∧ tracer.calls.stats = tracer'.calls.stats := by
  cases h with
  | new => exact ⟨rfl, rfl⟩
  | started depth catalogue inference hdefinitions hcalls =>
    exact ⟨congrArg Recorder.stats hdefinitions, congrArg Recorder.stats hcalls⟩

/-- What a step brings about is the same if it gives the same id and leaves the tracers alike, and
the same happens on their streams. -/
theorem outcome_eq {world world' : World} {operation : Operation}
    (h : Alike (tracer.perform world operation).2.1 (tracer'.perform world' operation).2.1)
    (hid : (tracer.perform world operation).1 = (tracer'.perform world' operation).1)
    (hdefinitions : tracer.definitionTraffic world operation =
      tracer'.definitionTraffic world' operation)
    (hcalls : tracer.callTraffic world operation = tracer'.callTraffic world' operation) :
    tracer.outcome ⟨operation, world⟩ = tracer'.outcome ⟨operation, world'⟩ := by
  unfold outcome
  simp only [hdefinitions, hcalls, hid, h.state?_eq, h.stats_eq]

section
variable {world world' : World} (hclock : world.clock = world'.clock) {operation : Operation}

theorem perform_new_of_not_starts (h : operation.starts = false) :
    Alike ((Tracer.new .environment).perform world operation).2.1
        ((Tracer.new .environment).perform world' operation).2.1 ∧
      (Tracer.new .environment).outcome ⟨operation, world⟩ =
        (Tracer.new .environment).outcome ⟨operation, world'⟩ := by
  have hperform := Tracer.perform_new_of_not_starts h world
  have hperform' := Tracer.perform_new_of_not_starts h world'
  have halike : Alike ((Tracer.new .environment).perform world operation).2.1
      ((Tracer.new .environment).perform world' operation).2.1 := by
    rw [hperform, hperform']
    exact .new
  refine ⟨halike, halike.outcome_eq ?_ ?_ rfl⟩
  · rw [hperform, hperform']
  · rw [definitionTraffic_new_of_not_starts h, definitionTraffic_new_of_not_starts h]

include hclock

theorem perform_new_of_starts (h : operation.starts = true)
    (hsettings :
      Settings.ofEnvironment world.environment = Settings.ofEnvironment world'.environment)
    (hverdicts : ((Tracer.new .environment).definitionTraffic world operation).verdicts =
      ((Tracer.new .environment).definitionTraffic world' operation).verdicts) :
    Alike ((Tracer.new .environment).perform world operation).2.1
        ((Tracer.new .environment).perform world' operation).2.1 ∧
      (Tracer.new .environment).outcome ⟨operation, world⟩ =
        (Tracer.new .environment).outcome ⟨operation, world'⟩ := by
  obtain ⟨-, hperform⟩ := Tracer.perform_new_of_starts h hsettings hclock
  obtain ⟨-, hperform'⟩ := Tracer.perform_new_of_starts h rfl (Eq.refl world'.clock)
  have htraffic := definitionTraffic_new_of_starts hclock h hsettings
  have htraffic' := definitionTraffic_new_of_starts (Eq.refl world'.clock) h rfl
  rw [htraffic, htraffic'] at hverdicts
  obtain ⟨hrecorder, hsame⟩ := Stream.run_congr (Stream.recorder_ofSettings ..) hverdicts
  have halike : Alike ((Tracer.new .environment).perform world operation).2.1
      ((Tracer.new .environment).perform world' operation).2.1 := by
    rw [hperform, hperform']
    exact .started _ _ _ hrecorder (Stream.recorder_ofSettings ..)
  refine ⟨halike, halike.outcome_eq ?_ ?_ rfl⟩
  · rw [hperform, hperform']
  · rw [htraffic, htraffic', hsame]

theorem perform_started (depth : UInt32) (catalogue : Catalogue) (inference : Inference)
    {definitions definitions' calls calls' : Stream}
    (hdefinitions : definitions.recorder = definitions'.recorder)
    (hcalls : calls.recorder = calls'.recorder) :
    let tracer := Tracer.started ⟨depth, catalogue, definitions⟩ ⟨inference, calls⟩
    let tracer' := Tracer.started ⟨depth, catalogue, definitions'⟩ ⟨inference, calls'⟩
    (tracer.definitionTraffic world operation).verdicts =
        (tracer'.definitionTraffic world' operation).verdicts →
      (tracer.callTraffic world operation).verdicts =
        (tracer'.callTraffic world' operation).verdicts →
      Alike (tracer.perform world operation).2.1 (tracer'.perform world' operation).2.1 ∧
        tracer.outcome ⟨operation, world⟩ = tracer'.outcome ⟨operation, world'⟩ := by
  intro tracer tracer' hverdicts hverdicts'
  have hperform : tracer.perform world operation = _ :=
    Tracer.perform_started depth catalogue definitions inference calls hclock operation
  have hperform' : tracer'.perform world' operation = _ :=
    Tracer.perform_started depth catalogue definitions' inference calls' rfl operation
  have htraffic : tracer.definitionTraffic world operation = _ :=
    definitionTraffic_started hclock depth catalogue definitions _
  have htraffic' : tracer'.definitionTraffic world' operation = _ :=
    definitionTraffic_started rfl depth catalogue definitions' _
  have hcallTraffic : tracer.callTraffic world operation = _ :=
    callTraffic_started hclock depth catalogue definitions inference calls
  have hcallTraffic' : tracer'.callTraffic world' operation = _ :=
    callTraffic_started rfl depth catalogue definitions' inference calls'
  rw [htraffic, htraffic'] at hverdicts
  rw [hcallTraffic, hcallTraffic'] at hverdicts'
  obtain ⟨hrecorder, hsame⟩ := Stream.run_congr hdefinitions hverdicts
  obtain ⟨hrecorder', hsame'⟩ := Stream.run_congr hcalls hverdicts'
  have halike :
      Alike (tracer.perform world operation).2.1 (tracer'.perform world' operation).2.1 := by
    rw [hperform, hperform']
    exact .started _ _ _ hrecorder hrecorder'
  refine ⟨halike, halike.outcome_eq ?_ ?_ ?_⟩
  · rw [hperform, hperform']
  · rw [htraffic, htraffic', hsame]
  · rw [hcallTraffic, hcallTraffic', hsame']

end

/-- **Alike tracers stay alike**, and a step brings about the same, if they start with the same
settings and the outlets come to the same verdicts. -/
theorem perform (h : Alike tracer tracer') {step step' : Step} (hevent : step.event = step'.event)
    (hsettings : tracer = .new .environment → step.operation.starts = true →
      step.settings = step'.settings)
    (hverdicts : (tracer.outcome step).verdicts = (tracer'.outcome step').verdicts) :
    Alike (tracer.perform step.world step.operation).2.1
        (tracer'.perform step'.world step'.operation).2.1 ∧
      tracer.outcome step = tracer'.outcome step' := by
  obtain ⟨operation, world⟩ := step
  obtain ⟨_, world'⟩ := step'
  obtain ⟨rfl, hclock⟩ := Prod.mk.inj hevent
  obtain ⟨hdefinitions, hcalls⟩ := Prod.mk.inj hverdicts
  cases h with
  | new =>
    cases hstarts : operation.starts with
    | false => exact perform_new_of_not_starts hstarts
    | true => exact perform_new_of_starts hclock hstarts (hsettings rfl hstarts) hdefinitions
  | started depth catalogue inference hrecorder hrecorder' =>
    exact perform_started hclock depth catalogue inference hrecorder hrecorder' hdefinitions hcalls

/-- Alike tracers with the same outlets are the same. -/
theorem eq_of_outlets_eq (h : Alike tracer tracer') {first first' : Step}
    (hstarted : StartedAt first tracer) (hstarted' : StartedAt first' tracer')
    (houtlets : first.outlets = first'.outlets) : tracer = tracer' := by
  obtain ⟨registry, callTracer, heq, hconfigured⟩ := hstarted
  obtain ⟨registry', callTracer', heq', hconfigured'⟩ := hstarted'
  cases h with
  | new => cases heq
  | started depth catalogue inference hdefinitions hcalls =>
    cases heq
    cases heq'
    have hsame {stream stream' : Stream} (hrecorder : stream.recorder = stream'.recorder)
        (houtlet : stream.outlet = stream'.outlet) : stream = stream' := by
      obtain ⟨recorder, outlet⟩ := stream
      obtain ⟨recorder', outlet'⟩ := stream'
      obtain rfl : recorder = recorder' := hrecorder
      obtain rfl : outlet = outlet' := houtlet
      rfl
    rw [← houtlets] at hconfigured'
    rw [hsame hdefinitions (hconfigured.definitions_configured.outlet_eq.trans
        hconfigured'.definitions_configured.outlet_eq.symm),
      hsame hcalls (hconfigured.calls_configured.outlet_eq.trans
        hconfigured'.calls_configured.outlet_eq.symm)]

end Alike

/-- **Runs that start with the same settings** bring about the same with each step. -/
theorem alike_after {steps steps' : List Step}
    (hevents : steps.map Step.event = steps'.map Step.event)
    (hsettings : settingsOf? steps = settingsOf? steps')
    (hverdicts : ((new .environment).outcomes steps).map Outcome.verdicts =
      ((new .environment).outcomes steps').map Outcome.verdicts) :
    Alike ((new .environment).after steps) ((new .environment).after steps') ∧
      (new .environment).outcomes steps = (new .environment).outcomes steps' := by
  induction steps generalizing steps' with
  | nil =>
    obtain rfl := List.map_eq_nil_iff.1 hevents.symm
    exact ⟨.new, rfl⟩
  | cons step earlier ih =>
    cases steps' with
    | nil => cases hevents
    | cons step' earlier' =>
      obtain ⟨hevent, hearlier⟩ := List.cons.inj hevents
      obtain ⟨hverdict, hverdicts⟩ := List.cons.inj hverdicts
      have hstarts : step'.operation.starts = step.operation.starts :=
        congrArg (fun event => event.1.starts) hevent.symm
      obtain ⟨hsettings, hstep⟩ := settingsOf?_of_cons hearlier hstarts hsettings
      obtain ⟨halike, houtcomes⟩ := ih hearlier hsettings hverdicts
      obtain ⟨halike', houtcome⟩ :=
        halike.perform hevent (fun hnew => hstep (settingsOf?_of_new hnew)) hverdict
      refine ⟨halike', ?_⟩
      rw [outcomes, outcomes, houtcome, houtcomes]

/-- With the same outlets, too, such runs come to the same tracer. -/
theorem after_eq_of_outlets_eq {steps steps' : List Step}
    (h : Alike ((new .environment).after steps) ((new .environment).after steps'))
    (houtlets : (startOf? steps).map Step.outlets = (startOf? steps').map Step.outlets) :
    (new .environment).after steps = (new .environment).after steps' := by
  have hafter := startedAt_after steps
  have hafter' := startedAt_after steps'
  cases hfirst : startOf? steps with
  | none =>
    rw [hfirst] at hafter houtlets
    have hfirst' : startOf? steps' = none := Option.map_eq_none_iff.1 houtlets.symm
    rw [hfirst'] at hafter'
    exact hafter.trans hafter'.symm
  | some first =>
    rw [hfirst] at hafter houtlets
    obtain ⟨first', hfirst', hsame⟩ := Option.map_eq_some_iff.1 houtlets.symm
    rw [hfirst'] at hafter'
    exact h.eq_of_outlets_eq hafter hafter' hsame.symm

/-- **A tracer is configured once.** Whatever is done in whatever surroundings, the registry and the
call tracer have both started or neither has, by whether a function of a named script was created;
stacks are collected if the depth is more than one; and depth, scope, capacities and outlets are
those of the environment at the first such creation. Runs of the same operations at the same times
that start with the same settings and meet the same verdicts give the same ids, states, counters,
records and deliveries, and come to the same tracer if they open the same outlets. -/
theorem configured_once :
    (∀ steps : List Step,
      let tracer := (new .environment).after steps
      (tracer.registry.isStarted = true ↔ ∃ step ∈ steps, step.operation.starts = true) ∧
        (tracer.calls.isStarted = true ↔ tracer.registry.isStarted = true) ∧
        tracer.calls.collects = tracer.registry.depth?.any (fun depth => 1 < depth) ∧
        ∀ first, startOf? steps = some first → StartedAt first tracer) ∧
      ∀ steps steps' : List Step, steps.map Step.event = steps'.map Step.event →
        settingsOf? steps = settingsOf? steps' →
        ((new .environment).outcomes steps).map Outcome.verdicts =
          ((new .environment).outcomes steps').map Outcome.verdicts →
        (new .environment).outcomes steps = (new .environment).outcomes steps' ∧
          ((startOf? steps).map Step.outlets = (startOf? steps').map Step.outlets →
            (new .environment).after steps = (new .environment).after steps') := by
  refine ⟨configuration_after, fun steps steps' hevents hsettings hverdicts => ?_⟩
  obtain ⟨halike, houtcomes⟩ := alike_after hevents hsettings hverdicts
  exact ⟨houtcomes, after_eq_of_outlets_eq halike⟩

/-- A tracer is asked for a function, is started by one that is out of scope, enters it and flushes.
In one run the environment is another one at each other moment, and a server refuses the calls that
in the other run find none. -/
theorem configured_once_refused :
    let asked : Environment := fun key =>
      if key = "TRACE_DEPTH" then some "1"
      else if key = "TRACE_ENTRYPOINT" then some "localhost" else none
    let other : Environment := fun key => if key = "TRACE_DEPTH" then some "9" else none
    let world : World := ⟨⟨[], []⟩, [], asked, 5, "1"⟩
    let world' : World := ⟨⟨[], []⟩, [⟨"localhost:80", 0, #[]⟩], other, 5, "2"⟩
    let script : Script := .withoutSource "node:fs"
    let literal : Literal := ⟨1, none, none, none, 0, "f"⟩
    let operations : List Operation :=
      [.flush, .enter (some ⟨0, by decide⟩) [], .create script literal false,
        .lookup script literal]
    let steps := operations.map fun operation => Step.mk operation world
    let steps' := operations.map fun operation =>
      Step.mk operation (if operation.starts then { world' with environment := asked } else world')
    settingsOf? steps = settingsOf? steps' ∧
      ((new .environment).outcomes steps).map Outcome.verdicts =
        [([], [false]), ([], []), ([], []), ([], [])] ∧
      ((new .environment).outcomes steps').map Outcome.verdicts =
        [([], [false]), ([], []), ([], []), ([], [])] ∧
      (new .environment).outcomes steps = (new .environment).outcomes steps' ∧
      (startOf? steps).map Step.outlets = (startOf? steps').map Step.outlets ∧
      (new .environment).after steps = (new .environment).after steps' ∧
      ((new .environment).after steps').calls.collects = false := by
  intro asked other world world' script literal operations steps steps'
  obtain ⟨hruns, htwo⟩ := configured_once
  have hsettings : settingsOf? steps = settingsOf? steps' := rfl
  have hverdicts : ((new .environment).outcomes steps).map Outcome.verdicts =
      [([], [false]), ([], []), ([], []), ([], [])] := by decide +kernel
  have hverdicts' : ((new .environment).outcomes steps').map Outcome.verdicts =
      [([], [false]), ([], []), ([], []), ([], [])] := by decide +kernel
  have houtlets : (startOf? steps).map Step.outlets = (startOf? steps').map Step.outlets := rfl
  obtain ⟨houtcomes, hafter⟩ :=
    htwo steps steps' rfl hsettings (hverdicts.trans hverdicts'.symm)
  refine ⟨hsettings, hverdicts, hverdicts', houtcomes, houtlets, hafter houtlets, ?_⟩
  obtain ⟨-, -, hcollects, hstarted⟩ := hruns steps'
  have hfirst : startOf? steps' =
      some ⟨.create script literal false, { world' with environment := asked }⟩ := rfl
  obtain ⟨registry, callTracer, htracer, hconfigured⟩ := hstarted _ hfirst
  have hdepth : (started registry callTracer).registry.depth? = some registry.depth := rfl
  rw [hcollects, htracer, hdepth, Option.any_some, hconfigured.depth_eq]
  decide

end CallTrace.Tracer
