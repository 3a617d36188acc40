import CallTrace.Proofs.Tracer.Operation

/-!
# When a tracer starts

The registry and the call tracer each read the environment on their own, and only a creation ties
them together. Still both start with the same step of a run, the first creation of a function of a
named script (`Tracer.startOf?`), and take the settings of that moment. No later step changes the
configuration (`Tracer.Configured.perform`), so it tells what the environment was then
(`Tracer.startedAt_after`, `Tracer.configuration_after`).
-/

namespace CallTrace

/-- The stream has a buffer of the size that the settings ask for, and the outlet. -/
structure Stream.Configured (settings : Settings) (outlet : Outlet) (stream : Stream) : Prop where
  capacity_eq : stream.recorder.buffer.capacity = settings.capacity
  outlet_eq : stream.outlet = outlet

theorem Stream.configured_ofSettings (settings : Settings) (outlet : Outlet) :
    (ofSettings settings outlet).Configured settings outlet :=
  ⟨rfl, rfl⟩

/-- The outlet does not matter to what a stream starts with. -/
theorem Stream.recorder_ofSettings (settings : Settings) (outlet outlet' : Outlet) :
    (ofSettings settings outlet).recorder = (ofSettings settings outlet').recorder :=
  rfl

theorem Stream.Configured.run {settings : Settings} {outlet : Outlet} {stream : Stream}
    (h : stream.Configured settings outlet) (hcapture : ∀ batches, outlet ≠ .capture batches)
    (world : World) (steps : List (StreamStep Record)) :
    (stream.run id world steps).1.Configured settings outlet := by
  obtain ⟨hcapacity, rfl⟩ := h
  obtain ⟨hcapacity', houtlet, -⟩ := stream.run_keeps world steps
  exact ⟨hcapacity'.trans hcapacity, houtlet hcapture⟩

namespace Tracer

/-! ## Runs -/

structure Step where
  operation : Operation
  world : World

/-- The settings that the environment asks for at the moment of a step. -/
def Step.settings (step : Step) : Settings :=
  Settings.ofEnvironment step.world.environment

/-- What a step has apart from its surroundings. -/
def Step.event (step : Step) : Operation × Int64 :=
  (step.operation, step.world.clock)

def after (tracer : Tracer) : List Step → Tracer
  | [] => tracer
  | step :: earlier => ((tracer.after earlier).perform step.world step.operation).2.1

/-- The first creation of a function of a named script in a history. -/
def startOf? (steps : List Step) : Option Step :=
  steps.reverse.find? fun step => step.operation.starts

theorem startOf?_cons (step : Step) (earlier : List Step) :
    startOf? (step :: earlier) =
      (startOf? earlier).or (if step.operation.starts then some step else none) := by
  rw [startOf?, List.reverse_cons, List.find?_append, List.find?_singleton]
  rfl

theorem isSome_startOf? (steps : List Step) :
    (startOf? steps).isSome = true ↔ ∃ step ∈ steps, step.operation.starts = true := by
  simp [startOf?]

/-- The settings of the moment at which a history starts a tracer. -/
def settingsOf? (steps : List Step) : Option Settings :=
  (startOf? steps).map Step.settings

theorem settingsOf?_cons (step : Step) (earlier : List Step) :
    settingsOf? (step :: earlier) =
      (settingsOf? earlier).or (if step.operation.starts then some step.settings else none) := by
  unfold settingsOf?
  rw [startOf?_cons]
  cases startOf? earlier with
  | some first => rfl
  | none => cases step.operation.starts <;> rfl

/-- Whether a history starts a tracer does not depend on the surroundings. -/
theorem isSome_settingsOf?_congr {steps steps' : List Step}
    (hevents : steps.map Step.event = steps'.map Step.event) :
    (settingsOf? steps).isSome = (settingsOf? steps').isSome := by
  have hstarts (steps : List Step) :
      (settingsOf? steps).isSome = (steps.map Step.event).any fun event => event.1.starts := by
    rw [Bool.eq_iff_iff, settingsOf?, Option.isSome_map, isSome_startOf?]
    simp [Step.event]
  rw [hstarts, hstarts, hevents]

/-- Histories that start a tracer with the same settings did so before, or do it with the latest
step. -/
theorem settingsOf?_of_cons {step step' : Step} {earlier earlier' : List Step}
    (hearlier : earlier.map Step.event = earlier'.map Step.event)
    (hstarts : step'.operation.starts = step.operation.starts)
    (h : settingsOf? (step :: earlier) = settingsOf? (step' :: earlier')) :
    settingsOf? earlier = settingsOf? earlier' ∧
      (settingsOf? earlier = none → step.operation.starts = true →
        step.settings = step'.settings) := by
  have hsome := isSome_settingsOf?_congr hearlier
  rw [settingsOf?_cons, settingsOf?_cons, hstarts] at h
  cases hsettings : settingsOf? earlier with
  | some settings =>
    rw [hsettings] at h hsome
    obtain ⟨settings', hsettings'⟩ := Option.isSome_iff_exists.1 hsome.symm
    rw [hsettings'] at h ⊢
    exact ⟨h, fun hnone => by cases hnone⟩
  | none =>
    rw [hsettings] at h hsome
    have hnone : settingsOf? earlier' = none :=
      Option.isNone_iff_eq_none.1 (Option.isSome_eq_false_iff.1 hsome.symm)
    rw [hnone] at h ⊢
    refine ⟨rfl, fun _ hstep => ?_⟩
    rw [if_pos hstep, if_pos hstep] at h
    exact Option.some.inj h

/-! ## The configuration -/

/-- Both parts of the tracer have the settings, and their streams lead to the outlets. -/
structure Configured (settings : Settings) (definitions calls : Outlet)
    (registry : Registry.State) (callTracer : CallTracer.State) : Prop where
  depth_eq : registry.depth = settings.stackDepth
  scope_eq : registry.catalogue.scope = ⟨settings.traceAll⟩
  collects_eq : callTracer.inference.collects = decide (1 < settings.stackDepth)
  definitions_configured : registry.stream.Configured settings definitions
  calls_configured : callTracer.stream.Configured settings calls

namespace Configured

variable {settings : Settings} {definitions calls : Outlet} {registry : Registry.State}
  {callTracer : CallTracer.State}

theorem perform (h : Configured settings definitions calls registry callTracer)
    (hdefinitions : ∀ batches, definitions ≠ .capture batches)
    (hcalls : ∀ batches, calls ≠ .capture batches) (world : World) (operation : Operation) :
    ∃ registry' callTracer', ((started registry callTracer).perform world operation).2.1 =
        started registry' callTracer' ∧
      Configured settings definitions calls registry' callTracer' := by
  obtain ⟨depth, catalogue, stream⟩ := registry
  obtain ⟨inference, stream'⟩ := callTracer
  obtain ⟨hdepth, hscope, hcollects, hstream, hstream'⟩ := h
  rw [perform_started depth catalogue stream inference stream' rfl]
  refine ⟨_, _, rfl, hdepth, ?_, ?_, hstream.run hdefinitions _ _, hstream'.run hcalls _ _⟩
  · exact (catalogue.respond_scope depth world.clock operation).trans hscope
  · exact (inference.respond_collects world.clock operation).trans hcollects

end Configured

/-- The outlets that can be opened if the step is the first one: that of definitions, and that of
calls after the function was registered. -/
def Step.outlets (first : Step) : Outlet × Outlet :=
  ((Outlet.ofSettings first.settings definitionFileStem first.world).1,
    (Outlet.ofSettings first.settings callFileStem
      ((new .environment).worldForCalls first.world first.operation)).1)

/-- The tracer has started with the step, with the settings of its moment. -/
def StartedAt (first : Step) (tracer : Tracer) : Prop :=
  ∃ registry callTracer, tracer = started registry callTracer ∧
    Configured first.settings first.outlets.1 first.outlets.2 registry callTracer

namespace StartedAt

variable {first : Step} {tracer : Tracer}

theorem start (h : first.operation.starts = true) :
    StartedAt first ((new .environment).perform first.world first.operation).2.1 := by
  obtain ⟨hworld, hperform⟩ := perform_new_of_starts h rfl (Eq.refl first.world.clock)
  unfold StartedAt Step.outlets
  rw [hworld, hperform]
  refine ⟨_, _, rfl, rfl, ?_, rfl, ?_, Stream.configured_ofSettings _ _⟩
  · exact Catalogue.respond_scope _ _ _ _
  · exact (Stream.configured_ofSettings _ _).run (Outlet.ofSettings_ne_capture _ _ _) _ _

theorem perform (h : StartedAt first tracer) (world : World) (operation : Operation) :
    StartedAt first (tracer.perform world operation).2.1 := by
  obtain ⟨registry, callTracer, rfl, hconfigured⟩ := h
  exact hconfigured.perform (Outlet.ofSettings_ne_capture _ _ _)
    (Outlet.ofSettings_ne_capture _ _ _) world operation

theorem isStarted (h : StartedAt first tracer) :
    tracer.registry.isStarted = true ∧ tracer.calls.isStarted = true := by
  obtain ⟨registry, callTracer, rfl, -⟩ := h
  exact ⟨rfl, rfl⟩

theorem collects_eq (h : StartedAt first tracer) :
    tracer.calls.collects = tracer.registry.depth?.any fun depth => 1 < depth := by
  obtain ⟨registry, callTracer, rfl, hconfigured⟩ := h
  have hdepth : (started registry callTracer).registry.depth? = some registry.depth := rfl
  rw [hdepth, Option.any_some, hconfigured.depth_eq]
  exact hconfigured.collects_eq

end StartedAt

/-- **When a tracer starts:** at the first creation of a function of a named script, and not before.
-/
theorem startedAt_after (steps : List Step) :
    match startOf? steps with
    | none => (new .environment).after steps = new .environment
    | some first => StartedAt first ((new .environment).after steps) := by
  induction steps with
  | nil => rfl
  | cons step earlier ih =>
    rw [startOf?_cons, after]
    cases hfirst : startOf? earlier with
    | some first =>
      rw [hfirst] at ih
      exact StartedAt.perform ih step.world step.operation
    | none =>
      rw [hfirst] at ih
      rw [ih]
      cases hstarts : step.operation.starts with
      | true => exact StartedAt.start hstarts
      | false => exact congrArg (·.2.1) (perform_new_of_not_starts hstarts step.world)

theorem settingsOf?_of_new {steps : List Step}
    (h : (new .environment).after steps = new .environment) : settingsOf? steps = none := by
  have hafter := startedAt_after steps
  unfold settingsOf?
  cases hfirst : startOf? steps with
  | none => rfl
  | some first =>
    rw [hfirst, h] at hafter
    cases StartedAt.isStarted hafter with
    | intro hstarted _ => cases hstarted

/-- Both parts of a tracer have started, with the first creation of a function of a named script, or
neither has. -/
theorem configuration_after (steps : List Step) :
    let tracer := (new .environment).after steps
    (tracer.registry.isStarted = true ↔ ∃ step ∈ steps, step.operation.starts = true) ∧
      (tracer.calls.isStarted = true ↔ tracer.registry.isStarted = true) ∧
      tracer.calls.collects = tracer.registry.depth?.any (fun depth => 1 < depth) ∧
      ∀ first, startOf? steps = some first → StartedAt first tracer := by
  intro tracer
  have hafter := startedAt_after steps
  rw [← isSome_startOf?]
  cases hfirst : startOf? steps with
  | none =>
    rw [hfirst] at hafter
    have hnew : tracer = new .environment := hafter
    rw [hnew]
    refine ⟨by decide, Iff.rfl, rfl, fun first h => by cases h⟩
  | some first =>
    rw [hfirst] at hafter
    have hstarted : StartedAt first tracer := hafter
    obtain ⟨hregistry, hcalls⟩ := hstarted.isStarted
    rw [hregistry, hcalls]
    refine ⟨by simp, Iff.rfl, hstarted.collects_eq, ?_⟩
    rintro _ ⟨⟩
    exact hstarted

end Tracer

end CallTrace
