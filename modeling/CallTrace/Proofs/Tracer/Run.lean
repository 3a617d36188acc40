import CallTrace.Proofs.CallTracer.Recorded
import CallTrace.Proofs.Inference
import CallTrace.Proofs.Registry
import CallTrace.Tracer

/-!
# Runs of a tracer

A run performs operations of all kinds in any order, but enters and leaves only functions whose
ids the tracer gave before (`Tracer.Run`). Whatever the run, the tracer either has not started, or
has announced a definition for every id that it gave, that its inference holds, and that it told
of in a call (`Tracer.Sound`, `Tracer.Run.sound`).
-/

namespace CallTrace.Tracer

/-! ## Operations -/

/-- An operation of a tracer. -/
inductive Operation where
  | create (script : Script) (literal : Literal) (isConstructor : Bool)
  | lookup (script : Script) (literal : Literal)
  | enter (callee : Option FunctionId) (stack : List Frame)
  | exit (callee : Option FunctionId)
  | forget (key : FunctionKey)
  | flush

/-- The operation enters and leaves only functions with the given ids. -/
def Operation.Uses (given : List FunctionId) : Operation → Prop
  | enter callee _ => ∀ id ∈ callee, id ∈ given
  | exit callee => ∀ id ∈ callee, id ∈ given
  | _ => True

/-- Performs an operation, and tells the id that it gives. -/
def perform (tracer : Tracer) (world : World) : Operation → Option FunctionId × Tracer × World
  | .create script literal isConstructor => tracer.create script literal isConstructor world
  | .lookup script literal => (tracer.lookup script literal, tracer, world)
  | .enter callee stack => (none, tracer.enter callee stack world)
  | .exit callee => (none, tracer.exit callee world)
  | .forget key => (none, (tracer.forget key).2, world)
  | .flush => (none, tracer.flush world)

/-- A tracer that captures both streams. -/
def capturing (settings : Settings) : Tracer :=
  withOutlets settings (.capture #[]) (.capture #[])

/-- Runs of a capturing tracer, with the ids that it gave: operations one after the other, each in
the world of its moment, that use only ids given before. -/
inductive Run (settings : Settings) : Tracer → List FunctionId → Prop
  | start : Run settings (capturing settings) []
  | perform {tracer : Tracer} {given : List FunctionId} (h : Run settings tracer given)
      {operation : Operation} (huses : operation.Uses given) (world : World) :
      Run settings (tracer.perform world operation).2.1
        (given ++ (tracer.perform world operation).1.toList)

/-! ## The invariant -/

/-- The tracer has started and announced the definitions, and recorded the calls. All ids that it
holds and told of are announced; where stacks are collected, the calls are the known pairs. -/
structure Sound (settings : Settings) (tracer : Tracer) (inference : Inference)
    (definitions : List Definition) (calls : List Call) : Prop where
  announced : tracer.registry.Announced settings.stackDepth definitions
  recorded : tracer.calls.Recorded inference calls
  collects_eq : inference.collects = decide (1 < settings.stackDepth)
  within : inference.Within fun id => id.val < definitions.length
  told : inference.collects = true → inference.Told calls
  calls_within : ∀ call ∈ calls, call.Within fun id => id.val < definitions.length

namespace Sound

variable {settings : Settings} {tracer : Tracer} {inference : Inference}
  {definitions : List Definition} {calls : List Call}

theorem create (h : tracer.Sound settings inference definitions calls) (script : Script)
    (literal : Literal) (isConstructor : Bool) (world : World) :
    ∃ more, (tracer.create script literal isConstructor world).2.1.Sound settings inference
        (definitions ++ more) calls ∧
      ∀ id ∈ (tracer.create script literal isConstructor world).1,
        id.val < (definitions ++ more).length := by
  obtain ⟨registry, callTracer⟩ := tracer
  obtain ⟨-, more, hannounced, hid⟩ := h.announced.register script literal isConstructor world
  have hmore (id : FunctionId) (hlt : id.val < definitions.length) :
      id.val < (definitions ++ more).length := by
    rw [List.length_append]
    omega
  unfold Tracer.create
  dsimp only at hannounced hid ⊢
  generalize registry.register script literal isConstructor world = registered at hannounced hid
  obtain ⟨id, registry', world'⟩ := registered
  have hrecorded : callTracer.Recorded inference calls := h.recorded
  simp only [followRegistry, hannounced.depth?_eq, hrecorded.start]
  exact ⟨more, ⟨hannounced, hrecorded, h.collects_eq, h.within.mono hmore, h.told,
    fun call hcall => (h.calls_within call hcall).mono hmore⟩, hid⟩

theorem enter (h : tracer.Sound settings inference definitions calls) {callee : Option FunctionId}
    (hcallee : ∀ id ∈ callee, id.val < definitions.length) (stack : List Frame) (world : World) :
    (tracer.enter callee stack world).1.Sound settings
      (inference.enter callee stack world.clock).1 definitions
      (calls ++ (inference.enter callee stack world.clock).2) := by
  refine ⟨h.announced, (h.recorded.enter callee stack world).2,
    (Inference.enter_collects ..).trans h.collects_eq, h.within.enter hcallee stack world.clock,
    fun hcollects => ?_, fun call hcall => ?_⟩
  · rw [Inference.enter_collects] at hcollects
    exact (h.told hcollects).enter hcollects callee stack world.clock
  · rcases List.mem_append.1 hcall with hcall | hcall
    · exact h.calls_within call hcall
    · exact h.within.calls_enter hcallee call hcall

theorem exit (h : tracer.Sound settings inference definitions calls) {callee : Option FunctionId}
    (hcallee : ∀ id ∈ callee, id.val < definitions.length) (world : World) :
    (tracer.exit callee world).1.Sound settings inference definitions
      (calls ++ inference.exit callee world.clock) := by
  refine ⟨h.announced, (h.recorded.exit callee world).2, h.collects_eq, h.within,
    fun hcollects => ?_, fun call hcall => ?_⟩
  · rw [Inference.exit_of_collects hcollects, List.append_nil]
    exact h.told hcollects
  · rcases List.mem_append.1 hcall with hcall | hcall
    · exact h.calls_within call hcall
    · exact Inference.Within.calls_exit hcallee call hcall

theorem forget (h : tracer.Sound settings inference definitions calls) (key : FunctionKey) :
    (tracer.forget key).2.Sound settings (inference.forget key).2 definitions calls :=
  ⟨h.announced, h.recorded.forget key, h.collects_eq, h.within.forget key,
    fun hcollects => (h.told hcollects).forget key, h.calls_within⟩

theorem flush (h : tracer.Sound settings inference definitions calls) (world : World) :
    (tracer.flush world).1.Sound settings inference definitions calls :=
  ⟨(h.announced.flush world).2, (h.recorded.flush _).2, h.collects_eq, h.within, h.told,
    h.calls_within⟩

/-- An operation that uses only announced ids leaves all ids announced. -/
theorem perform (h : tracer.Sound settings inference definitions calls) {given : List FunctionId}
    (hgiven : ∀ id ∈ given, id.val < definitions.length) {operation : Operation}
    (huses : operation.Uses given) (world : World) :
    ∃ inference' definitions' calls',
      (tracer.perform world operation).2.1.Sound settings inference' definitions' calls' ∧
        ∀ id ∈ given ++ (tracer.perform world operation).1.toList,
          id.val < definitions'.length := by
  have hnone {definitions' : List Definition} (hle : definitions.length ≤ definitions'.length)
      {answer : Option FunctionId} (hanswer : ∀ id ∈ answer, id.val < definitions'.length) :
      ∀ id ∈ given ++ answer.toList, id.val < definitions'.length := by
    intro id hid
    rcases List.mem_append.1 hid with hid | hid
    · exact Nat.lt_of_lt_of_le (hgiven id hid) hle
    · exact hanswer id (Option.mem_toList.1 hid)
  have hcallee {callee : Option FunctionId} (huses : ∀ id ∈ callee, id ∈ given) :
      ∀ id ∈ callee, id.val < definitions.length :=
    fun id hid => hgiven id (huses id hid)
  cases operation with
  | create script literal isConstructor =>
    obtain ⟨more, hsound, hid⟩ := h.create script literal isConstructor world
    refine ⟨_, _, _, hsound, hnone ?_ hid⟩
    rw [List.length_append]
    exact Nat.le_add_right _ _
  | lookup script literal =>
    exact ⟨_, _, _, h, hnone (Nat.le_refl _) (h.announced.lookup script literal)⟩
  | enter callee stack =>
    exact ⟨_, _, _, h.enter (hcallee huses) stack world,
      hnone (Nat.le_refl _) fun _ hid => by cases hid⟩
  | exit callee =>
    exact ⟨_, _, _, h.exit (hcallee huses) world, hnone (Nat.le_refl _) fun _ hid => by cases hid⟩
  | forget key =>
    exact ⟨_, _, _, h.forget key, hnone (Nat.le_refl _) fun _ hid => by cases hid⟩
  | flush =>
    exact ⟨_, _, _, h.flush world, hnone (Nat.le_refl _) fun _ hid => by cases hid⟩

end Sound

/-- The first function of a named script starts the tracer. -/
theorem sound_create (settings : Settings) {script : Script} (hname : ¬script.name.isNone = true)
    (literal : Literal) (isConstructor : Bool) (world : World) :
    ∃ definitions, ((capturing settings).create script literal isConstructor world).2.1.Sound
        settings (.new settings.stackDepth) definitions [] ∧
      ∀ id ∈ ((capturing settings).create script literal isConstructor world).1,
        id.val < definitions.length := by
  obtain ⟨hworld, hannounced⟩ := Registry.announced_start settings world
  obtain ⟨-, definitions, hregistered, hid⟩ := Registry.Announced.register_of_start
    (Prod.ext rfl hworld) hannounced hname literal isConstructor
  unfold Tracer.create capturing withOutlets
  dsimp only
  generalize Registry.register _ script literal isConstructor world = registered at hregistered hid
  obtain ⟨id, registry, world'⟩ := registered
  obtain ⟨-, hrecorded⟩ :=
    CallTracer.recorded_start (.fixed settings) settings.stackDepth world'
  simp only [followRegistry, hregistered.depth?_eq]
  exact ⟨definitions, ⟨hregistered, hrecorded, rfl, Inference.within_new _ _,
    fun _ => Inference.told_new _, fun call hcall => absurd hcall List.not_mem_nil⟩, hid⟩

/-- Nothing else starts the tracer. -/
theorem perform_capturing (settings : Settings) (world : World) {operation : Operation}
    (h : ∀ script literal isConstructor, operation = .create script literal isConstructor →
      script.name.isNone = true) :
    ((capturing settings).perform world operation).1 = none ∧
      ((capturing settings).perform world operation).2.1 = capturing settings := by
  cases operation with
  | create script literal isConstructor =>
    simp only [perform, create, capturing, withOutlets,
      Registry.register_of_isNone (h script literal isConstructor rfl)]
    exact ⟨trivial, rfl⟩
  | lookup script literal => exact ⟨rfl, rfl⟩
  | enter callee stack => exact ⟨rfl, rfl⟩
  | exit callee => exact ⟨rfl, rfl⟩
  | forget key => exact ⟨rfl, rfl⟩
  | flush => exact ⟨rfl, rfl⟩

/-- **What a run of a tracer keeps:** it has not started, or all ids are announced. -/
theorem Run.sound {settings : Settings} {tracer : Tracer} {given : List FunctionId}
    (h : Run settings tracer given) :
    (tracer = capturing settings ∧ given = []) ∨
      ∃ inference definitions calls, tracer.Sound settings inference definitions calls ∧
        ∀ id ∈ given, id.val < definitions.length := by
  induction h with
  | start => exact .inl ⟨rfl, rfl⟩
  | @perform tracer given _ operation huses world ih =>
    rcases ih with ⟨rfl, rfl⟩ | ⟨inference, definitions, calls, hsound, hgiven⟩
    · by_cases hstarts : ∃ script literal isConstructor,
          operation = .create script literal isConstructor ∧ ¬script.name.isNone = true
      · obtain ⟨script, literal, isConstructor, rfl, hname⟩ := hstarts
        obtain ⟨definitions, hsound, hid⟩ :=
          sound_create settings hname literal isConstructor world
        refine .inr ⟨_, definitions, [], hsound, fun id hmem => hid id ?_⟩
        exact Option.mem_toList.1 hmem
      · -- nothing was created, so the tracer is as it was
        obtain ⟨hanswer, hsame⟩ := perform_capturing settings world
          fun script literal isConstructor heq => Decidable.byContradiction fun hname =>
            hstarts ⟨script, literal, isConstructor, heq, hname⟩
        rw [hanswer, hsame]
        exact .inl ⟨rfl, rfl⟩
    · exact .inr (hsound.perform hgiven huses world)

end CallTrace.Tracer
