import CallTrace.Proofs.CallTracer.Operation
import CallTrace.Proofs.Counting
import CallTrace.Proofs.Inference

/-!
# Callers and registrants by history

Which id a function object has, and who handed it over, is the last word of the history on it
(`CallTracer.trackedIn`, `CallTracer.registrantIn`). A tracer that collects stacks remembers just
that, whatever it did (`Inference.Remembers.after`). So the caller of an entry can be read off the
history (`CallTracer.caller_by_history`), and so can the one to whom a callback is attributed
(`CallTracer.callback_by_history`).
-/

namespace CallTrace

namespace CallTracer

/-! ## The last word of a history -/

/-- What the latest operation said that said anything. Each speaks in the light of those before it;
what it says may be that nothing holds any more. -/
def lastWord {α : Type} (word : List Operation → Operation → Option (Option α)) :
    List Operation → Option α
  | [] => none
  | operation :: earlier => (word earlier operation).getD (lastWord word earlier)

/-- An entry gives the function object on top the id of the callee; forgetting takes it away. -/
def Operation.idWord (key : FunctionKey) : Operation → Option (Option FunctionId)
  | .enter (some callee) (top :: _) => if top.key = key then some (some callee) else none
  | .forget forgotten => if forgotten = key then some none else none
  | _ => none

/-- The id of a function object after a history: that of the last entry with it on top, unless it
was forgotten since. -/
def trackedIn (history : List Operation) (key : FunctionKey) : Option FunctionId :=
  lastWord (fun _ => Operation.idWord key) history

/-- The caller of an entry that comes after a history: the first below the top that has an id, where
the entry itself counts. -/
def callerIn (history : List Operation) : Operation → Option FunctionId
  | .enter (some callee) (top :: below) =>
    below.findSome? fun frame =>
      trackedIn (.enter (some callee) (top :: below) :: history) frame.key
  | _ => none

/-- An entry with a caller hands over what its top frame was given; forgetting takes it away. -/
def Operation.registrantWord (key : FunctionKey) (earlier : List Operation) :
    Operation → Option (Option FunctionId)
  | .enter callee (top :: below) =>
    if key ∈ top.callables then (callerIn earlier (.enter callee (top :: below))).map some
    else none
  | .forget forgotten => if forgotten = key then some none else none
  | _ => none

/-- Who handed a function object over: the caller of the last entry that had a caller and was given
the object, unless it was forgotten since. -/
def registrantIn (history : List Operation) (key : FunctionKey) : Option FunctionId :=
  lastWord (Operation.registrantWord key) history

section

variable (history : List Operation) (key : FunctionKey)

theorem trackedIn_enter (callee : FunctionId) (top : Frame) (below : List Frame) :
    trackedIn (.enter (some callee) (top :: below) :: history) key =
      if top.key = key then some callee else trackedIn history key := by
  rw [trackedIn, lastWord, Operation.idWord]
  split <;> rfl

theorem trackedIn_forget (forgotten : FunctionKey) :
    trackedIn (.forget forgotten :: history) key =
      if forgotten = key then none else trackedIn history key := by
  rw [trackedIn, lastWord, Operation.idWord]
  split <;> rfl

theorem registrantIn_enter (callee : Option FunctionId) (top : Frame) (below : List Frame) :
    registrantIn (.enter callee (top :: below) :: history) key =
      if key ∈ top.callables then
        (callerIn history (.enter callee (top :: below))).or (registrantIn history key)
      else registrantIn history key := by
  rw [registrantIn, lastWord, Operation.registrantWord]
  split
  · cases callerIn history (.enter callee (top :: below)) <;> rfl
  · rfl

theorem registrantIn_forget (forgotten : FunctionKey) :
    registrantIn (.forget forgotten :: history) key =
      if forgotten = key then none else registrantIn history key := by
  rw [registrantIn, lastWord, Operation.registrantWord]
  split <;> rfl

end

end CallTracer

/-! ## What an inference remembers -/

namespace Inference

open CallTracer

/-- The inference collects stacks, and holds what the history says. -/
structure Remembers (inference : Inference) (history : List Operation) : Prop where
  collects : inference.collects = true
  tracked : ∀ key : FunctionKey, inference.tracked[key]? = trackedIn history key
  registrants : ∀ key : FunctionKey, inference.registrants[key]? = registrantIn history key

theorem remembers_new {depth : UInt32} (h : 1 < depth) : (new depth).Remembers [] where
  collects := decide_eq_true h
  tracked _ := Std.HashMap.getElem?_empty
  registrants _ := Std.HashMap.getElem?_empty

namespace Remembers

variable {inference : Inference} {history : List Operation}

/-- The caller that the inference finds is that of the history. -/
theorem caller?_eq (h : inference.Remembers history) (callee : FunctionId) (top : Frame)
    (below : List Frame) :
    (inference.track top.key callee).caller? below =
      callerIn history (.enter (some callee) (top :: below)) := by
  rw [caller?, callerIn]
  congr 1
  funext frame
  rw [trackedIn_enter, ← h.tracked, track, Std.HashMap.getElem?_insert]
  simp only [beq_iff_eq]

theorem enterStack (h : inference.Remembers history) (callee : FunctionId) (clock : Int64)
    (top : Frame) (below : List Frame) :
    (inference.enterStack callee clock (top :: below)).1.Remembers
      (.enter (some callee) (top :: below) :: history) where
  collects := (enterStack_collects ..).trans h.collects
  tracked key := by
    rw [enterStack_tracked, trackedIn_enter, ← h.tracked, Std.HashMap.getElem?_insert]
    simp only [beq_iff_eq]
  registrants key := by
    rw [getElem?_enterStack_registrants, registrantIn_enter, h.caller?_eq, h.registrants]

theorem forget (h : inference.Remembers history) (key : FunctionKey) :
    (inference.forget key).2.Remembers (.forget key :: history) where
  collects := h.collects
  tracked key' := by
    rw [trackedIn_forget, ← h.tracked, Inference.forget, Std.HashMap.getElem?_erase]
    simp only [beq_iff_eq]
  registrants key' := by
    rw [registrantIn_forget, ← h.registrants, Inference.forget, Std.HashMap.getElem?_erase]
    simp only [beq_iff_eq]

/-- What an operation adds to the history, it adds to what is remembered. -/
theorem perform (h : inference.Remembers history) (clock : Int64) (operation : Operation) :
    (inference.perform clock operation).1.Remembers (operation :: history) := by
  cases operation with
  | start depth => exact ⟨h.collects, h.tracked, h.registrants⟩
  | enter callee stack =>
    cases callee with
    | none =>
      refine ⟨h.collects, h.tracked, fun key => ?_⟩
      cases stack with
      | nil => exact h.registrants key
      | cons top below =>
        rw [registrantIn_enter]
        simp only [callerIn, Option.none_or, ite_self]
        exact h.registrants key
    | some callee =>
      simp only [Inference.perform, enter, h.collects, if_true]
      cases stack with
      | nil => exact ⟨h.collects, h.tracked, h.registrants⟩
      | cons top below => exact h.enterStack callee clock top below
  | exit callee => exact ⟨h.collects, h.tracked, h.registrants⟩
  | forget key => exact h.forget key
  | flush => exact ⟨h.collects, h.tracked, h.registrants⟩

theorem after (h : inference.Remembers []) (steps : List Step) :
    (inference.after steps).Remembers (steps.map Step.operation) := by
  induction steps with
  | nil => exact h
  | cons step earlier ih => exact ih.perform step.world.clock step.operation

/-- An entry makes the pairs of its registrant and its caller with the callee known, and no
others. -/
theorem mem_known_enter_cons (h : inference.Remembers history) (callee : FunctionId) (top : Frame)
    (below : List Frame) (clock : Int64) (pair : FunctionId × FunctionId) :
    pair ∈ (inference.enter (some callee) (top :: below) clock).1.known ↔
      pair ∈ inference.known ∨ pair.2 = callee ∧
        (registrantIn history top.key = some pair.1 ∨
          callerIn history (.enter (some callee) (top :: below)) = some pair.1) := by
  simp only [enter, h.collects, if_true]
  rw [mem_enterStack_known, callers, List.mem_append, Option.mem_toList, Option.mem_toList,
    h.caller?_eq, h.registrants, and_comm]

theorem mem_known_enter (h : inference.Remembers history) (callee : Option FunctionId)
    (stack : List Frame) (clock : Int64) (pair : FunctionId × FunctionId) :
    pair ∈ (inference.enter callee stack clock).1.known ↔
      pair ∈ inference.known ∨ callee = some pair.2 ∧
        ((∃ top ∈ stack.head?, registrantIn history top.key = some pair.1) ∨
          callerIn history (.enter callee stack) = some pair.1) := by
  cases callee with
  | none => simp [enter]
  | some callee =>
    cases stack with
    | nil => simp [enter, h.collects, Inference.enterStack, clearPending, callerIn]
    | cons top below =>
      rw [h.mem_known_enter_cons]
      simp [eq_comm]

end Remembers

/-- An entry sees of the frames below the top only the caller found there. -/
theorem enter_congr {state : Inference} {top : Frame} {below below' : List Frame}
    (callee : Option FunctionId) (clock : Int64)
    (h : ∀ id ∈ callee, (state.track top.key id).caller? below' =
      (state.track top.key id).caller? below) :
    state.enter callee (top :: below') clock = state.enter callee (top :: below) clock := by
  cases callee with
  | none => rfl
  | some callee =>
    simp only [enter, enterStack_cons, callers, h callee rfl]

end Inference

/-- The size of a map is the number of keys that it has something for. -/
theorem encard_isSome_getElem? (m : Std.HashMap FunctionKey FunctionId) :
    {key : FunctionKey | m[key]?.isSome}.encard = m.size := by
  rw [← Std.HashMap.length_keys]
  exact encard_eq_length Std.HashMap.nodup_keys fun key => by simp

/-! ## What a tracer does by its history -/

namespace CallTracer

variable {tracer : CallTracer} {inference : Inference}

theorem perform_enter_congr (h : tracer.Infers inference) {callee : Option FunctionId}
    {stack stack' : List Frame} {world : World}
    (henter : inference.enter callee stack' world.clock =
      inference.enter callee stack world.clock) :
    tracer.perform ⟨.enter callee stack', world⟩ = tracer.perform ⟨.enter callee stack, world⟩ := by
  obtain ⟨source, override, state⟩ := tracer
  obtain ⟨stream, rfl⟩ := h
  simp only [perform, CallTracer.enter, handed, Inference.perform, Option.map_some, henter]

/-- Steps that bring about the same leave the same to be brought about. -/
theorem outcomes_congr {earlier : List Step} {step step' : Step}
    (h : (tracer.after earlier).perform step' = (tracer.after earlier).perform step)
    (later : List Step) :
    tracer.outcomes (later ++ step' :: earlier) = tracer.outcomes (later ++ step :: earlier) := by
  simp only [outcomes_append, outcomes, after, h]

/-- Of the frames below the top, a run sees only the id that is found first. -/
theorem outcomes_enter_congr {steps : List Step} (hinfers : (tracer.after steps).Infers inference)
    (hremembers : inference.Remembers (steps.map Step.operation)) {callee : Option FunctionId}
    {top : Frame} {below below' : List Frame} :
    let idOf := fun frame : Frame =>
      trackedIn (.enter callee (top :: below) :: steps.map Step.operation) frame.key
    below'.findSome? idOf = below.findSome? idOf → ∀ (world : World) (later : List Step),
      tracer.outcomes (later ++ ⟨.enter callee (top :: below'), world⟩ :: steps) =
        tracer.outcomes (later ++ ⟨.enter callee (top :: below), world⟩ :: steps) := by
  intro idOf hsame world later
  refine outcomes_congr (perform_enter_congr hinfers ?_) later
  refine Inference.enter_congr callee world.clock fun id hid => ?_
  obtain rfl := hid
  have hcaller (frames : List Frame) :
      (inference.track top.key id).caller? frames = frames.findSome? idOf := by
    rw [hremembers.caller?_eq]
    simp only [callerIn, idOf, trackedIn_enter]
  rw [hcaller, hcaller, hsame]

/-- Nothing is found in what is filtered out. -/
theorem findSome?_filter_isSome {α β : Type} (f : α → Option β) (xs : List α) :
    (xs.filter fun x => (f x).isSome).findSome? f = xs.findSome? f := by
  rw [← List.head?_filterMap, ← List.head?_filterMap, List.filterMap_filter]
  congr 2
  funext x
  cases f x <;> rfl

/-- Nothing is found behind a place where something is found. -/
theorem findSome?_append_cons {α β : Type} {f : α → Option β} {x : α} (h : (f x).isSome)
    (xs ys : List α) : (xs ++ x :: ys).findSome? f = (xs.findSome? f).or (f x) := by
  obtain ⟨y, hy⟩ := Option.isSome_iff_exists.1 h
  rw [List.findSome?_append, List.findSome?_cons, hy]

theorem remembers_after (source : SettingsSource) (override : Option Outlet) {depth : UInt32}
    (hdepth : 1 < depth) (start : World) (steps : List Step) :
    ∃ inference, ((started source override depth start).after steps).Infers inference ∧
      inference.Remembers (steps.map Step.operation) :=
  ⟨_, (infers_started source override depth start).after steps,
    (Inference.remembers_new hdepth).after steps⟩

/-- **The caller of an entry is read off the history.** The tracer has ids for as many function
objects as the history gives one. An entry finds as its caller the first function object below the
top that has an id, the entry itself counted, however far down; it makes the pair of caller and
callee known, and beside the pair with the registrant no other. So whatever the tracer does later,
it makes no difference which frames without an id are below the top, nor what is below a frame that
has one. -/
theorem caller_by_history (source : SettingsSource) (override : Option Outlet) {depth : UInt32}
    (hdepth : 1 < depth) (start : World) (steps : List Step) :
    let origin := started source override depth start
    let tracer := origin.after steps
    let history := steps.map Step.operation
    {key | (trackedIn history key).isSome}.encard = tracer.trackedFunctions ∧
      (∀ (callee : FunctionId) (top : Frame) (below : List Frame) (world : World),
        let entry := Operation.enter (some callee) (top :: below)
        let caller := below.findSome? fun frame => trackedIn (entry :: history) frame.key
        (∃ inference, tracer.Infers inference ∧
          (inference.track top.key callee).caller? below = caller) ∧
        ∀ pair, (tracer.perform ⟨entry, world⟩).tracer.Knows pair ↔
          tracer.Knows pair ∨ pair.2 = callee ∧
            (tracer.registrant? top.key = some pair.1 ∨ caller = some pair.1)) ∧
      ∀ (callee : Option FunctionId) (top : Frame) (below : List Frame) (world : World)
        (later : List Step),
        let tracked := fun frame : Frame =>
          (trackedIn (.enter callee (top :: below) :: history) frame.key).isSome
        let outcomesWith := fun below' =>
          origin.outcomes (later ++ ⟨.enter callee (top :: below'), world⟩ :: steps)
        (∀ below', below'.filter tracked = below.filter tracked →
          outcomesWith below' = outcomesWith below) ∧
        ∀ above ancestor rest rest', below = above ++ ancestor :: rest → tracked ancestor →
          outcomesWith (above ++ ancestor :: rest') = outcomesWith below := by
  intro origin tracer history
  obtain ⟨inference, hinfers, hremembers⟩ := remembers_after source override hdepth start steps
  refine ⟨?_, fun callee top below world => ⟨⟨inference, hinfers, hremembers.caller?_eq ..⟩,
    fun pair => ?_⟩, fun callee top below world later => ?_⟩
  · rw [hinfers.counts_eq.2.1, ← encard_isSome_getElem?]
    simp only [hremembers.tracked]
    rfl
  · rw [(hinfers.perform _).1.knows_iff, hinfers.knows_iff, hinfers.registrant?_eq]
    rw [hremembers.registrants]
    exact hremembers.mem_known_enter_cons ..
  · -- both changes leave alone what is found first among the frames below the top
    let idOf := fun frame : Frame => trackedIn (.enter callee (top :: below) :: history) frame.key
    have hcongr (below' : List Frame) (hsame : below'.findSome? idOf = below.findSome? idOf) :
        origin.outcomes (later ++ ⟨.enter callee (top :: below'), world⟩ :: steps) =
          origin.outcomes (later ++ ⟨.enter callee (top :: below), world⟩ :: steps) :=
      outcomes_enter_congr hinfers hremembers hsame world later
    refine ⟨fun below' hfilter => hcongr below' ?_,
      fun above ancestor rest rest' hbelow htracked => hcongr _ ?_⟩
    · rw [← findSome?_filter_isSome idOf below', hfilter, findSome?_filter_isSome]
    · have hancestor : (idOf ancestor).isSome := htracked
      rw [findSome?_append_cons hancestor, ← findSome?_append_cons hancestor _ rest, ← hbelow]

/-- Between the callee and its caller there are a function that was never entered, one that was
forgotten, and one more; the depth is the least that makes callers be looked for. -/
theorem caller_by_history_beyond_forgotten :
    let world : World := ⟨⟨[], []⟩, [], fun _ => none, 0, ""⟩
    let frame : UInt64 → Frame := fun address => ⟨⟨address, 0⟩, []⟩
    let origin := started .environment (some (.capture #[])) 2 world
    let steps : List Step := [⟨.forget ⟨3, 0⟩, world⟩,
      ⟨.enter (some ⟨2, by decide⟩) [frame 3, frame 1], world⟩,
      ⟨.enter (some ⟨0, by decide⟩) [frame 1], world⟩]
    let entry : List Frame → Step := fun below =>
      ⟨.enter (some ⟨1, by decide⟩) (frame 2 :: below), world⟩
    (1 : UInt32) < 2 ∧ (origin.after steps).trackedFunctions = 1 ∧
      (origin.after (entry [frame 8, frame 3, frame 9, frame 1] :: steps)).Knows
        (⟨0, by decide⟩, ⟨1, by decide⟩) ∧
      origin.outcomes (entry [frame 1] :: steps) =
        origin.outcomes (entry [frame 8, frame 3, frame 9, frame 1] :: steps) := by
  intro world frame origin steps entry
  have hdepth : (1 : UInt32) < 2 := by decide
  obtain ⟨hcount, hentry, hsame⟩ :=
    caller_by_history .environment (some (.capture #[])) hdepth world steps
  refine ⟨hdepth, ?_, ?_, ?_⟩
  · have hkeys : {key | (trackedIn (steps.map Step.operation) key).isSome} = {⟨1, 0⟩} := by
      ext key
      simp only [steps, frame, List.map_cons, List.map_nil, trackedIn_forget, trackedIn_enter]
      by_cases hforgotten : ⟨3, 0⟩ = key
      · subst hforgotten
        decide
      · rw [Set.mem_ofPred_eq, Set.mem_singleton_iff, if_neg hforgotten, if_neg hforgotten]
        by_cases hmain : ⟨1, 0⟩ = key
        · rw [if_pos hmain]
          exact iff_of_true rfl hmain.symm
        · rw [if_neg hmain]
          exact iff_of_false Bool.false_ne_true (Ne.symm hmain)
    rw [hkeys, Set.encard_singleton] at hcount
    exact_mod_cast hcount.symm
  · obtain ⟨-, hknows⟩ := hentry ⟨1, by decide⟩ (frame 2) [frame 8, frame 3, frame 9, frame 1] world
    exact (hknows _).2 (.inr ⟨rfl, .inr (by decide)⟩)
  · exact (hsame (some ⟨1, by decide⟩) (frame 2) [frame 8, frame 3, frame 9, frame 1] world []).1
      [frame 1] (by decide)

/-- **Callbacks are attributed to those who handed them over.** The tracer holds as registrants just
those of the history. An entry of a function object that was handed over makes the pair of its
registrant and the callee known, whatever is below on the stack, and beside the pair with the caller
no other. An entry without a caller changes no registrant; one that has a caller makes it the
registrant of all that its top frame was given, even if the pair was known before. -/
theorem callback_by_history (source : SettingsSource) (override : Option Outlet) {depth : UInt32}
    (hdepth : 1 < depth) (start : World) (steps : List Step) :
    let tracer := (started source override depth start).after steps
    let history := steps.map Step.operation
    {key | (registrantIn history key).isSome}.encard = tracer.registeredCallbacks ∧
      (∀ key, tracer.registrant? key = registrantIn history key) ∧
      ∀ (callee : Option FunctionId) (stack : List Frame) (world : World),
        let entry := Operation.enter callee stack
        let entered := (tracer.perform ⟨entry, world⟩).tracer
        (∀ b ∈ callee, ∀ top ∈ stack.head?, ∀ a ∈ registrantIn history top.key,
          entered.Knows (a, b)) ∧
        (∀ pair, entered.Knows pair ↔ tracer.Knows pair ∨ callee = some pair.2 ∧
          ((∃ top ∈ stack.head?, registrantIn history top.key = some pair.1) ∨
            callerIn history entry = some pair.1)) ∧
        (callerIn history entry = none →
          ∀ key, entered.registrant? key = tracer.registrant? key) ∧
        ∀ caller ∈ callerIn history entry, ∀ top ∈ stack.head?, ∀ key,
          entered.registrant? key =
            if key ∈ top.callables then some caller else tracer.registrant? key := by
  intro tracer history
  obtain ⟨inference, hinfers, hremembers⟩ := remembers_after source override hdepth start steps
  have hregistrant (key : FunctionKey) : tracer.registrant? key = registrantIn history key :=
    (hinfers.registrant?_eq key).trans (hremembers.registrants key)
  refine ⟨?_, hregistrant, fun callee stack world => ?_⟩
  · rw [hinfers.counts_eq.2.2, ← encard_isSome_getElem?]
    simp only [hremembers.registrants]
    rfl
  have hentered := (hinfers.perform ⟨.enter callee stack, world⟩).1
  have hknows (pair : FunctionId × FunctionId) :
      (tracer.perform ⟨.enter callee stack, world⟩).tracer.Knows pair ↔
        tracer.Knows pair ∨ callee = some pair.2 ∧
          ((∃ top ∈ stack.head?, registrantIn history top.key = some pair.1) ∨
            callerIn history (.enter callee stack) = some pair.1) := by
    rw [hentered.knows_iff, hinfers.knows_iff]
    exact hremembers.mem_known_enter ..
  have hafter (key : FunctionKey) :
      (tracer.perform ⟨.enter callee stack, world⟩).tracer.registrant? key =
        registrantIn (.enter callee stack :: history) key :=
    (hentered.registrant?_eq key).trans ((hremembers.perform ..).registrants key)
  refine ⟨fun b hb top htop a ha => ?_, hknows, fun hcaller key => ?_,
    fun caller hcaller top htop key => ?_⟩
  · exact (hknows (a, b)).2 (.inr ⟨hb, .inl ⟨top, htop, ha⟩⟩)
  · rw [hafter, hregistrant]
    cases stack with
    | nil => rfl
    | cons top below => rw [registrantIn_enter, hcaller, Option.none_or, ite_self]
  · rw [hafter, hregistrant]
    cases stack with
    | nil => cases htop
    | cons first below =>
      obtain rfl : first = top := Option.some.inj htop
      rw [registrantIn_enter, Option.mem_def.1 hcaller, Option.some_or]

/-- A function object is handed over twice to the same function, at first by another caller; what
was handed over last counts. -/
theorem callback_by_history_handed_over_again :
    let world : World := ⟨⟨[], []⟩, [], fun _ => none, 0, ""⟩
    let frame : UInt64 → Frame := fun address => ⟨⟨address, 0⟩, []⟩
    let register : Frame := ⟨⟨3, 0⟩, [.value, .callable ⟨5, 0⟩]⟩
    let origin := started .environment (some (.capture #[])) 2 world
    let steps : List Step := [
      ⟨.enter (some ⟨2, by decide⟩) [register, frame 1], world⟩,
      ⟨.enter (some ⟨2, by decide⟩) [register, frame 2, frame 1], world⟩,
      ⟨.enter (some ⟨1, by decide⟩) [frame 2, frame 1], world⟩,
      ⟨.enter (some ⟨0, by decide⟩) [frame 1], world⟩]
    let entry : Step := ⟨.enter (some ⟨4, by decide⟩) [frame 5, frame 9], world⟩
    (1 : UInt32) < 2 ∧ (origin.after steps).registrant? ⟨5, 0⟩ = some ⟨0, by decide⟩ ∧
      (origin.after (entry :: steps)).Knows (⟨0, by decide⟩, ⟨4, by decide⟩) := by
  intro world frame register origin steps entry
  have hdepth : (1 : UInt32) < 2 := by decide
  obtain ⟨-, hregistrant, hentry⟩ :=
    callback_by_history .environment (some (.capture #[])) hdepth world steps
  obtain ⟨hknows, -⟩ := hentry (some ⟨4, by decide⟩) [frame 5, frame 9] world
  exact ⟨hdepth, (hregistrant _).trans (by decide), hknows _ rfl _ rfl _ (by decide)⟩

end CallTracer

end CallTrace
