import CallTrace.Proofs.CallTracer.History
import CallTrace.Proofs.Inference
import CallTrace.Proofs.Merge.Replay
import Mathlib.Data.List.Basic

/-!
# Both modes tell the same edges

The edges of a history of a call stack are the pairs of a function that is entered and the nearest
open function that has an id (`StackStep.pairs`). A tracer that collects stacks comes to know
exactly these pairs (`Inference.Sees.followAll`). A tracer that does not marks entries and exits,
and a replay of the marks has the images of the open functions on its stack and tells the images
of the same pairs (`edgesTold_marks`). So both modes lead to the same graph
(`CallTracer.replay_marks_eq_edges`).
-/

namespace CallTrace

variable (idOf : FunctionKey → Option FunctionId)

/-! ## The edges of a history -/

/-- The innermost of the functions in the frames that has an id. -/
def nearest (frames : List Frame) : Option FunctionId :=
  frames.findSome? fun frame => idOf frame.key

namespace StackStep

/-- The edge of a step: from the nearest function to the one that is entered. -/
def pair? (frames : List Frame) : StackStep → Option (FunctionId × FunctionId)
  | enter frame _ => (idOf frame.key).bind fun callee => (nearest idOf frames).map (·, callee)
  | exit _ => none

/-- The edges of steps one after the other. -/
def pairs : List Frame → List StackStep → List (FunctionId × FunctionId)
  | _, [] => []
  | frames, step :: rest => (step.pair? idOf frames).toList ++ pairs (step.after frames) rest

end StackStep

/-! ## Collecting stacks -/

namespace Inference

/-- The inference knows the ids of the functions in the open frames, and of no others than have
one; none was handed over. -/
structure Sees (frames : List Frame) (state : Inference) : Prop where
  collects : state.collects = true
  idOf_eq : ∀ {key : FunctionKey} {id}, state.tracked[key]? = some id → idOf key = some id
  tracked_eq : ∀ frame ∈ frames, state.tracked[frame.key]? = idOf frame.key
  registrants_eq : ∀ key : FunctionKey, state.registrants[key]? = none

variable {idOf} {frames : List Frame} {state : Inference}

theorem sees_new {depth : UInt32} (h : 1 < depth) : (new depth).Sees idOf [] where
  collects := decide_eq_true h
  idOf_eq hid := by simp [new] at hid
  tracked_eq frame hframe := absurd hframe List.not_mem_nil
  registrants_eq key := Std.HashMap.getElem?_empty

namespace Sees

theorem tracked_track (h : state.Sees idOf frames) {key : FunctionKey} {callee : FunctionId}
    (hkey : idOf key = some callee) :
    ∀ frame ∈ frames, (state.track key callee).tracked[frame.key]? = idOf frame.key := by
  intro frame hframe
  simp only [track, Std.HashMap.getElem?_insert]
  split
  · rename_i heq
    rw [← eq_of_beq heq, hkey]
  · exact h.tracked_eq frame hframe

/-- The caller that is found is the nearest function. -/
theorem callers_eq (h : state.Sees idOf frames) {frame : Frame} {callee : FunctionId}
    (hkey : idOf frame.key = some callee) :
    state.callers callee frame frames = (nearest idOf frames).toList := by
  have hcaller : (state.track frame.key callee).caller? frames = nearest idOf frames := by
    rw [caller?, nearest, ← List.head?_filterMap, ← List.head?_filterMap,
      List.filterMap_congr (h.tracked_track hkey)]
  rw [callers, h.registrants_eq, hcaller]
  rfl

theorem enter (h : state.Sees idOf frames) {frame : Frame} (hplain : frame.callables = [])
    (clock : Int64) :
    (state.enter (idOf frame.key) (frame :: frames) clock).1.Sees idOf (frame :: frames) ∧
      ∀ pair, pair ∈ (state.enter (idOf frame.key) (frame :: frames) clock).1.known ↔
        pair ∈ state.known ∨ (StackStep.enter frame clock).pair? idOf frames = some pair := by
  cases hkey : idOf frame.key with
  | none =>
    refine ⟨⟨h.collects, h.idOf_eq, fun frame' hframe => ?_, h.registrants_eq⟩, fun pair => ?_⟩
    · rcases List.mem_cons.1 hframe with rfl | hframe
      · -- the key of a function without an id is never tracked
        rw [hkey]
        refine Option.eq_none_iff_forall_ne_some.2 fun id hid => ?_
        rw [h.idOf_eq hid] at hkey
        cases hkey
      · exact h.tracked_eq frame' hframe
    · simp [Inference.enter, StackStep.pair?, hkey]
  | some callee =>
    simp only [Inference.enter, h.collects, if_true]
    refine ⟨⟨?_, fun {key id} hid => ?_, fun frame' hframe => ?_, fun key => ?_⟩, fun pair => ?_⟩
    · rw [enterStack_collects, h.collects]
    · rw [enterStack_tracked, Std.HashMap.getElem?_insert] at hid
      split at hid
      · rename_i heq
        rw [← eq_of_beq heq, hkey, hid]
      · exact h.idOf_eq hid
    · rw [enterStack_tracked]
      rcases List.mem_cons.1 hframe with rfl | hframe
      · rw [Std.HashMap.getElem?_insert_self, hkey]
      · exact h.tracked_track hkey frame' hframe
    · rw [getElem?_enterStack_registrants, hplain, if_neg List.not_mem_nil, h.registrants_eq]
    · rw [mem_enterStack_known, h.callers_eq hkey]
      simp only [StackStep.pair?, hkey, Option.bind_some]
      cases nearest idOf frames with
      | none => simp
      | some caller => simp [Prod.ext_iff, eq_comm]

theorem follow (h : state.Sees idOf frames) {step : StackStep}
    (hplain : ∀ frame ∈ step.frame?, frame.callables = []) :
    (state.follow idOf frames step).1.Sees idOf (step.after frames) ∧
      ∀ pair, pair ∈ (state.follow idOf frames step).1.known ↔
        pair ∈ state.known ∨ step.pair? idOf frames = some pair := by
  cases step with
  | enter frame clock => exact h.enter (hplain frame rfl) clock
  | exit clock =>
    cases frames with
    | nil => exact ⟨h, fun pair => by simp [Inference.follow, StackStep.pair?]⟩
    | cons top below =>
      refine ⟨⟨h.collects, h.idOf_eq, fun frame hframe => ?_, h.registrants_eq⟩, fun pair => ?_⟩
      · exact h.tracked_eq frame (List.mem_cons_of_mem _ hframe)
      · simp [Inference.follow, StackStep.pair?]

/-- **What a collecting inference knows are the edges of the history.** -/
theorem followAll (h : state.Sees idOf frames) {steps : List StackStep}
    (hplain : ∀ step ∈ steps, ∀ frame ∈ step.frame?, frame.callables = []) (pair) :
    pair ∈ (state.followAll idOf frames steps).1.known ↔
      pair ∈ state.known ∨ pair ∈ StackStep.pairs idOf frames steps := by
  induction steps generalizing state frames with
  | nil => simp [Inference.followAll, StackStep.pairs]
  | cons step rest ih =>
    obtain ⟨hsees, hknown⟩ := h.follow (hplain step List.mem_cons_self)
    have hrest := ih hsees fun step' hstep => hplain step' (List.mem_cons_of_mem _ hstep)
    simp only [Inference.followAll, StackStep.pairs, List.mem_append, Option.mem_toList]
    rw [hrest, hknown, or_assoc]

end Sees

variable (idOf)

theorem Told.follow {calls : List Call} (h : state.Told calls) (hcollects : state.collects = true)
    (frames : List Frame) (step : StackStep) :
    (state.follow idOf frames step).1.Told (calls ++ (state.follow idOf frames step).2) ∧
      (state.follow idOf frames step).1.collects = true := by
  cases step with
  | enter frame clock =>
    exact ⟨h.enter hcollects _ _ _, (enter_collects ..).trans hcollects⟩
  | exit clock =>
    cases frames with
    | nil => exact ⟨(List.append_nil calls).symm ▸ h, hcollects⟩
    | cons top below =>
      refine ⟨?_, hcollects⟩
      simpa only [Inference.follow, exit_of_collects hcollects, List.append_nil] using h

theorem Told.followAll {calls : List Call} (h : state.Told calls)
    (hcollects : state.collects = true) (frames : List Frame) (steps : List StackStep) :
    (state.followAll idOf frames steps).1.Told
      (calls ++ (state.followAll idOf frames steps).2) := by
  induction steps generalizing state calls frames with
  | nil => exact (List.append_nil calls).symm ▸ h
  | cons step rest ih =>
    obtain ⟨htold, hcollects'⟩ := h.follow idOf hcollects frames step
    have hrest := ih htold hcollects' (step.after frames)
    rwa [List.append_assoc] at hrest

end Inference

/-! ## Marking entries and exits -/

namespace StackStep

/-- The marks of a step. -/
def marks (frames : List Frame) : StackStep → List Call
  | enter frame clock => (idOf frame.key).toList.map fun id => .entry (some id) clock
  | exit clock => frames.head?.toList.flatMap fun top =>
      (idOf top.key).toList.map fun id => .exit (some id) clock

/-- The marks of steps one after the other. -/
def marksAll : List Frame → List StackStep → List Call
  | _, [] => []
  | frames, step :: rest => step.marks idOf frames ++ marksAll (step.after frames) rest

end StackStep

theorem Inference.follow_eq_marks {state : Inference} (h : state.collects = false)
    (frames : List Frame) (step : StackStep) :
    state.follow idOf frames step = (state, step.marks idOf frames) := by
  cases step with
  | enter frame clock =>
    cases hkey : idOf frame.key <;>
      simp [Inference.follow, StackStep.marks, Inference.enter, hkey, h]
  | exit clock =>
    cases frames with
    | nil => rfl
    | cons top below =>
      cases hkey : idOf top.key <;>
        simp [Inference.follow, StackStep.marks, Inference.exit, hkey, h]

theorem Inference.followAll_eq_marksAll {state : Inference} (h : state.collects = false)
    (frames : List Frame) (steps : List StackStep) :
    state.followAll idOf frames steps = (state, StackStep.marksAll idOf frames steps) := by
  induction steps generalizing frames with
  | nil => rfl
  | cons step rest ih =>
    rw [followAll, follow_eq_marks idOf h]
    dsimp only
    rw [ih]
    rfl

section

variable {α : Type} (name : Option FunctionId → Option α)

/-- The names of the open functions that have ids. -/
def named (frames : List Frame) : List α :=
  frames.filterMap fun frame => (idOf frame.key).bind fun id => name (some id)

/-- The functions in the frames that have ids have names. -/
def Names (frames : List Frame) : Prop :=
  ∀ frame ∈ frames, ∀ id, idOf frame.key = some id → (name (some id)).isSome

variable {idOf name} {frames : List Frame}

theorem Names.of_cons {frame : Frame} (h : Names idOf name (frame :: frames)) :
    Names idOf name frames :=
  fun frame' hframe => h frame' (List.mem_cons_of_mem _ hframe)

theorem Names.exists_name {frame : Frame} (h : Names idOf name frames) (hframe : frame ∈ frames)
    {id : FunctionId} (hkey : idOf frame.key = some id) : ∃ x, name (some id) = some x :=
  Option.isSome_iff_exists.1 (h frame hframe id hkey)

theorem head?_named (h : Names idOf name frames) :
    (named idOf name frames).head? = (nearest idOf frames).bind fun id => name (some id) := by
  induction frames with
  | nil => rfl
  | cons frame rest ih =>
    cases hkey : idOf frame.key with
    | none => simpa [named, nearest, hkey] using ih h.of_cons
    | some id =>
      obtain ⟨x, hx⟩ := h.exists_name List.mem_cons_self hkey
      simp [named, nearest, hkey, hx]

theorem length_named (h : Names idOf name frames) :
    (named idOf name frames).length = frames.countP fun frame => (idOf frame.key).isSome := by
  rw [named, List.length_filterMap_eq_countP]
  refine List.countP_congr fun frame hframe => ?_
  cases hkey : idOf frame.key with
  | none => rfl
  | some id =>
    obtain ⟨x, hx⟩ := h.exists_name hframe hkey
    simp [hx]

theorem Names.after (h : Names idOf name frames) {step : StackStep}
    (hstep : ∀ frame ∈ step.frame?, ∀ id, idOf frame.key = some id → (name (some id)).isSome) :
    Names idOf name (step.after frames) := by
  intro frame' hframe
  cases step with
  | enter frame clock =>
    rcases List.mem_cons.1 hframe with rfl | hframe
    · exact hstep frame' rfl
    · exact h frame' hframe
  | exit clock => exact h frame' (List.mem_of_mem_tail hframe)

variable [DecidableEq α]

/-- The marks of a step turn the names of the open functions into those after the step, and tell
its edge. -/
theorem edgesTold_marks (h : Names idOf name frames) {step : StackStep}
    (hstep : Names idOf name (step.after frames)) :
    (step.marks idOf frames).foldl (Call.opened name) (named idOf name frames) =
        named idOf name (step.after frames) ∧
      Call.edgesTold name (named idOf name frames) (step.marks idOf frames) =
        ((step.pair? idOf frames).bind fun pair =>
          namedPair? name (some pair.1) (some pair.2)).toList ∧
      ∀ call ∈ step.marks idOf frames, call.unnamed name = 0 := by
  cases step with
  | enter frame clock =>
    cases hkey : idOf frame.key with
    | none => simp [StackStep.marks, StackStep.after, StackStep.pair?, named, hkey, Call.edgesTold]
    | some id =>
      -- the name goes on the stack, and the edge comes from the name that was on top
      obtain ⟨x, hx⟩ := hstep.exists_name List.mem_cons_self hkey
      have hmarks : (StackStep.enter frame clock).marks idOf frames =
          [Call.entry (some id) clock] := by
        simp [StackStep.marks, hkey]
      rw [hmarks]
      refine ⟨?_, ?_, ?_⟩
      · simp [hx, StackStep.after, named, hkey]
      · simp only [Call.edgesTold, Call.edgeTold?_entry, hx, head?_named h, StackStep.pair?, hkey]
        cases nearest idOf frames with
        | none => rfl
        | some caller => cases hcaller : name (some caller) <;> simp [namedPair?, hcaller, hx]
      · simp [Call.unnamed, hx]
  | exit clock =>
    cases frames with
    | nil => simp [StackStep.marks, StackStep.after, StackStep.pair?, Call.edgesTold]
    | cons top below =>
      cases hkey : idOf top.key with
      | none =>
        simp [StackStep.marks, StackStep.after, StackStep.pair?, named, hkey, Call.edgesTold]
      | some id =>
        -- the name is on top of the stack, so unwinding to it takes away just this one
        obtain ⟨x, hx⟩ := h.exists_name List.mem_cons_self hkey
        have hmarks : (StackStep.exit clock).marks idOf (top :: below) =
            [Call.exit (some id) clock] := by
          simp [StackStep.marks, hkey]
        rw [hmarks]
        refine ⟨?_, ?_, ?_⟩
        · simp [hx, StackStep.after, named, hkey]
        · simp [Call.edgesTold, StackStep.pair?]
        · simp [Call.unnamed, hx]

theorem edgesTold_marksAll (h : Names idOf name frames) {steps : List StackStep}
    (hsteps : ∀ step ∈ steps, ∀ frame ∈ step.frame?, ∀ id, idOf frame.key = some id →
      (name (some id)).isSome) :
    (StackStep.marksAll idOf frames steps).foldl (Call.opened name) (named idOf name frames) =
        named idOf name (steps.foldl StackStep.after frames) ∧
      Call.edgesTold name (named idOf name frames) (StackStep.marksAll idOf frames steps) =
        (StackStep.pairs idOf frames steps).filterMap (fun pair =>
          namedPair? name (some pair.1) (some pair.2)) ∧
      (∀ call ∈ StackStep.marksAll idOf frames steps, call.unnamed name = 0) ∧
      Names idOf name (steps.foldl StackStep.after frames) := by
  induction steps generalizing frames with
  | nil => exact ⟨rfl, rfl, fun call hcall => absurd hcall List.not_mem_nil, h⟩
  | cons step rest ih =>
    have hafter := h.after (hsteps step List.mem_cons_self)
    obtain ⟨hopened, htold, hunnamed⟩ := edgesTold_marks h hafter
    obtain ⟨hopened', htold', hunnamed', hnames⟩ :=
      ih hafter fun step' hstep => hsteps step' (List.mem_cons_of_mem _ hstep)
    refine ⟨?_, ?_, fun call hcall => ?_, hnames⟩
    · rw [StackStep.marksAll, List.foldl_append, hopened, hopened', List.foldl_cons]
    · rw [StackStep.marksAll, Call.edgesTold_append, hopened, htold, htold', StackStep.pairs,
        List.filterMap_append]
      cases step.pair? idOf frames with
      | none => rfl
      | some pair => cases hname : namedPair? name (some pair.1) (some pair.2) <;> simp [hname]
    · rcases List.mem_append.1 hcall with hcall | hcall
      · exact hunnamed call hcall
      · exact hunnamed' call hcall

end

/-! ## The modes agree -/

/-- **Both modes lead to the same graph.** When two tracers follow the same history of calls
without callable arguments, one that collects stacks and one that does not, then a replay of what
the second one delivers has as edges exactly the images of those that the first one delivers; it
misses nothing, and in the end takes as many functions to be open as are open and have ids. -/
theorem CallTracer.replay_marks_eq_edges {idOf : FunctionKey → Option FunctionId}
    {steps : List StackStep} (hplain : ∀ step ∈ steps, ∀ frame ∈ step.frame?, frame.callables = [])
    {deep flat : UInt32} (hdeep : 1 < deep) (hflat : flat ≤ 1) (source source' : SettingsSource)
    (world world' : World) :
    ∃ edges marks : List Call,
      Trace.read (deliveries idOf source deep steps world).flatten = .ok (edges.map .call) ∧
      Trace.read (deliveries idOf source' flat steps world').flatten = .ok (marks.map .call) ∧
      (∀ call ∈ edges, call.caller.isSome ∧ call.callee.isSome) ∧
      ∀ globals : GlobalIds,
        (∀ step ∈ steps, ∀ frame ∈ step.frame?, ∀ id, idOf frame.key = some id →
          (globals[some id]?).isSome) →
        (∀ a b, ((Replay.new globals).playAll ∅ marks).2.Has a b ↔
          ∃ call ∈ edges, globals[call.caller]? = some a ∧ globals[call.callee]? = some b) ∧
        ((Replay.new globals).playAll ∅ marks).1.missing = 0 ∧
        ((Replay.new globals).playAll ∅ marks).1.depth =
          (steps.foldl StackStep.after []).countP fun frame => (idOf frame.key).isSome := by
  have hsees : (Inference.new deep).Sees idOf [] := Inference.sees_new hdeep
  have hcollects : (Inference.new flat).collects = false :=
    decide_eq_false (UInt32.not_lt.2 hflat)
  have htold := (Inference.told_new deep).followAll idOf hsees.collects [] steps
  have hknown (pair : FunctionId × FunctionId) :
      pair ∈ ((Inference.new deep).followAll idOf [] steps).1.known ↔
        pair ∈ StackStep.pairs idOf [] steps := by
    rw [hsees.followAll hplain]
    simp [Inference.new]
  rw [List.nil_append] at htold
  refine ⟨_, _, read_deliveries .., read_deliveries .., htold.isSome_ends,
    fun globals hglobals => ?_⟩
  have hnil : Names idOf (globals[·]?) [] := fun frame hframe => absurd hframe List.not_mem_nil
  obtain ⟨hopened, hedges, hunnamed, hnames⟩ := edgesTold_marksAll hnil hglobals
  rw [Inference.followAll_eq_marksAll idOf hcollects, Replay.playAll_eq]
  have hglobal : (Replay.new globals).global? = (globals[·]?) := rfl
  simp only [hglobal]
  refine ⟨fun a b => ?_, ?_, ?_⟩
  · rw [Edges.has_connectAll, or_iff_right Edges.not_has_empty]
    change (a, b) ∈ Call.edgesTold (globals[·]?) (named idOf (globals[·]?) []) _ ↔ _
    rw [hedges, List.mem_filterMap]
    simp only [namedPair?_eq_some, ← hknown]
    exact (htold.exists_call_iff fun caller callee =>
      globals[caller]? = some a ∧ globals[callee]? = some b).symm
  · rw [Call.sum_unnamed_eq_zero hunnamed]
    rfl
  · change List.length (List.foldl _ (named idOf (globals[·]?) []) _) = _
    rw [hopened, length_named hnames]

/-- A function calls another through one that is not traced, that one calls itself, and both have
the same global id. -/
theorem CallTracer.replay_marks_eq_edges_recursive :
    let idOf : FunctionKey → Option FunctionId := fun key =>
      if key.address = 1 then some ⟨0, by decide⟩
      else if key.address = 2 then some ⟨1, by decide⟩ else none
    let enter : UInt64 → StackStep := fun address => .enter ⟨⟨address, 0⟩, [.value]⟩ 7
    let steps := [enter 1, enter 9, enter 2, enter 2, .exit 8]
    let globals : GlobalIds := (∅ : GlobalIds).insert (some ⟨0, by decide⟩) 5
      |>.insert (some ⟨1, by decide⟩) 5
    let world : World := ⟨⟨[], []⟩, [], fun _ => none, 0, ""⟩
    ∃ edges marks : List Call,
      Trace.read (deliveries idOf .environment 2 steps world).flatten = .ok (edges.map .call) ∧
      Trace.read (deliveries idOf .environment 1 steps world).flatten = .ok (marks.map .call) ∧
      (∀ a b, ((Replay.new globals).playAll ∅ marks).2.Has a b ↔
        ∃ call ∈ edges, globals[call.caller]? = some a ∧ globals[call.callee]? = some b) ∧
      ((Replay.new globals).playAll ∅ marks).1.missing = 0 ∧
      ((Replay.new globals).playAll ∅ marks).1.depth = 2 := by
  intro idOf enter steps globals world
  have hplain : ∀ step ∈ steps, ∀ frame ∈ step.frame?, frame.callables = [] := by decide
  obtain ⟨edges, marks, hedges, hmarks, -, hreplay⟩ := @replay_marks_eq_edges idOf steps hplain 2 1
    (by decide) (by decide) .environment .environment world world
  refine ⟨edges, marks, hedges, hmarks, hreplay globals fun step _ frame _ id hid => ?_⟩
  have hids : id = ⟨0, by decide⟩ ∨ id = ⟨1, by decide⟩ := by
    simp only [idOf] at hid
    split at hid
    · exact .inl (Option.some.inj hid).symm
    · split at hid
      · exact .inr (Option.some.inj hid).symm
      · cases hid
  rcases hids with rfl | rfl
  · simp [globals]
  · simp [globals]

end CallTrace
