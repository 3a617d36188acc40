import CallTrace.Proofs.Merge.Replay

/-!
# Replays of traces that lost exits

Of a history of nested calls, some exits may have left no mark (`LossyStep`). Then a replay keeps
functions on its stack that were left, and an exit can close one of them instead of its own. Still
the functions that are open have their names on the stack, in their order (`Covers`), and an exit
that is marked never unwinds past one of them (`Covers.of_cons`): the nearest entry of its name is
its own, or was entered later. What is done within a call takes place above what was on the stack
when it began (`LossyStep.stack_within`), so an exit brings back the stack from before its entry,
as long as no function of the same name was entered in between (`Replay.lost_exits`).
-/

namespace CallTrace

/-! ## Unwinding -/

namespace Replay

variable {α : Type} [DecidableEq α] {x : α} {stack : List α}

theorem unwind_cons_of_ne {y : α} (h : y ≠ x) (hx : x ∈ stack) :
    unwind x (y :: stack) = unwind x stack := by
  simp [unwind, h, hx]

theorem unwind_append_of_mem (h : x ∈ stack) (below : List α) :
    unwind x (stack ++ below) = unwind x stack ++ below := by
  induction stack with
  | nil => exact absurd h List.not_mem_nil
  | cons y rest ih =>
    by_cases hy : y = x
    · subst hy
      simp
    · have hx : x ∈ rest := List.mem_of_ne_of_mem (Ne.symm hy) h
      rw [List.cons_append, unwind_cons_of_ne hy (List.mem_append_left below hx), ih hx,
        unwind_cons_of_ne hy hx]

theorem unwind_append_cons_self (h : x ∉ stack) (below : List α) :
    unwind x (stack ++ x :: below) = below := by
  induction stack with
  | nil => exact unwind_cons_self x below
  | cons y rest ih =>
    have hy : y ≠ x := fun heq => h (heq ▸ List.mem_cons_self)
    rw [List.cons_append, unwind_cons_of_ne hy (List.mem_append_right _ List.mem_cons_self),
      ih fun hx => h (List.mem_cons_of_mem _ hx)]

/-- What lies below an entry lies below the nearest one of the same name. -/
theorem sublist_unwind {xs : List α} (h : (x :: xs).Sublist stack) :
    xs.Sublist (unwind x stack) := by
  induction stack with
  | nil => cases h
  | cons y rest ih =>
    by_cases hy : y = x
    · subst hy
      rw [unwind_cons_self]
      exact List.cons_sublist_cons.1 h
    · have hrest : (x :: xs).Sublist rest := by
        cases h with
        | cons _ h => exact h
        | cons_cons _ h => exact absurd rfl hy
      rw [unwind_cons_of_ne hy (hrest.subset List.mem_cons_self)]
      exact ih hrest

end Replay

/-! ## Histories -/

/-- A step of a call stack, of which the mark may be lost if it is an exit. -/
inductive LossyStep where
  | enter (id : FunctionId) (clock : Int64)
  | exit (isLost : Bool) (clock : Int64)

namespace LossyStep

/-- The functions that are open after a step, the innermost one first. An exit leaves the innermost
one, so there has to be one. -/
def next? (frames : List FunctionId) : LossyStep → Option (List FunctionId)
  | enter id _ => some (id :: frames)
  | exit .. => frames.tail?

/-- The functions that are open after steps, if each exit leaves one that is open. -/
def live? (frames : List FunctionId) (steps : List LossyStep) : Option (List FunctionId) :=
  steps.foldlM next? frames

/-- The function that a step enters. -/
def entered? : LossyStep → Option FunctionId
  | enter id _ => some id
  | exit .. => none

/-- The mark that a step leaves in the trace. -/
def mark? (frames : List FunctionId) : LossyStep → Option Call
  | enter id clock => some (.entry (some id) clock)
  | exit isLost clock =>
    if isLost then none else frames.head?.map fun top => .exit (some top) clock

/-- The marks that steps leave in the trace. -/
def marks : List FunctionId → List LossyStep → List Call
  | _, [] => []
  | frames, step :: rest =>
    (step.mark? frames).toList ++ marks ((step.next? frames).getD frames) rest

end LossyStep

/-! ## The stack of the replay -/

variable {α : Type} (name : Option FunctionId → Option α)

/-- The functions that are open have their names on the stack, in their order. -/
def Covers (frames : List FunctionId) (stack : List α) : Prop :=
  (frames.map fun id => name (some id)).Sublist (stack.map some)

variable {name}

theorem covers_nil (stack : List α) : Covers name [] stack :=
  List.nil_sublist _

namespace Covers

variable {id : FunctionId} {frames : List FunctionId} {stack : List α}

theorem cons (h : Covers name frames stack) {x : α} (hx : name (some id) = some x) :
    Covers name (id :: frames) (x :: stack) := by
  rw [Covers, List.map_cons, List.map_cons, hx]
  exact h.cons_cons _

/-- If the mark of an exit is lost, the name of the function that was left stays. -/
theorem tail (h : Covers name (id :: frames) stack) : Covers name frames stack :=
  (List.sublist_cons_self _ _).trans h

theorem exists_name (h : Covers name (id :: frames) stack) :
    ∃ x ∈ stack, name (some id) = some x := by
  have hmem : name (some id) ∈ stack.map some := h.subset List.mem_cons_self
  obtain ⟨x, hx, heq⟩ := List.mem_map.1 hmem
  exact ⟨x, hx, heq.symm⟩

variable [DecidableEq α]

/-- **The mark of an exit never unwinds past an open function.** -/
theorem of_cons (h : Covers name (id :: frames) stack) {x : α} (hx : name (some id) = some x) :
    Covers name frames (Replay.unwind x stack) := by
  rw [Covers, List.map_cons, hx] at h
  have hbelow := Replay.sublist_unwind h
  rwa [Replay.unwind_map fun y _ => Option.some.inj] at hbelow

end Covers

namespace LossyStep

variable [DecidableEq α] {own own' : List FunctionId}

theorem next?_append {step : LossyStep} (h : step.next? own = some own')
    (outer : List FunctionId) : step.next? (own ++ outer) = some (own' ++ outer) := by
  cases step with
  | enter id clock =>
    obtain rfl := Option.some.inj h
    rfl
  | exit isLost clock =>
    cases own with
    | nil => cases h
    | cons top below =>
      obtain rfl := Option.some.inj h
      rfl

/-- A step among functions that are open takes place above what is on the stack below them. -/
theorem stack_step_within {step : LossyStep} (hnext : step.next? own = some own')
    (hnamed : ∀ id ∈ step.entered?, (name (some id)).isSome) {stack : List α}
    (hcovers : Covers name own stack) (outer : List FunctionId) (base : List α) :
    ∃ stack', (step.mark? (own ++ outer)).toList.foldl (Call.opened name) (stack ++ base) =
        stack' ++ base ∧ Covers name own' stack' ∧
      ∀ x ∈ stack', x ∈ stack ∨ ∃ id ∈ step.entered?, name (some id) = some x := by
  cases step with
  | enter id clock =>
    obtain ⟨x, hx⟩ := Option.isSome_iff_exists.1 (hnamed id rfl)
    obtain rfl := Option.some.inj hnext
    refine ⟨x :: stack, ?_, hcovers.cons hx, ?_⟩
    · simp [mark?, hx]
    · intro y hy
      rcases List.mem_cons.1 hy with rfl | hy
      · exact .inr ⟨id, rfl, hx⟩
      · exact .inl hy
  | exit isLost clock =>
    cases own with
    | nil => cases hnext
    | cons top below =>
      obtain rfl := Option.some.inj hnext
      cases isLost with
      | true => exact ⟨stack, rfl, hcovers.tail, fun y hy => .inl hy⟩
      | false =>
        obtain ⟨x, hmem, hx⟩ := hcovers.exists_name
        refine ⟨Replay.unwind x stack, ?_, hcovers.of_cons hx, ?_⟩
        · simp [mark?, hx, Replay.unwind_append_of_mem hmem]
        · intro y hy
          exact .inl (Replay.unwind_subset x stack hy)

/-- So do steps one after the other. -/
theorem stack_within {steps : List LossyStep} (hlive : live? own steps = some own')
    (hnamed : ∀ step ∈ steps, ∀ id ∈ step.entered?, (name (some id)).isSome) {stack : List α}
    (hcovers : Covers name own stack) (outer : List FunctionId) (base : List α) :
    ∃ stack', (marks (own ++ outer) steps).foldl (Call.opened name) (stack ++ base) =
        stack' ++ base ∧ Covers name own' stack' ∧
      ∀ x ∈ stack',
        x ∈ stack ∨ ∃ step ∈ steps, ∃ id ∈ step.entered?, name (some id) = some x := by
  induction steps generalizing own stack with
  | nil =>
    obtain rfl := Option.some.inj hlive
    exact ⟨stack, rfl, hcovers, fun x hx => .inl hx⟩
  | cons step rest ih =>
    obtain ⟨middle, hnext, hrest⟩ := Option.bind_eq_some_iff.1 hlive
    obtain ⟨stack₁, hstack₁, hcovers₁, hmem₁⟩ :=
      stack_step_within hnext (hnamed step List.mem_cons_self) hcovers outer base
    obtain ⟨stack₂, hstack₂, hcovers₂, hmem₂⟩ :=
      ih hrest (fun step' hstep => hnamed step' (List.mem_cons_of_mem _ hstep)) hcovers₁
    refine ⟨stack₂, ?_, hcovers₂, ?_⟩
    · rw [marks, List.foldl_append, hstack₁, next?_append hnext, Option.getD_some, hstack₂]
    · intro x hx
      rcases hmem₂ x hx with hx | ⟨step', hstep, hentered⟩
      · rcases hmem₁ x hx with hx | hentered
        · exact .inl hx
        · exact .inr ⟨step, List.mem_cons_self, hentered⟩
      · exact .inr ⟨step', List.mem_cons_of_mem _ hstep, hentered⟩

/-! ## Calls -/

theorem live?_append (frames : List FunctionId) (steps more : List LossyStep) :
    live? frames (steps ++ more) = (live? frames steps).bind fun frames => live? frames more :=
  List.foldlM_append

/-- What is left of the functions that are open stays so below others. -/
theorem live?_within {steps : List LossyStep} (h : live? own steps = some own')
    (outer : List FunctionId) : live? (own ++ outer) steps = some (own' ++ outer) := by
  induction steps generalizing own with
  | nil =>
    obtain rfl := Option.some.inj h
    rfl
  | cons step rest ih =>
    obtain ⟨middle, hnext, hrest⟩ := Option.bind_eq_some_iff.1 h
    have hrest' := ih hrest
    rw [live?, List.foldlM_cons, next?_append hnext]
    exact hrest'

theorem marks_append {frames frames' : List FunctionId} {steps : List LossyStep}
    (h : live? frames steps = some frames') (more : List LossyStep) :
    marks frames (steps ++ more) = marks frames steps ++ marks frames' more := by
  induction steps generalizing frames with
  | nil =>
    obtain rfl := Option.some.inj h
    rfl
  | cons step rest ih =>
    obtain ⟨middle, hnext, hrest⟩ := Option.bind_eq_some_iff.1 h
    rw [List.cons_append, marks, marks, hnext, Option.getD_some, ih hrest, List.append_assoc]

/-- A call leaves the stack as it was, if its exit is marked and no function of its name was entered
before. -/
theorem stack_call {inside : List LossyStep} (hinside : live? [] inside = some [])
    (hnamed : ∀ step ∈ inside, ∀ id ∈ step.entered?, (name (some id)).isSome)
    {id : FunctionId} {x : α} (hx : name (some id) = some x)
    (hother : ∀ step ∈ inside, ∀ other ∈ step.entered?, name (some other) ≠ some x)
    (frames : List FunctionId) (stack : List α) (clock clock' : Int64) :
    (marks frames (.enter id clock :: inside ++ [.exit false clock'])).foldl (Call.opened name)
      stack = stack := by
  obtain ⟨stack', hstack, -, hmem⟩ :=
    stack_within hinside hnamed (covers_nil []) (id :: frames) (x :: stack)
  have hnot : x ∉ stack' := by
    intro hx'
    rcases hmem x hx' with hnil | ⟨step, hstep, other, hentered, heq⟩
    · exact List.not_mem_nil hnil
    · exact hother step hstep other hentered heq
  have hopen : live? (id :: frames) inside = some (id :: frames) :=
    live?_within hinside (id :: frames)
  have hmarks : marks frames (.enter id clock :: inside ++ [.exit false clock']) =
      .entry (some id) clock :: (marks (id :: frames) inside ++ [.exit (some id) clock']) := by
    rw [List.cons_append, marks, next?, Option.getD_some, marks_append hopen]
    rfl
  rw [hmarks, List.foldl_cons, List.foldl_append, Call.opened_entry, hx]
  calc [Call.exit (some id) clock'].foldl (Call.opened name)
        ((marks (id :: frames) inside).foldl (Call.opened name) (x :: stack))
      = Call.opened name (stack' ++ x :: stack) (.exit (some id) clock') :=
        congrArg (Call.opened name · (.exit (some id) clock')) hstack
    _ = Replay.unwind x (stack' ++ x :: stack) := by rw [Call.opened_exit, hx]; rfl
    _ = stack := Replay.unwind_append_cons_self hnot stack

/-- The stack of a replay of the marks that a history left. -/
def stackAfter (globals : GlobalIds) (steps : List LossyStep) : List Nat :=
  ((Replay.new globals).playAll ∅ (marks [] steps)).1.stack

theorem stackAfter_eq (globals : GlobalIds) (steps : List LossyStep) :
    stackAfter globals steps = (marks [] steps).foldl (Call.opened (globals[·]?)) [] := by
  rw [stackAfter, Replay.playAll_eq]
  rfl

end LossyStep

/-- **A replay with lost exits never drops an open function.** Of a history of nested calls of
functions with global ids, let any exits be lost. At every point, the global ids of the functions
that are open stand on the stack of the replay in their order. And an exit that is marked brings
back the stack from before its entry, whatever was lost in between, if no function with the same
global id was entered there. -/
theorem Replay.lost_exits {globals : GlobalIds} {steps : List LossyStep}
    (hlive : (LossyStep.live? [] steps).isSome)
    (hknown : ∀ step ∈ steps, ∀ id ∈ step.entered?, (globals[some id]?).isSome) :
    (∀ earlier later, steps = earlier ++ later →
      ∃ frames, LossyStep.live? [] earlier = some frames ∧
        (frames.map fun id => globals[some id]?).Sublist
          ((LossyStep.stackAfter globals earlier).map some)) ∧
      ∀ earlier id clock inside clock' later,
        steps = earlier ++ (.enter id clock :: inside ++ [.exit false clock']) ++ later →
        LossyStep.live? [] inside = some [] →
        (∀ step ∈ inside, ∀ other ∈ step.entered?, globals[some other]? ≠ globals[some id]?) →
        LossyStep.stackAfter globals
            (earlier ++ (.enter id clock :: inside ++ [.exit false clock'])) =
          LossyStep.stackAfter globals earlier := by
  have hprefix {earlier later : List LossyStep} (h : steps = earlier ++ later) :
      ∃ frames, LossyStep.live? [] earlier = some frames := by
    obtain ⟨last, hlast⟩ := Option.isSome_iff_exists.1 hlive
    rw [h, LossyStep.live?_append] at hlast
    obtain ⟨frames, hframes, -⟩ := Option.bind_eq_some_iff.1 hlast
    exact ⟨frames, hframes⟩
  constructor
  · intro earlier later h
    obtain ⟨frames, hframes⟩ := hprefix h
    have hnamed : ∀ step ∈ earlier, ∀ id ∈ step.entered?, (globals[some id]?).isSome := by
      intro step hstep
      apply hknown
      rw [h]
      exact List.mem_append_left later hstep
    obtain ⟨stack, hstack, hcovers, -⟩ :=
      LossyStep.stack_within hframes hnamed (covers_nil []) [] []
    refine ⟨frames, hframes, ?_⟩
    rw [List.append_nil, List.append_nil, List.append_nil] at hstack
    rw [LossyStep.stackAfter_eq, hstack]
    exact hcovers
  · intro earlier id clock inside clock' later h hinside hother
    obtain ⟨frames, hframes⟩ := hprefix ((List.append_assoc ..).symm.trans h.symm).symm
    have hmem : ∀ step ∈ .enter id clock :: inside, step ∈ steps := by
      intro step hstep
      rw [h]
      exact List.mem_append_left _ (List.mem_append_right _ (List.mem_append_left _ hstep))
    obtain ⟨x, hx⟩ := Option.isSome_iff_exists.1
      (hknown _ (hmem _ List.mem_cons_self) id rfl)
    rw [LossyStep.stackAfter_eq, LossyStep.stackAfter_eq, LossyStep.marks_append hframes,
      List.foldl_append]
    apply LossyStep.stack_call hinside _ hx
    · intro step hstep other hentered
      rw [← hx]
      exact hother step hstep other hentered
    · intro step hstep
      exact hknown step (hmem step (List.mem_cons_of_mem _ hstep))

/-- A function was left without a mark, and is entered again from another one. It calls a third
function twice, of which no exit is marked. -/
theorem Replay.lost_exits_left_before :
    let main : FunctionId := ⟨0, by decide⟩
    let caller : FunctionId := ⟨1, by decide⟩
    let callee : FunctionId := ⟨2, by decide⟩
    let globals : GlobalIds := (∅ : GlobalIds).insert (some main) 10
      |>.insert (some caller) 11 |>.insert (some callee) 12
    let earlier : List LossyStep := [.enter caller 1, .exit true 2, .enter main 3]
    let inside : List LossyStep := [.enter callee 5, .exit true 6, .enter callee 7, .exit true 8]
    let steps := earlier ++ (.enter caller 4 :: inside ++ [.exit false 9])
    (LossyStep.live? [] steps).isSome ∧
      (∀ step ∈ steps, ∀ id ∈ step.entered?, (globals[some id]?).isSome) ∧
      LossyStep.stackAfter globals steps = LossyStep.stackAfter globals earlier ∧
      LossyStep.stackAfter globals earlier = [10, 11] ∧
      ∃ frames, LossyStep.live? [] steps = some frames ∧
        (frames.map fun id => globals[some id]?).Sublist
          ((LossyStep.stackAfter globals steps).map some) := by
  intro main caller callee globals earlier inside steps
  have hmain : globals[some main]? = some 10 := by
    simp only [globals, Std.HashMap.getElem?_insert]
    rfl
  have hcaller : globals[some caller]? = some 11 := by
    simp only [globals, Std.HashMap.getElem?_insert]
    rfl
  have hcallee : globals[some callee]? = some 12 := by simp [globals]
  have hlive : (LossyStep.live? [] steps).isSome := by decide
  have hknown : ∀ step ∈ steps, ∀ id ∈ step.entered?, (globals[some id]?).isSome := by
    simp [steps, earlier, inside, LossyStep.entered?, globals]
  have hother : ∀ step ∈ inside, ∀ other ∈ step.entered?,
      globals[some other]? ≠ globals[some caller]? := by
    simp [inside, LossyStep.entered?, hcaller, hcallee]
  have hearlier : LossyStep.stackAfter globals earlier = [10, 11] := by
    simp [LossyStep.stackAfter_eq, earlier, LossyStep.marks, LossyStep.mark?, hmain, hcaller]
  obtain ⟨hcovers, hcalls⟩ := lost_exits hlive hknown
  have hsteps : steps = steps ++ [] := (List.append_nil steps).symm
  exact ⟨hlive, hknown, hcalls earlier caller 4 inside 9 [] hsteps rfl hother, hearlier,
    hcovers steps [] hsteps⟩

end CallTrace
