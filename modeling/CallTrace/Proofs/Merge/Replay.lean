import CallTrace.Merge.Replay
import CallTrace.Proofs.Merge.Edges
import Mathlib.Algebra.GroupWithZero.Nat
import Mathlib.Data.Set.Function

/-!
# What calls tell

The edges that calls tell depend on nothing but the names of their functions (`Call.edgesTold`):
not on the edges that were there, and not on what the names are, as long as different functions
are not confused (`Call.edgesTold_map`). A replay collects exactly these edges, with global ids
for names, and counts the ids without one (`Replay.playAll_eq`).
-/

namespace CallTrace

namespace Call

variable {α β : Type} [DecidableEq α] [DecidableEq β]

/-- The ids by which a call is told. -/
def ends (call : Call) : List (Option FunctionId) :=
  if call.isEntry then [call.callee]
  else if call.isExit then [call.caller]
  else [call.caller, call.callee]

/-- How many of its ids have no name. -/
def unnamed (name : Option FunctionId → Option α) (call : Call) : Nat :=
  call.ends.countP fun id => (name id).isNone

/-- What is open after a call. -/
def opened (name : Option FunctionId → Option α) (stack : List α) (call : Call) : List α :=
  if call.isEntry then (name call.callee).toList ++ stack
  else if call.isExit then (name call.caller).elim stack (Replay.unwind · stack)
  else stack

/-- The edge that a call tells, if its functions have names. -/
def edgeTold? (name : Option FunctionId → Option α) (stack : List α) (call : Call) :
    Option (α × α) :=
  if call.isEntry then stack.head?.bind fun top => (name call.callee).map (top, ·)
  else if call.isExit then none
  else (name call.caller).bind fun caller => (name call.callee).map (caller, ·)

/-- The edges that calls tell one after the other. -/
def edgesTold (name : Option FunctionId → Option α) : List α → List Call → List (α × α)
  | _, [] => []
  | stack, call :: rest =>
    (call.edgeTold? name stack).toList ++ edgesTold name (call.opened name stack) rest

section

omit [DecidableEq α]

variable (name : Option FunctionId → Option α) (stack : List α) (id : FunctionId) (clock : Int64)

@[simp] theorem ends_entry : (entry (some id) clock).ends = [some id] := rfl

@[simp] theorem ends_exit : (exit (some id) clock).ends = [some id] := rfl

@[simp] theorem edgeTold?_entry :
    (entry (some id) clock).edgeTold? name stack =
      stack.head?.bind fun top => (name (some id)).map (top, ·) := rfl

@[simp] theorem edgeTold?_exit : (exit (some id) clock).edgeTold? name stack = none := rfl

end

@[simp] theorem opened_entry (name : Option FunctionId → Option α) (stack : List α)
    (id : FunctionId) (clock : Int64) :
    (entry (some id) clock).opened name stack = (name (some id)).toList ++ stack := rfl

@[simp] theorem opened_exit (name : Option FunctionId → Option α) (stack : List α)
    (id : FunctionId) (clock : Int64) :
    (exit (some id) clock).opened name stack =
      (name (some id)).elim stack (Replay.unwind · stack) := rfl

end Call

theorem Call.edgesTold_append {α : Type} [DecidableEq α] (name : Option FunctionId → Option α)
    (stack : List α) (calls more : List Call) :
    edgesTold name stack (calls ++ more) =
      edgesTold name stack calls ++ edgesTold name (calls.foldl (opened name) stack) more := by
  induction calls generalizing stack with
  | nil => rfl
  | cons call rest ih =>
    rw [List.cons_append, edgesTold, edgesTold, ih, List.append_assoc, List.foldl_cons]

/-- The names of a caller and a callee, where both have one. -/
def namedPair? {α : Type} (name : Option FunctionId → Option α)
    (caller callee : Option FunctionId) : Option (α × α) :=
  (name caller).bind fun caller => (name callee).map (caller, ·)

theorem namedPair?_eq_some {α : Type} {name : Option FunctionId → Option α}
    {caller callee : Option FunctionId} {a b : α} :
    namedPair? name caller callee = some (a, b) ↔ name caller = some a ∧ name callee = some b := by
  simp [namedPair?, Option.bind_eq_some_iff]

/-- Calls with both ends tell the edges between the names of their ends. -/
theorem Call.edgesTold_of_edges {α : Type} [DecidableEq α] (name : Option FunctionId → Option α)
    (stack : List α) {calls : List Call}
    (h : ∀ call ∈ calls, call.caller.isSome ∧ call.callee.isSome) :
    edgesTold name stack calls =
      calls.filterMap fun call => namedPair? name call.caller call.callee := by
  induction calls generalizing stack with
  | nil => rfl
  | cons call rest ih =>
    obtain ⟨hcaller, hcallee⟩ := h call List.mem_cons_self
    have hentry : call.isEntry = false := by
      rw [isEntry, Option.isNone_eq_false_iff.2 hcaller, Bool.false_and]
    have hexit : call.isExit = false := by
      rw [isExit, Option.isNone_eq_false_iff.2 hcallee, Bool.and_false]
    have hopened : call.opened name stack = stack := by simp [opened, hentry, hexit]
    have htold : call.edgeTold? name stack = namedPair? name call.caller call.callee := by
      simp [edgeTold?, hentry, hexit, namedPair?]
    have hrest := ih stack fun call' hcall => h call' (List.mem_cons_of_mem _ hcall)
    rw [edgesTold, hopened, htold, hrest, List.filterMap_cons]
    cases namedPair? name call.caller call.callee with
    | none => rfl
    | some edge => rfl

/-! ## Other names -/

namespace Replay

variable {α β : Type} [DecidableEq α] [DecidableEq β]

@[simp] theorem unwind_cons_self (x : α) (stack : List α) : unwind x (x :: stack) = stack := by
  simp [unwind]

theorem unwind_subset (x : α) (stack : List α) : unwind x stack ⊆ stack := by
  unfold unwind
  split
  · exact fun y hy => (List.dropWhile_sublist _).subset (List.mem_of_mem_drop hy)
  · exact List.Subset.refl _

theorem unwind_map {f : α → β} {x : α} {stack : List α} (h : ∀ y ∈ stack, f y = f x → y = x) :
    unwind (f x) (stack.map f) = (unwind x stack).map f := by
  have hmem : (stack.map f).contains (f x) = stack.contains x := by
    rw [Bool.eq_iff_iff, List.contains_iff_mem, List.contains_iff_mem, List.mem_map]
    refine ⟨?_, fun hx => ⟨x, hx, rfl⟩⟩
    rintro ⟨y, hy, heq⟩
    exact h y hy heq ▸ hy
  have hdrop : (stack.map f).dropWhile (· != f x) = (stack.dropWhile (· != x)).map f := by
    clear hmem
    induction stack with
    | nil => rfl
    | cons y rest ih =>
      have hy : (f y != f x) = (y != x) := by
        rw [Bool.eq_iff_iff, bne_iff_ne, bne_iff_ne]
        exact not_congr ⟨h y List.mem_cons_self, congrArg f⟩
      rw [List.map_cons, List.dropWhile_cons, List.dropWhile_cons, hy]
      split
      · exact ih fun z hz => h z (List.mem_cons_of_mem _ hz)
      · rfl
  unfold unwind
  rw [hmem, hdrop]
  split
  · exact List.map_drop.symm
  · rfl

end Replay

namespace Call

variable {α β : Type} [DecidableEq α] [DecidableEq β] {S : Set α}
  {name : Option FunctionId → Option α} {stack : List α}

/-- What is open stays among the names. -/
theorem opened_mem (hname : ∀ id, ∀ x ∈ name id, x ∈ S) (hstack : ∀ x ∈ stack, x ∈ S)
    (call : Call) : ∀ x ∈ call.opened name stack, x ∈ S := by
  intro x hx
  unfold opened at hx
  split at hx
  · rcases List.mem_append.1 hx with hx | hx
    · exact hname _ x (Option.mem_toList.1 hx)
    · exact hstack x hx
  · split at hx
    · cases hcaller : name call.caller with
      | none => exact hstack x (by simpa [hcaller] using hx)
      | some caller =>
        rw [hcaller] at hx
        exact hstack x (Replay.unwind_subset caller stack hx)
    · exact hstack x hx

theorem opened_map {f : α → β} (hf : S.InjOn f) (hname : ∀ id, ∀ x ∈ name id, x ∈ S)
    (hstack : ∀ x ∈ stack, x ∈ S) (call : Call) :
    call.opened (fun id => (name id).map f) (stack.map f) = (call.opened name stack).map f := by
  unfold opened
  dsimp only
  split
  · cases name call.callee <;> rfl
  · split
    · cases hcaller : name call.caller with
      | none => rfl
      | some caller =>
        exact Replay.unwind_map fun y hy => hf (hstack y hy) (hname _ caller hcaller)
    · rfl

omit [DecidableEq α] [DecidableEq β] in
theorem edgeTold?_map (f : α → β) (call : Call) :
    call.edgeTold? (fun id => (name id).map f) (stack.map f) =
      (call.edgeTold? name stack).map (Prod.map f f) := by
  unfold edgeTold?
  dsimp only
  split
  · cases stack <;> cases name call.callee <;> rfl
  · split
    · rfl
    · cases name call.caller <;> cases name call.callee <;> rfl

/-- **Other names tell the same edges** as long as they tell the functions apart. -/
theorem edgesTold_map {f : α → β} (hf : S.InjOn f) (hname : ∀ id, ∀ x ∈ name id, x ∈ S)
    (hstack : ∀ x ∈ stack, x ∈ S) (calls : List Call) :
    edgesTold (fun id => (name id).map f) (stack.map f) calls =
      (edgesTold name stack calls).map (Prod.map f f) := by
  induction calls generalizing stack with
  | nil => rfl
  | cons call rest ih =>
    rw [edgesTold, edgesTold, opened_map hf hname hstack, edgeTold?_map,
      ih (opened_mem hname hstack call), List.map_append, Option.toList_map]

omit [DecidableEq α] in
theorem edgeTold?_mem (hname : ∀ id, ∀ x ∈ name id, x ∈ S) (hstack : ∀ x ∈ stack, x ∈ S)
    (call : Call) : ∀ p ∈ call.edgeTold? name stack, p.1 ∈ S ∧ p.2 ∈ S := by
  rintro ⟨caller, callee⟩ hp
  unfold edgeTold? at hp
  split at hp
  · obtain ⟨top, htop, hp⟩ := Option.bind_eq_some_iff.1 hp
    obtain ⟨_, hcallee, heq⟩ := Option.map_eq_some_iff.1 hp
    obtain ⟨rfl, rfl⟩ := Prod.mk.inj heq
    exact ⟨hstack _ (List.mem_of_mem_head? htop), hname _ _ hcallee⟩
  · split at hp
    · cases hp
    · obtain ⟨_, hcaller, hp⟩ := Option.bind_eq_some_iff.1 hp
      obtain ⟨_, hcallee, heq⟩ := Option.map_eq_some_iff.1 hp
      obtain ⟨rfl, rfl⟩ := Prod.mk.inj heq
      exact ⟨hname _ _ hcaller, hname _ _ hcallee⟩

theorem edgesTold_mem (hname : ∀ id, ∀ x ∈ name id, x ∈ S) (hstack : ∀ x ∈ stack, x ∈ S)
    (calls : List Call) : ∀ p ∈ edgesTold name stack calls, p.1 ∈ S ∧ p.2 ∈ S := by
  induction calls generalizing stack with
  | nil => exact fun p hp => absurd hp List.not_mem_nil
  | cons call rest ih =>
    intro p hp
    rcases List.mem_append.1 hp with hp | hp
    · exact edgeTold?_mem hname hstack call p (Option.mem_toList.1 hp)
    · exact ih (opened_mem hname hstack call) p hp

omit [DecidableEq α] [DecidableEq β] in
theorem unnamed_map (f : α → β) (call : Call) :
    call.unnamed (fun id => (name id).map f) = call.unnamed name := by
  simp only [unnamed, Option.isNone_map]

omit [DecidableEq α] in
theorem sum_unnamed_eq_zero {calls : List Call} (h : ∀ call ∈ calls, call.unnamed name = 0) :
    (calls.map (unnamed name)).sum = 0 := by
  refine List.sum_eq_zero_iff_forall_eq_nat.2 fun n hn => ?_
  obtain ⟨call, hcall, rfl⟩ := List.mem_map.1 hn
  exact h call hcall

end Call

/-! ## The replay -/

namespace Replay

theorem play_eq (replay : Replay) (call : Call) (edges : Edges) :
    replay.play call edges =
      ({ replay with
          stack := call.opened replay.global? replay.stack
          missing := replay.missing + call.unnamed replay.global? },
        edges.connectAll (call.edgeTold? replay.global? replay.stack).toList) := by
  obtain ⟨globals, stack, missing⟩ := replay
  unfold play Call.opened Call.unnamed Call.ends Call.edgeTold?
  by_cases hentry : call.isEntry = true
  · simp only [hentry, if_true]
    cases hg : global? ⟨globals, stack, missing⟩ call.callee with
    | none => cases stack <;> simp [countMissing, hg, Edges.connectAll]
    | some callee => cases stack <;> simp [enter, hg, Edges.connectAll]
  · by_cases hexit : call.isExit = true
    · simp only [hentry, hexit, if_true]
      cases hg : global? ⟨globals, stack, missing⟩ call.caller with
      | none => simp [countMissing, hg, Edges.connectAll]
      | some callee => simp [hg, Edges.connectAll]
    · simp only [hentry, hexit]
      have hmiss (m : Nat) (id : Option FunctionId) :
          global? ⟨globals, stack, m⟩ id = global? ⟨globals, stack, missing⟩ id := rfl
      cases hcaller : global? ⟨globals, stack, missing⟩ call.caller <;>
        cases hcallee : global? ⟨globals, stack, missing⟩ call.callee <;>
        simp [countMissing, hmiss, hcaller, hcallee, Edges.connectAll]

/-- **A replay collects the edges that its calls tell.** -/
theorem playAll_eq (replay : Replay) (edges : Edges) (calls : List Call) :
    replay.playAll edges calls =
      ({ replay with
          stack := calls.foldl (Call.opened replay.global?) replay.stack
          missing := replay.missing + (calls.map (Call.unnamed replay.global?)).sum },
        edges.connectAll (Call.edgesTold replay.global? replay.stack calls)) := by
  induction calls generalizing replay edges with
  | nil => rfl
  | cons call rest ih =>
    rw [playAll, play_eq]
    dsimp only
    rw [ih]
    simp only [Edges.connectAll, Call.edgesTold, List.foldl_append, List.foldl_cons, List.map_cons,
      List.sum_cons, Nat.add_assoc]
    rfl

end Replay

end CallTrace
