import CallTrace.Proofs.Merge.Union
import Mathlib.Algebra.Order.BigOperators.Group.List
import Mathlib.Algebra.Order.Ring.Nat

/-!
# What is counted as missing

A replay counts the ids that have no name, and passes over each record that has one of them
(`Call.opened_of_isPassedOver`, `Call.edgeTold?_of_isPassedOver`). So it counts a record that it
passes over once, or twice if two ids are told and neither has a name (`Call.sum_unnamed`,
`Replay.missing_playAll`). The count of a merge is that of its processes together
(`GraphBuilder.missing_addAll`). It is the number of the records that were passed over where no
record counts twice, and only there (`GraphBuilder.missing_eq_passedOver_iff`).
-/

namespace CallTrace

namespace Call

variable {α : Type} (name : Option FunctionId → Option α)

/-- A record that is told by an id without a name. -/
def isPassedOver (call : Call) : Bool :=
  call.ends.any fun id => (name id).isNone

/-- A record that is told by two ids, neither of which has a name. -/
def isNameless (call : Call) : Bool :=
  call.ends.length == 2 && call.ends.all fun id => (name id).isNone

theorem ends_cases (call : Call) :
    (call.isEntry = true ∧ call.ends = [call.callee]) ∨
      (call.isEntry = false ∧ call.isExit = true ∧ call.ends = [call.caller]) ∨
      (call.isEntry = false ∧ call.isExit = false ∧ call.ends = [call.caller, call.callee]) := by
  unfold ends
  cases call.isEntry with
  | true => exact .inl ⟨rfl, rfl⟩
  | false =>
    cases call.isExit with
    | true => exact .inr (.inl ⟨rfl, rfl, rfl⟩)
    | false => exact .inr (.inr ⟨rfl, rfl, rfl⟩)

theorem unnamed_eq_passedOver_add_nameless (call : Call) :
    call.unnamed name =
      (if call.isPassedOver name then 1 else 0) + if call.isNameless name then 1 else 0 := by
  unfold unnamed isPassedOver isNameless
  obtain ⟨-, h⟩ | ⟨-, -, h⟩ | ⟨-, -, h⟩ := call.ends_cases
  · rw [h]
    cases hcallee : name call.callee <;> simp [hcallee]
  · rw [h]
    cases hcaller : name call.caller <;> simp [hcaller]
  · rw [h]
    cases hcaller : name call.caller <;> cases hcallee : name call.callee <;>
      simp [hcaller, hcallee]

theorem sum_unnamed (calls : List Call) :
    (calls.map (unnamed name)).sum =
      calls.countP (isPassedOver name) + calls.countP (isNameless name) := by
  induction calls with
  | nil => rfl
  | cons call rest ih =>
    rw [List.map_cons, List.sum_cons, ih, List.countP_cons, List.countP_cons,
      unnamed_eq_passedOver_add_nameless]
    omega

variable {name} {call : Call} {stack : List α}

/-- A record that is passed over opens and closes nothing. -/
theorem opened_of_isPassedOver [DecidableEq α] (h : call.isPassedOver name = true) :
    call.opened name stack = stack := by
  unfold isPassedOver at h
  unfold opened
  obtain ⟨hentry, hends⟩ | ⟨hentry, hexit, hends⟩ | ⟨hentry, hexit, hends⟩ := call.ends_cases
  · have hcallee : name call.callee = none := by simpa [hends] using h
    simp [hentry, hcallee]
  · have hcaller : name call.caller = none := by simpa [hends] using h
    simp [hentry, hexit, hcaller]
  · simp [hentry, hexit]

/-- A record that is passed over tells no edge. -/
theorem edgeTold?_of_isPassedOver (h : call.isPassedOver name = true) :
    call.edgeTold? name stack = none := by
  unfold isPassedOver at h
  unfold edgeTold?
  obtain ⟨hentry, hends⟩ | ⟨hentry, hexit, hends⟩ | ⟨hentry, hexit, hends⟩ := call.ends_cases
  · have hcallee : name call.callee = none := by simpa [hends] using h
    simp [hentry, hcallee]
  · simp [hentry, hexit]
  · have hends : name call.caller = none ∨ name call.callee = none := by simpa [hends] using h
    rcases hends with hcaller | hcallee
    · simp [hentry, hexit, hcaller]
    · simp [hentry, hexit, hcallee]

end Call

theorem Replay.missing_playAll (globals : GlobalIds) (edges : Edges) (calls : List Call) :
    ((Replay.new globals).playAll edges calls).1.missing =
      calls.countP (Call.isPassedOver (globals[·]?)) +
        calls.countP (Call.isNameless (globals[·]?)) := by
  rw [← Call.sum_unnamed, Replay.playAll_eq]
  exact Nat.zero_add _

namespace GraphBuilder

theorem missing_addAll (processes : List Process) :
    (empty.addAll processes).missing =
      (processes.map fun process =>
        process.calls.countP (Call.isPassedOver (placeOf? process.definitions))).sum +
      (processes.map fun process =>
        process.calls.countP (Call.isNameless (placeOf? process.definitions))).sum := by
  rw [← List.sum_map_add]
  simp only [← Call.sum_unnamed]
  exact (numbered_empty.addAll processes).2.2.2.trans (Nat.zero_add _)

/-- **When each record that is passed over is counted once.** The count of a replay is the number
of the records that it passes over if and only if none of them is told by two ids without a global
one. So is the count of a merge, over all its processes. -/
theorem missing_eq_passedOver_iff (globals : GlobalIds) (edges : Edges) (calls : List Call)
    (processes : List Process) :
    (((Replay.new globals).playAll edges calls).1.missing =
        calls.countP (Call.isPassedOver (globals[·]?)) ↔
      ∀ call ∈ calls, call.isNameless (globals[·]?) = false) ∧
      ((empty.addAll processes).missing =
          (processes.map fun process =>
            process.calls.countP (Call.isPassedOver (placeOf? process.definitions))).sum ↔
        ∀ process ∈ processes, ∀ call ∈ process.calls,
          call.isNameless (placeOf? process.definitions) = false) := by
  constructor
  · rw [Replay.missing_playAll, Nat.add_eq_left, List.countP_eq_zero]
    simp only [Bool.not_eq_true]
  · rw [missing_addAll, Nat.add_eq_left, List.sum_eq_zero_iff]
    simp only [List.mem_map, forall_exists_index, and_imp, forall_apply_eq_imp_iff₂,
      List.countP_eq_zero, Bool.not_eq_true]

/-- A single edge between two functions that are not defined is counted twice. -/
theorem missing_ne_passedOver :
    let call : Call := ⟨some ⟨7, by decide⟩, some ⟨8, by decide⟩, 1⟩
    ((Replay.new ∅).playAll ∅ [call]).1.missing ≠
        [call].countP (Call.isPassedOver ((∅ : GlobalIds)[·]?)) ∧
      (empty.addAll [⟨[], [call]⟩]).missing ≠ [call].countP (Call.isPassedOver (placeOf? [])) := by
  intro call
  constructor
  · rw [Replay.missing_playAll]
    simp [Call.isNameless, Call.ends, Call.isEntry, Call.isExit, call]
  · rw [missing_addAll]
    decide +kernel

end GraphBuilder

end CallTrace
