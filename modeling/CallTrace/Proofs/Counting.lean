import Mathlib.Data.Set.Card

/-!
# Counting by lists

A set is counted by a list of its members that repeats none of them (`encard_eq_length`), and the
members of a list by the numbers that they have (`sum_countP`).
-/

namespace CallTrace

variable {α : Type}

/-- A set that a list without repetitions lists has as many members as the list. -/
theorem encard_eq_length [DecidableEq α] {set : Set α} {list : List α}
    (hnodup : list.Nodup) (hmem : ∀ a, a ∈ list ↔ a ∈ set) : set.encard = list.length := by
  have hset : set = (list.toFinset : Set α) := by
    ext a
    simp [hmem]
  rw [hset, Set.encard_coe_eq_coe_finsetCard, List.toFinset_card_of_nodup hnodup]

theorem length_eq_of_nodup {xs ys : List α} (hx : xs.Nodup) (hy : ys.Nodup)
    (h : ∀ a, a ∈ xs ↔ a ∈ ys) : xs.length = ys.length :=
  ((List.perm_ext_iff_of_nodup hx hy).2 h).length_eq

theorem countP_lt_succ (key : α → Nat) (list : List α) (n : Nat) :
    list.countP (key · < n + 1) = list.countP (key · < n) + list.countP (key · = n) := by
  induction list with
  | nil => rfl
  | cons x list ih =>
    simp only [List.countP_cons, ih, decide_eq_true_eq]
    split <;> split <;> split <;> omega

/-- A list is counted number by number. -/
theorem sum_countP (key : α → Nat) (list : List α) (size : Nat) :
    ((List.range size).map fun n => list.countP (key · = n)).sum = list.countP (key · < size) := by
  induction size with
  | zero => simp
  | succ n ih =>
    rw [List.range_succ, List.map_append, List.sum_append, ih, List.map_singleton,
      List.sum_singleton, countP_lt_succ]

end CallTrace
