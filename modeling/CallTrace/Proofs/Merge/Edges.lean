import CallTrace.Merge.Edges

/-!
# Edges as a relation

`Edges.Has edges a b`: there is an edge from `a` to `b`. Connecting adds exactly the edge it names
(`Edges.has_connect`), and an edge that is there already changes nothing (`Edges.connect_equiv`).
-/

namespace CallTrace.Edges

variable {edges : Edges} {a b x y : Nat}

/-- There is an edge from `a` to `b`. -/
def Has (edges : Edges) (a b : Nat) : Prop :=
  b ∈ edges.callees a

@[simp] theorem not_has_empty : ¬Has ∅ a b := by
  simp [Has, callees]

@[simp] theorem has_connect : (edges.connect x y).Has a b ↔ a = x ∧ b = y ∨ edges.Has a b := by
  simp only [Has, callees, connect, Std.TreeMap.getD_insert, Std.LawfulEqCmp.compare_eq_iff_eq]
  by_cases h : x = a
  · subst h
    simp [Std.TreeSet.mem_insert, @eq_comm _ y]
  · simp [h, Ne.symm h]

/-- Inserting a member of a set leaves the set as it is. -/
theorem insert_eq_self {set : Std.TreeSet Nat} (h : y ∈ set) : set.insert y = set := by
  obtain ⟨⟨⟨impl, wf⟩⟩⟩ := set
  have hc : impl.contains y = true := h
  simp only [Std.TreeSet.insert, Std.TreeMap.insertIfNew, Std.DTreeMap.insertIfNew,
    Std.DTreeMap.Internal.Impl.insertIfNew, hc, if_true]

/-- An edge that is there already changes nothing. -/
theorem connect_equiv (h : edges.Has x y) : (edges.connect x y).Equiv edges := by
  unfold Has callees at h
  have hx : x ∈ edges := by
    refine Decidable.byContradiction fun hx => ?_
    rw [Std.TreeMap.getD_eq_fallback hx] at h
    exact Std.TreeSet.not_mem_emptyc h
  refine .of_forall_constGet?_eq fun k => ?_
  rw [connect, insert_eq_self h, Std.TreeMap.getElem?_insert]
  split
  · rename_i hk
    rw [← Std.LawfulEqCmp.compare_eq_iff_eq.1 hk, Std.TreeMap.getD_eq_getD_getElem?,
      Std.TreeMap.getElem?_eq_some_getElem hx, Option.getD_some]
  · rfl

/-- With all edges of a list. -/
def connectAll (edges : Edges) (pairs : List (Nat × Nat)) : Edges :=
  pairs.foldl (fun edges pair => edges.connect pair.1 pair.2) edges

@[simp] theorem has_connectAll {pairs : List (Nat × Nat)} :
    (edges.connectAll pairs).Has a b ↔ edges.Has a b ∨ (a, b) ∈ pairs := by
  induction pairs generalizing edges with
  | nil => simp [connectAll]
  | cons pair rest ih =>
    obtain ⟨x, y⟩ := pair
    simp only [connectAll, List.foldl_cons] at ih ⊢
    rw [ih, has_connect, List.mem_cons, Prod.mk.injEq, or_assoc, or_left_comm]

theorem connectAll_equiv {pairs : List (Nat × Nat)} (h : ∀ pair ∈ pairs, edges.Has pair.1 pair.2) :
    (edges.connectAll pairs).Equiv edges := by
  induction pairs generalizing edges with
  | nil => exact .rfl
  | cons pair rest ih =>
    have hpair := h pair List.mem_cons_self
    refine .trans (ih fun pair' h' => ?_) (connect_equiv hpair)
    exact has_connect.2 (.inr (h pair' (List.mem_cons_of_mem _ h')))

end CallTrace.Edges
