import CallTrace.Proofs.Counting
import CallTrace.Proofs.Merge.Representation
import CallTrace.Summary

/-!
# Degrees are those of the graph

The edges of a graph are listed as pairs (`Edges.pairs`). The callees of a function are those of the
pairs that it comes first in, and its callers those of the pairs that it comes second in
(`Edges.size_callees`, `Edges.length_callers`). In a well-formed graph all of them are functions, so
each column of the summary counts every pair once (`Edges.sum_countP_pairs`, `Summary.sum_column`).

Callers are counted in one pass over all callees, which adds to each row as many as it meets its
position (`Summary.getElem?_addCallers`), and it meets a function once for each caller
(`Edges.count_targets`). Callees are counted by the id of a function, which is the same number
(`Summary.map_counts_unsorted`). As no two rows have the same id, their order is strict
(`Summary.pairwise_before`), and there is one such arrangement of them (`Summary.eq_of_perm`).
-/

namespace CallTrace

/-! ## Edges as pairs -/

namespace Edges

/-- The edges, one after the other. -/
def pairs (edges : Edges) : List (Nat × Nat) :=
  edges.toList.flatMap fun entry => entry.2.toList.map (Prod.mk entry.1)

variable {edges : Edges} {a b : Nat}

theorem mem_pairs : (a, b) ∈ edges.pairs ↔ edges.Has a b := by
  simp [pairs, has_iff_getElem?, Std.TreeMap.mem_toList_iff_getElem?_eq_some]

theorem nodup_toList (set : Std.TreeSet Nat) : set.toList.Nodup :=
  Std.TreeSet.distinct_toList.imp fun h heq => h (Std.LawfulEqCmp.compare_eq_iff_eq.2 heq)

theorem pairwise_callers (edges : Edges) :
    edges.toList.Pairwise fun entry entry' => entry.1 ≠ entry'.1 :=
  Std.TreeMap.distinct_keys_toList.imp fun h heq => h (Std.LawfulEqCmp.compare_eq_iff_eq.2 heq)

theorem nodup_pairs (edges : Edges) : edges.pairs.Nodup := by
  refine List.nodup_flatMap.2 ⟨fun entry _ => ?_, edges.pairwise_callers.imp fun hne => ?_⟩
  · exact (nodup_toList entry.2).map (Prod.mk_right_injective entry.1)
  · rintro pair h h'
    obtain ⟨callee, -, rfl⟩ := List.mem_map.1 h
    obtain ⟨callee', -, heq⟩ := List.mem_map.1 h'
    exact hne (Prod.mk.inj heq).1.symm

theorem length_pairs (edges : Edges) : edges.pairs.length = edges.count := by
  simp [pairs, count_eq_sum, List.length_flatMap]

theorem encard_pairs (edges : Edges) :
    {pair : Nat × Nat | edges.Has pair.1 pair.2}.encard = edges.count := by
  rw [← length_pairs]
  exact encard_eq_length edges.nodup_pairs fun _ => mem_pairs

theorem encard_callees (edges : Edges) (a : Nat) :
    {b | edges.Has a b}.encard = (edges.callees a).size := by
  rw [← Std.TreeSet.length_toList]
  exact encard_eq_length (nodup_toList _) fun _ => Std.TreeSet.mem_toList

/-- A list of the pairs with one key counts them. -/
theorem length_eq_countP_pairs (edges : Edges) (key : Nat × Nat → Nat) {n : Nat}
    {list : List (Nat × Nat)} (hnodup : list.Nodup)
    (hmem : ∀ pair, pair ∈ list ↔ edges.Has pair.1 pair.2 ∧ key pair = n) :
    list.length = edges.pairs.countP (key · = n) := by
  rw [List.countP_eq_length_filter]
  apply length_eq_of_nodup hnodup (edges.nodup_pairs.filter _)
  intro pair
  rw [hmem, List.mem_filter, mem_pairs, decide_eq_true_eq]

/-- The callees of a function are those of the pairs that it comes first in. -/
theorem size_callees (edges : Edges) (a : Nat) :
    (edges.callees a).size = edges.pairs.countP (·.1 = a) := by
  have hnodup := (nodup_toList (edges.callees a)).map (Prod.mk_right_injective a)
  rw [← Std.TreeSet.length_toList, ← List.length_map (Prod.mk a)]
  apply edges.length_eq_countP_pairs Prod.fst hnodup
  intro (x, y)
  simp only [List.mem_map, Std.TreeSet.mem_toList, Prod.mk.injEq]
  exact ⟨fun ⟨_, hedge, hx, hy⟩ => ⟨hx ▸ hy ▸ hedge, hx.symm⟩,
    fun ⟨hedge, hx⟩ => ⟨y, hx ▸ hedge, hx.symm, rfl⟩⟩

/-- The functions that call one. -/
def callers (edges : Edges) (b : Nat) : List Nat :=
  (edges.toList.filter fun entry => entry.2.contains b).map Prod.fst

theorem mem_callers : a ∈ edges.callers b ↔ edges.Has a b := by
  simp [callers, has_iff_getElem?, Std.TreeMap.mem_toList_iff_getElem?_eq_some]

theorem nodup_callers (edges : Edges) (b : Nat) : (edges.callers b).Nodup :=
  List.pairwise_map.2 (edges.pairwise_callers.filter _)

theorem encard_callers (edges : Edges) (b : Nat) :
    {a | edges.Has a b}.encard = (edges.callers b).length :=
  encard_eq_length (edges.nodup_callers b) fun _ => mem_callers

/-- Its callers are those of the pairs that it comes second in. -/
theorem length_callers (edges : Edges) (b : Nat) :
    (edges.callers b).length = edges.pairs.countP (·.2 = b) := by
  have hnodup := (edges.nodup_callers b).map (Prod.mk_left_injective b)
  rw [← List.length_map (·, b)]
  apply edges.length_eq_countP_pairs Prod.snd hnodup
  intro (x, y)
  simp only [List.mem_map, mem_callers, Prod.mk.injEq]
  exact ⟨fun ⟨_, hedge, hx, hy⟩ => ⟨hx ▸ hy ▸ hedge, hy.symm⟩,
    fun ⟨hedge, hy⟩ => ⟨x, hy ▸ hedge, rfl, hy.symm⟩⟩

theorem targets_eq (edges : Edges) : edges.targets = edges.pairs.map Prod.snd := by
  simp [targets, pairs, List.map_flatMap, Function.comp_def]

/-- A pass over all callees meets a function once for each of its callers. -/
theorem count_targets (edges : Edges) (b : Nat) :
    edges.targets.count b = (edges.callers b).length := by
  rw [targets_eq, length_callers, List.count, List.countP_map]
  apply List.countP_congr
  intro pair _
  simp

/-- Where all numbers are below the size, every pair is counted once. -/
theorem sum_countP_pairs (edges : Edges) (key : Nat × Nat → Nat) {size : Nat}
    (h : ∀ pair ∈ edges.pairs, key pair < size) :
    ((List.range size).map fun n => edges.pairs.countP (key · = n)).sum = edges.count := by
  rw [sum_countP, ← length_pairs, List.countP_eq_length]
  simpa using h

end Edges

/-! ## The order of rows -/

/-- More callers come before fewer, then more callees before fewer, then the smaller id. -/
def Degree.Before (a b : Degree) : Prop :=
  b.fanIn < a.fanIn ∨ a.fanIn = b.fanIn ∧
    (b.fanOut < a.fanOut ∨ a.fanOut = b.fanOut ∧ a.id < b.id)

namespace Degree

variable {a b c : Degree}

theorem notAfter_iff : a.notAfter b = true ↔ ¬b.Before a := by
  unfold notAfter Before
  split
  · rw [decide_eq_true_eq]
    omega
  · split <;> rw [decide_eq_true_eq] <;> omega

theorem Before.asymm (h : a.Before b) : ¬b.Before a := by
  unfold Before at *
  omega

theorem before_of_ne (h : ¬b.Before a) (hid : a.id ≠ b.id) : a.Before b := by
  unfold Before at *
  omega

theorem not_before_trans (h : ¬b.Before a) (h' : ¬c.Before b) : ¬c.Before a := by
  unfold Before at *
  omega

end Degree

namespace Summary

/-- **Rows of different functions** are in strict order once they are sorted. -/
theorem pairwise_before {rows : List Degree} (h : (rows.map Degree.id).Nodup) :
    (rows.mergeSort Degree.notAfter).Pairwise Degree.Before := by
  have hsorted : (rows.mergeSort Degree.notAfter).Pairwise fun a b => a.notAfter b = true := by
    apply List.pairwise_mergeSort
    · intro a b c hab hbc
      rw [Degree.notAfter_iff] at *
      exact Degree.not_before_trans hab hbc
    · intro a b
      rw [Bool.or_eq_true, Degree.notAfter_iff, Degree.notAfter_iff]
      exact (Classical.em (b.Before a)).symm.imp_right Degree.Before.asymm
  have hids : (rows.mergeSort Degree.notAfter).Pairwise fun a b => a.id ≠ b.id :=
    List.pairwise_map.1 (((List.mergeSort_perm ..).map _).nodup_iff.2 h)
  exact (hsorted.and hids).imp fun hab => Degree.before_of_ne (Degree.notAfter_iff.1 hab.1) hab.2

/-- Rows have one strict order. -/
theorem eq_of_perm {rows rows' : List Degree} (hperm : rows.Perm rows')
    (h : rows.Pairwise Degree.Before) (h' : rows'.Pairwise Degree.Before) : rows = rows' :=
  hperm.eq_of_pairwise (fun _ _ _ _ hab hba => absurd hba hab.asymm) h h'

/-! ## Counting callers -/

/-- **The pass over all callees.** A row gains as many callers as the pass meets its position, and
nothing else of it changes. -/
theorem getElem?_addCallers (degrees : Array Degree) (callees : List Nat) (n : Nat) :
    (addCallers degrees callees)[n]? =
      degrees[n]?.map fun row => { row with fanIn := row.fanIn + callees.count n } := by
  induction callees generalizing degrees with
  | nil => simp [addCallers]
  | cons callee rest ih =>
    show (addCallers (addCaller degrees callee) rest)[n]? = _
    rw [ih, addCaller, Array.getElem?_modify]
    by_cases hcallee : callee = n
    · subst hcallee
      rw [if_pos rfl, List.count_cons_self, Option.map_map]
      congr 1
      funext row
      simp only [Function.comp_apply, Degree.mk.injEq, true_and, and_true]
      omega
    · rw [if_neg hcallee, List.count_cons_of_ne hcallee]

/-! ## The rows of a graph -/

/-- What a row says, its label aside. -/
def counts (row : Degree) : Nat × Nat × Nat :=
  (row.id, row.fanIn, row.fanOut)

/-- What the row of a function has to say. -/
def countsOf (edges : Edges) (n : Nat) : Nat × Nat × Nat :=
  (n, (edges.callers n).length, (edges.callees n).size)

theorem map_counts_initialDegrees [ManifestReader] (edges : Edges) (finder : PackageFinder)
    (disk : Disk) (functions : List GraphFunction) :
    (initialDegrees edges finder disk functions).map counts =
      functions.map fun f => (f.id, 0, (edges.callees f.id).size) := by
  induction functions generalizing finder with
  | nil => rfl
  | cons f rest ih =>
    rw [initialDegrees, List.map_cons, ih, List.map_cons]
    rfl

variable {graph : CallGraph}

/-- Ids are the numbers of functions. -/
theorem map_id_functions (h : graph.WellFormed) :
    graph.functions.toList.map GraphFunction.id = List.range graph.functions.size := by
  apply List.ext_getElem
  · simp
  · intro n hn hn'
    rw [List.getElem_map, List.getElem_range]
    exact h.id_eq (by simp [CallGraph.function?])

section

variable [ManifestReader]

/-- Callers and callees are counted of the same function, as its id is its position. -/
theorem map_counts_unsorted (h : graph.WellFormed) (disk : Disk) :
    (unsorted graph disk).toList.map counts =
      (List.range graph.functions.size).map (countsOf graph.edges) := by
  apply List.ext_getElem?
  intro n
  let callers := (graph.edges.callers n).length
  calc ((unsorted graph disk).toList.map counts)[n]?
      = ((initialDegrees graph.edges .empty disk graph.functions.toList).map counts)[n]?.map
          fun (id, fanIn, fanOut) => (id, fanIn + callers, fanOut) := by
        rw [List.getElem?_map, Array.getElem?_toList, unsorted, getElem?_addCallers,
          Edges.count_targets]
        simp [counts, callers, Function.comp_def]
    _ = (graph.function? n).map fun f => (f.id, callers, (graph.edges.callees f.id).size) := by
        rw [map_counts_initialDegrees]
        simp [CallGraph.function?, Function.comp_def]
    _ = ((List.range graph.functions.size).map (countsOf graph.edges))[n]? := by
        cases hf : graph.function? n with
        | none =>
          have hn : graph.functions.size ≤ n := Array.getElem?_eq_none_iff.1 hf
          simp [hn]
        | some f =>
          have hn : n < graph.functions.size := (Array.getElem?_eq_some_iff.1 hf).1
          simp [hn, countsOf, h.id_eq hf, callers]

/-- **The rows of a well-formed graph,** one for each number. -/
theorem map_counts_degrees (h : graph.WellFormed) (disk : Disk) :
    ((ofGraph graph disk).degrees.map counts).Perm
      ((List.range graph.functions.size).map (countsOf graph.edges)) := by
  rw [← map_counts_unsorted h disk]
  exact (List.mergeSort_perm ..).map counts

theorem ids_degrees (h : graph.WellFormed) (disk : Disk) :
    ((ofGraph graph disk).degrees.map Degree.id).Perm (List.range graph.functions.size) := by
  have hids := (map_counts_degrees h disk).map Prod.fst
  rwa [List.map_map, List.map_map, show Prod.fst ∘ countsOf graph.edges = id from rfl,
    List.map_id] at hids

theorem counts_of_mem (h : graph.WellFormed) {disk : Disk} {row : Degree}
    (hrow : row ∈ (ofGraph graph disk).degrees) :
    row.fanIn = (graph.edges.callers row.id).length ∧
      row.fanOut = (graph.edges.callees row.id).size := by
  have hmem := (map_counts_degrees h disk).mem_iff.1 (List.mem_map_of_mem hrow)
  obtain ⟨n, -, hn⟩ := List.mem_map.1 hmem
  obtain ⟨hid, hin, hout⟩ : n = row.id ∧ (graph.edges.callers n).length = row.fanIn ∧
      (graph.edges.callees n).size = row.fanOut := by
    simpa [counts, countsOf] using hn
  subst hid
  exact ⟨hin.symm, hout.symm⟩

/-- A column that counts the pairs by a number of each adds up to the number of edges. -/
theorem sum_column (h : graph.WellFormed) (disk : Disk) (column : Nat × Nat × Nat → Nat)
    (key : Nat × Nat → Nat)
    (hcolumn : ∀ n, column (countsOf graph.edges n) = graph.edges.pairs.countP (key · = n))
    (hkey : ∀ pair ∈ graph.edges.pairs, key pair < graph.functions.size) :
    ((ofGraph graph disk).degrees.map (column ∘ counts)).sum = graph.edgeCount := by
  have hperm := (map_counts_degrees h disk).map column
  rw [List.map_map, List.map_map] at hperm
  calc ((ofGraph graph disk).degrees.map (column ∘ counts)).sum
      = ((List.range graph.functions.size).map (column ∘ countsOf graph.edges)).sum :=
        hperm.sum_eq
    _ = ((List.range graph.functions.size).map fun n =>
          graph.edges.pairs.countP (key · = n)).sum := by
        simp only [Function.comp_def, hcolumn]
    _ = graph.edges.count := graph.edges.sum_countP_pairs key hkey

theorem sum_fanIn (h : graph.WellFormed) (disk : Disk) :
    ((ofGraph graph disk).degrees.map Degree.fanIn).sum = graph.edgeCount :=
  sum_column h disk (·.2.1) Prod.snd graph.edges.length_callers fun _ hpair =>
    (h.edge_lt (Edges.mem_pairs.1 hpair)).2

theorem sum_fanOut (h : graph.WellFormed) (disk : Disk) :
    ((ofGraph graph disk).degrees.map Degree.fanOut).sum = graph.edgeCount :=
  sum_column h disk (·.2.2) Prod.fst graph.edges.size_callees fun _ hpair =>
    (h.edge_lt (Edges.mem_pairs.1 hpair)).1

theorem pairwise_degrees (h : graph.WellFormed) (disk : Disk) :
    (ofGraph graph disk).degrees.Pairwise Degree.Before := by
  apply pairwise_before
  have hids : ((ofGraph graph disk).degrees.map Degree.id).Nodup :=
    (ids_degrees h disk).nodup_iff.2 List.nodup_range
  exact ((List.mergeSort_perm ..).map Degree.id).nodup_iff.1 hids

end

/-- **The summary says what the graph says.** After any processes there is one row for each
function. Its columns are how many functions are called by it and how many call it, itself
included, and each column adds up to the number of edges. More callers come first, then more
callees, then the smaller id, and no other list of these rows is in this order. -/
theorem degrees_ofGraph [ManifestReader] (processes : List Process) (disk : Disk) :
    let graph := (GraphBuilder.empty.addAll processes).graph
    let summary := ofGraph graph disk
    (summary.degrees.map Degree.id).Perm (graph.functions.toList.map GraphFunction.id) ∧
      (summary.degrees.map Degree.id).Nodup ∧
      (∀ row ∈ summary.degrees,
        {callee | graph.edges.Has row.id callee}.encard = row.fanOut ∧
          {caller | graph.edges.Has caller row.id}.encard = row.fanIn) ∧
      (summary.degrees.map Degree.fanIn).sum = summary.edges ∧
      (summary.degrees.map Degree.fanOut).sum = summary.edges ∧
      summary.edges = graph.edgeCount ∧
      {pair : Nat × Nat | graph.edges.Has pair.1 pair.2}.encard = graph.edgeCount ∧
      summary.degrees.Pairwise Degree.Before ∧
      ∀ rows : List Degree, rows.Perm summary.degrees → rows.Pairwise Degree.Before →
        rows = summary.degrees := by
  intro graph summary
  have hnum := (GraphBuilder.numbered_empty.addAll processes).1
  have hgraph : graph.WellFormed :=
    hnum.wellFormed
      (GraphBuilder.occupied_addAll Edges.occupied_empty GraphBuilder.numbered_empty processes)
  have hids := ids_degrees hgraph disk
  refine ⟨map_id_functions hgraph ▸ hids, hids.nodup_iff.2 List.nodup_range, fun row hrow => ?_,
    sum_fanIn hgraph disk, sum_fanOut hgraph disk, rfl, graph.edges.encard_pairs,
    pairwise_degrees hgraph disk,
    fun rows hperm hrows => eq_of_perm hperm hrows (pairwise_degrees hgraph disk)⟩
  obtain ⟨hin, hout⟩ := counts_of_mem hgraph hrow
  rw [hin, hout]
  exact ⟨graph.edges.encard_callees row.id, graph.edges.encard_callers row.id⟩

end Summary

end CallTrace
