import CallTrace.Proofs.Merge.Numbering
import Mathlib.Data.Set.Lattice
import Mathlib.Logic.Equiv.Defs

/-!
# A merged graph is the union of its processes

Told by places instead of numbers, a process adds its own places and its own edges, whatever was
added before (`GraphBuilder.Numbered.add`). So the merged graph of two lists of processes is the
union of their graphs, the order of the processes only renumbers the functions
(`CallGraph.Renumbered`), and a process that is added again changes nothing
(`addAll_append_eq_union`).
-/

namespace CallTrace

/-! ## Graphs by places -/

namespace CallGraph

/-- The edges, each as the places of its ends. -/
def edgeIdentities (graph : CallGraph) : Set (Identity × Identity) :=
  {edge | ∃ a b, graph.edges.Has a b ∧ graph.identity? a = some edge.1 ∧
    graph.identity? b = some edge.2}

/-- The functions are the same up to their numbers, and the edges are too. -/
def Renumbered (graph graph' : CallGraph) : Prop :=
  ∃ σ : Fin graph.functions.size ≃ Fin graph'.functions.size,
    (∀ n, graph'.identity? (σ n) = graph.identity? n) ∧
      ∀ a b, graph'.edges.Has a b ↔ ∃ m n : Fin graph.functions.size,
        graph.edges.Has m n ∧ σ m = a ∧ σ n = b

end CallGraph

/-- The definitions and the calls of a process. -/
structure Process where
  definitions : List Definition
  calls : List Call

namespace Process

/-- The places of the functions that are defined. -/
def identities (process : Process) : Set Identity :=
  {identity | ∃ d ∈ process.definitions, .ofDefinition d = identity}

/-- The edges that the calls tell, each as the places of its ends. -/
def edges (process : Process) : Set (Identity × Identity) :=
  {edge | edge ∈ Call.edgesTold (placeOf? process.definitions) [] process.calls}

/-- How many ids without a definition the calls name. -/
def missing (process : Process) : Nat :=
  (process.calls.map (Call.unnamed (placeOf? process.definitions))).sum

end Process

namespace GraphBuilder

/-- Adds processes one after the other. -/
def addAll (builder : GraphBuilder) (processes : List Process) : GraphBuilder :=
  processes.foldl (fun builder process => (builder.add process.definitions process.calls).2) builder

theorem add_fst (builder : GraphBuilder) (definitions : List Definition) (calls : List Call) :
    (builder.add definitions calls).1 = (builder.addDefinitions ∅ definitions).1 :=
  rfl

theorem add_snd (builder : GraphBuilder) (definitions : List Definition) (calls : List Call) :
    (builder.add definitions calls).2 =
      (builder.addDefinitions ∅ definitions).2.addCalls (builder.addDefinitions ∅ definitions).1
        calls :=
  rfl

theorem addCalls_eq (builder : GraphBuilder) (globals : GlobalIds) (calls : List Call) :
    builder.addCalls globals calls =
      { builder with
        graph := { builder.graph with
          edges := builder.graph.edges.connectAll (Call.edgesTold (globals[·]?) [] calls) }
        missing := builder.missing + (calls.map (Call.unnamed (globals[·]?))).sum } := by
  rw [addCalls, Replay.playAll_eq]
  simp only [Replay.new, Nat.zero_add]
  rfl

variable {builder : GraphBuilder}

/-- New functions leave the edges between the places as they are. -/
theorem Grows.edgeIdentities_eq {builder' : GraphBuilder} {places : Set Identity}
    (hgrows : builder.Grows builder' places) (h : builder.Numbered) :
    builder'.graph.edgeIdentities = builder.graph.edgeIdentities := by
  ext ⟨i, j⟩
  simp only [CallGraph.edgeIdentities, hgrows.edges_eq, Set.mem_ofPred_eq]
  constructor
  · rintro ⟨a, b, hedge, ha, hb⟩
    obtain ⟨hsome, hsome'⟩ := h.edge_some hedge
    obtain ⟨i', hi⟩ := Option.isSome_iff_exists.1 hsome
    obtain ⟨j', hj⟩ := Option.isSome_iff_exists.1 hsome'
    refine ⟨a, b, hedge, ?_, ?_⟩
    · rw [hi, ← hgrows.keeps hi, ha]
    · rw [hj, ← hgrows.keeps hj, hb]
  · rintro ⟨a, b, hedge, ha, hb⟩
    exact ⟨a, b, hedge, hgrows.keeps ha, hgrows.keeps hb⟩

namespace Numbered

section

variable (h : builder.Numbered) {globals : GlobalIds} {place? : Option FunctionId → Option Identity}
  (hplace : ∀ id, globals[id]?.map builder.graph.identity? = (place? id).map some)
include hplace

theorem isSome_of_place {id : Option FunctionId} {n : Nat} (hn : globals[id]? = some n) :
    (builder.graph.identity? n).isSome := by
  have heq := hplace id
  rw [hn, Option.map_some] at heq
  obtain ⟨i, -, hi⟩ := Option.map_eq_some_iff.1 heq.symm
  exact hi ▸ rfl

theorem isSome_of_mem_edgesTold {calls : List Call} {a b : Nat}
    (hedge : (a, b) ∈ Call.edgesTold (globals[·]?) [] calls) :
    (builder.graph.identity? a).isSome ∧ (builder.graph.identity? b).isSome :=
  Call.edgesTold_mem (S := {n | (builder.graph.identity? n).isSome})
    (fun _ _ hn => isSome_of_place hplace hn) (by simp) calls _ hedge

theorem unnamed_eq : Call.unnamed (globals[·]?) = Call.unnamed place? := by
  funext call
  calc call.unnamed (globals[·]?)
      = call.unnamed fun id => globals[id]?.map builder.graph.identity? :=
        (Call.unnamed_map _ call).symm
    _ = call.unnamed fun id => (place? id).map some := by simp only [hplace]
    _ = call.unnamed place? := Call.unnamed_map _ call

include h

/-- Told by places, calls tell the same edges. -/
theorem map_edgesTold (calls : List Call) :
    (Call.edgesTold (globals[·]?) [] calls).map
        (Prod.map builder.graph.identity? builder.graph.identity?) =
      (Call.edgesTold place? [] calls).map (Prod.map some some) := by
  have hinj : Set.InjOn builder.graph.identity? {n | (builder.graph.identity? n).isSome} := by
    intro m hm n _ heq
    obtain ⟨i, hi⟩ := Option.isSome_iff_exists.1 hm
    exact h.identity?_inj hi (heq ▸ hi)
  rw [← Call.edgesTold_map hinj (fun id n hn => isSome_of_place hplace hn) (by simp),
    ← Call.edgesTold_map (Option.some_injective _).injOn (fun _ _ _ => Set.mem_univ _) (by simp)]
  simp only [hplace, List.map_nil]

theorem mem_edgesTold {calls : List Call} {a b : Nat} {i j : Identity}
    (hedge : (a, b) ∈ Call.edgesTold (globals[·]?) [] calls)
    (ha : builder.graph.identity? a = some i) (hb : builder.graph.identity? b = some j) :
    (i, j) ∈ Call.edgesTold place? [] calls := by
  have hmem := List.mem_map_of_mem
    (f := Prod.map builder.graph.identity? builder.graph.identity?) hedge
  rw [h.map_edgesTold hplace] at hmem
  obtain ⟨⟨i', j'⟩, hij, heq⟩ := List.mem_map.1 hmem
  obtain ⟨hi, hj⟩ := Prod.mk.inj heq
  obtain rfl := Option.some.inj (hi.trans ha)
  obtain rfl := Option.some.inj (hj.trans hb)
  exact hij

theorem addCalls (calls : List Call) :
    (builder.addCalls globals calls).Numbered ∧
      (builder.addCalls globals calls).graph.identities = builder.graph.identities ∧
      (builder.addCalls globals calls).graph.edgeIdentities =
        builder.graph.edgeIdentities ∪ {edge | edge ∈ Call.edgesTold place? [] calls} ∧
      (builder.addCalls globals calls).missing =
        builder.missing + (calls.map (Call.unnamed place?)).sum := by
  have hmap := h.map_edgesTold hplace calls
  rw [addCalls_eq]
  refine ⟨⟨h.id_eq, h.key_iff, fun hedge => ?_⟩, rfl, ?_, ?_⟩
  · rcases Edges.has_connectAll.1 hedge with hedge | hedge
    · exact h.edge_some hedge
    · exact isSome_of_mem_edgesTold hplace hedge
  · ext ⟨i, j⟩
    simp only [CallGraph.edgeIdentities, Edges.has_connectAll, Set.mem_union, Set.mem_ofPred_eq]
    constructor
    · rintro ⟨a, b, hedge | hedge, ha, hb⟩
      · exact .inl ⟨a, b, hedge, ha, hb⟩
      · exact .inr (h.mem_edgesTold hplace hedge ha hb)
    · rintro (⟨a, b, hedge, ha, hb⟩ | hedge)
      · exact ⟨a, b, .inl hedge, ha, hb⟩
      · have hmem := List.mem_map_of_mem (f := Prod.map some some) hedge
        rw [← hmap] at hmem
        obtain ⟨⟨a, b⟩, hab, heq⟩ := List.mem_map.1 hmem
        obtain ⟨ha, hb⟩ := Prod.mk.inj heq
        exact ⟨a, b, .inr hab, ha, hb⟩
  · rw [unnamed_eq hplace]

end

/-- **A process adds its own places and edges,** whatever was added before. -/
theorem add (h : builder.Numbered) (process : Process) :
    (builder.add process.definitions process.calls).2.Numbered ∧
      (builder.add process.definitions process.calls).2.graph.identities =
        builder.graph.identities ∪ process.identities ∧
      (builder.add process.definitions process.calls).2.graph.edgeIdentities =
        builder.graph.edgeIdentities ∪ process.edges ∧
      (builder.add process.definitions process.calls).2.missing =
        builder.missing + process.missing := by
  obtain ⟨hgrows, hplace⟩ := h.addDefinitions_empty process.definitions
  rw [add_snd]
  obtain ⟨hnum, hids, hedges, hmissing⟩ := hgrows.numbered.addCalls hplace process.calls
  refine ⟨hnum, ?_, ?_, ?_⟩
  · rw [hids, hgrows.identities_eq]
    rfl
  · rw [hedges, hgrows.edgeIdentities_eq h]
    rfl
  · rw [hmissing, hgrows.missing_eq]
    rfl

theorem addAll (h : builder.Numbered) (processes : List Process) :
    (builder.addAll processes).Numbered ∧
      (builder.addAll processes).graph.identities =
        builder.graph.identities ∪ ⋃ process ∈ processes, process.identities ∧
      (builder.addAll processes).graph.edgeIdentities =
        builder.graph.edgeIdentities ∪ ⋃ process ∈ processes, process.edges ∧
      (builder.addAll processes).missing =
        builder.missing + (processes.map Process.missing).sum := by
  induction processes generalizing builder with
  | nil => exact ⟨h, by simp [GraphBuilder.addAll]⟩
  | cons process rest ih =>
    obtain ⟨hnum, hids, hedges, hmissing⟩ := h.add process
    obtain ⟨hnum', hids', hedges', hmissing'⟩ := ih hnum
    rw [hids, Set.union_assoc] at hids'
    rw [hedges, Set.union_assoc] at hedges'
    rw [hmissing, Nat.add_assoc] at hmissing'
    simp only [List.mem_cons, Set.iUnion_iUnion_eq_or_left, List.map_cons, List.sum_cons]
    exact ⟨hnum', hids', hedges', hmissing'⟩

/-- Between numbered functions, edges are the edges between their places. -/
theorem has_iff (h : builder.Numbered) {a b : Nat} {i j : Identity}
    (ha : builder.graph.identity? a = some i) (hb : builder.graph.identity? b = some j) :
    builder.graph.edges.Has a b ↔ (i, j) ∈ builder.graph.edgeIdentities := by
  refine ⟨fun hedge => ⟨a, b, hedge, ha, hb⟩, ?_⟩
  rintro ⟨a', b', hedge, ha', hb'⟩
  rwa [h.identity?_inj ha ha', h.identity?_inj hb hb']

theorem exists_number {builder' : GraphBuilder}
    (hids : builder.graph.identities = builder'.graph.identities)
    (n : Fin builder.graph.functions.size) :
    ∃ m : Fin builder'.graph.functions.size,
      builder'.graph.identity? m = builder.graph.identity? n := by
  obtain ⟨i, hi⟩ := Option.isSome_iff_exists.1 (CallGraph.isSome_identity?.2 n.isLt)
  have hmem : i ∈ builder.graph.identities := ⟨n, hi⟩
  rw [hids] at hmem
  obtain ⟨m, hm⟩ := hmem
  exact ⟨⟨m, CallGraph.isSome_identity?.1 (Option.isSome_of_mem hm)⟩, hm.trans hi.symm⟩

theorem fin_eq (h : builder.Numbered) {m n : Fin builder.graph.functions.size}
    (heq : builder.graph.identity? m = builder.graph.identity? n) : m = n := by
  obtain ⟨i, hi⟩ := Option.isSome_iff_exists.1 (CallGraph.isSome_identity?.2 n.isLt)
  exact Fin.ext (h.identity?_inj (heq.trans hi) hi)

/-- The numbers of graphs with the same places correspond one to one. -/
theorem renumbered {builder' : GraphBuilder} (h : builder.Numbered) (h' : builder'.Numbered)
    (hids : builder.graph.identities = builder'.graph.identities)
    (hedges : builder.graph.edgeIdentities = builder'.graph.edgeIdentities) :
    builder.graph.Renumbered builder'.graph := by
  -- no place has two numbers, so the choices in both directions undo each other
  choose σ hσ using exists_number hids
  choose τ hτ using exists_number hids.symm
  refine ⟨⟨σ, τ, fun n => h.fin_eq ((hτ _).trans (hσ n)), fun n => h'.fin_eq ((hσ _).trans (hτ n))⟩,
    hσ, fun a b => ⟨fun hedge => ?_, ?_⟩⟩
  · obtain ⟨ha, hb⟩ := h'.edge_some hedge
    refine ⟨τ ⟨a, CallGraph.isSome_identity?.1 ha⟩, τ ⟨b, CallGraph.isSome_identity?.1 hb⟩, ?_,
      congrArg Fin.val (h'.fin_eq ((hσ _).trans (hτ _))),
      congrArg Fin.val (h'.fin_eq ((hσ _).trans (hτ _)))⟩
    obtain ⟨i, hi⟩ := Option.isSome_iff_exists.1 ha
    obtain ⟨j, hj⟩ := Option.isSome_iff_exists.1 hb
    rw [h.has_iff ((hτ _).trans hi) ((hτ _).trans hj), hedges]
    exact (h'.has_iff hi hj).1 hedge
  · rintro ⟨m, n, hedge, rfl, rfl⟩
    obtain ⟨hm, hn⟩ := h.edge_some hedge
    obtain ⟨i, hi⟩ := Option.isSome_iff_exists.1 hm
    obtain ⟨j, hj⟩ := Option.isSome_iff_exists.1 hn
    refine (h'.has_iff ((hσ m).trans hi) ((hσ n).trans hj)).2 ?_
    exact hedges ▸ (h.has_iff hi hj).1 hedge

theorem addDefinitions_of_subset (h : builder.Numbered) (globals : GlobalIds)
    {definitions : List Definition}
    (hids : {identity | ∃ d ∈ definitions, .ofDefinition d = identity} ⊆
      builder.graph.identities) :
    (builder.addDefinitions globals definitions).2 = builder := by
  induction definitions generalizing globals with
  | nil => rfl
  | cons d rest ih =>
    obtain ⟨n, hn⟩ := hids ⟨d, List.mem_cons_self, rfl⟩
    rw [GraphBuilder.addDefinitions, h.globalOf_of_identity? hn]
    refine ih _ (Set.Subset.trans ?_ hids)
    rintro _ ⟨d', hd', rfl⟩
    exact ⟨d', List.mem_cons_of_mem _ hd', rfl⟩

/-- A process whose places and edges are there already changes nothing. -/
theorem add_of_subset (h : builder.Numbered) (process : Process)
    (hids : process.identities ⊆ builder.graph.identities)
    (hedges : process.edges ⊆ builder.graph.edgeIdentities) :
    (builder.add process.definitions process.calls).2.graph.functions = builder.graph.functions ∧
      (builder.add process.definitions process.calls).2.graph.edges.Equiv builder.graph.edges := by
  have hsame := h.addDefinitions_of_subset ∅ hids
  have hplace := (h.addDefinitions_empty process.definitions).2
  rw [hsame] at hplace
  rw [add_snd, hsame, addCalls_eq]
  refine ⟨rfl, Edges.connectAll_equiv fun edge hedge => ?_⟩
  obtain ⟨ha, hb⟩ := isSome_of_mem_edgesTold hplace hedge
  obtain ⟨i, hi⟩ := Option.isSome_iff_exists.1 ha
  obtain ⟨j, hj⟩ := Option.isSome_iff_exists.1 hb
  exact (h.has_iff hi hj).2 (hedges (h.mem_edgesTold hplace hedge hi hj))

end Numbered

/-- The graph of a single process has the edges that its calls tell, by its global ids. -/
theorem has_add_empty (definitions : List Definition) (calls : List Call) {a b : Nat} :
    (empty.add definitions calls).2.graph.edges.Has a b ↔
      (a, b) ∈ Call.edgesTold ((empty.add definitions calls).1[·]?) [] calls := by
  obtain ⟨hgrows, -⟩ := numbered_empty.addDefinitions_empty definitions
  rw [add_fst, add_snd, addCalls_eq, Edges.has_connectAll, hgrows.edges_eq]
  exact or_iff_right Edges.not_has_empty

/-- **Merging is a union of processes.** Told by places, the graph of two lists of processes is the
union of their graphs, and the ids without a definition add up; in another order, the processes
make up the same graph with other numbers; and a process that was added before changes neither
functions nor edges. -/
theorem addAll_append_eq_union (ps qs : List Process) :
    (empty.addAll (ps ++ qs)).Numbered ∧
      (empty.addAll (ps ++ qs)).graph.identities =
        (empty.addAll ps).graph.identities ∪ (empty.addAll qs).graph.identities ∧
      (empty.addAll (ps ++ qs)).graph.edgeIdentities =
        (empty.addAll ps).graph.edgeIdentities ∪ (empty.addAll qs).graph.edgeIdentities ∧
      (empty.addAll (ps ++ qs)).missing = (empty.addAll ps).missing + (empty.addAll qs).missing ∧
      (∀ ps', ps.Perm ps' →
        (empty.addAll ps).graph.Renumbered (empty.addAll ps').graph) ∧
      ∀ p ∈ ps,
        (empty.addAll (ps ++ [p])).graph.functions = (empty.addAll ps).graph.functions ∧
          (empty.addAll (ps ++ [p])).graph.edges.Equiv (empty.addAll ps).graph.edges := by
  obtain ⟨hnum, hids, hedges, hmissing⟩ := numbered_empty.addAll ps
  obtain ⟨hnum', hids', hedges', hmissing'⟩ := numbered_empty.addAll (ps ++ qs)
  obtain ⟨-, hids'', hedges'', hmissing''⟩ := numbered_empty.addAll qs
  refine ⟨hnum', ?_, ?_, ?_, fun ps' hperm => ?_, fun p hp => ?_⟩
  · rw [hids, hids', hids'', ← Set.union_union_distrib_left]
    simp only [List.mem_append, Set.iUnion_or, Set.iUnion_union_distrib]
  · rw [hedges, hedges', hedges'', ← Set.union_union_distrib_left]
    simp only [List.mem_append, Set.iUnion_or, Set.iUnion_union_distrib]
  · rw [hmissing, hmissing', hmissing'', List.map_append, List.sum_append]
    simp [empty]
  · obtain ⟨hnum₁, hids₁, hedges₁, -⟩ := numbered_empty.addAll ps'
    refine hnum.renumbered hnum₁ ?_ ?_
    · simp only [hids, hids₁, hperm.mem_iff]
    · simp only [hedges, hedges₁, hperm.mem_iff]
  · have hadd : empty.addAll (ps ++ [p]) = ((empty.addAll ps).add p.definitions p.calls).2 :=
      List.foldl_append
    rw [hadd]
    refine hnum.add_of_subset p ?_ ?_
    · rw [hids]
      exact Set.subset_union_of_subset_right
        (Set.subset_iUnion₂ (s := fun q _ => Process.identities q) p hp) _
    · rw [hedges]
      exact Set.subset_union_of_subset_right
        (Set.subset_iUnion₂ (s := fun q _ => Process.edges q) p hp) _

/-- Two processes that share a function, with an id defined twice and one that is not defined. -/
theorem addAll_append_eq_union_swap :
    let d (id : Nat) (h : id < FunctionId.limit) (path : String) : Definition :=
      ⟨some ⟨id, h⟩, 1, 0, 9, 1, 1, "", false, path, 0⟩
    let c (caller callee : Option FunctionId) : Call := ⟨caller, callee, 0⟩
    let p : Process := ⟨[d 0 (by decide) "/a", d 1 (by decide) "/b", d 0 (by decide) "/c"],
      [c none (some ⟨0, by decide⟩), c none (some ⟨1, by decide⟩),
        c (some ⟨1, by decide⟩) (some ⟨7, by decide⟩)]⟩
    let q : Process := ⟨[d 0 (by decide) " file:///b"],
      [c (some ⟨0, by decide⟩) (some ⟨0, by decide⟩), c none none]⟩
    [p, q].Perm [q, p] ∧ p ∈ [p, q] ∧
      (empty.addAll [p, q]).graph.Renumbered (empty.addAll [q, p]).graph ∧
      (empty.addAll ([p, q] ++ [p])).graph.functions = (empty.addAll [p, q]).graph.functions ∧
      (empty.addAll ([p, q] ++ [q])).missing = 5 ∧
      (⟨1, 0, 9, "/c"⟩, ⟨1, 0, 9, "/b"⟩) ∈ (empty.addAll ([p, q] ++ [q])).graph.edgeIdentities := by
  intro d c p q
  have hperm : [p, q].Perm [q, p] := .swap q p []
  have hmem : p ∈ [p, q] := List.mem_cons_self
  obtain ⟨-, -, hedges, hmissing, hren, hagain⟩ := addAll_append_eq_union [p, q] [q]
  refine ⟨hperm, hmem, hren _ hperm, (hagain p hmem).1, ?_, ?_⟩
  · rw [hmissing, (numbered_empty.addAll [p, q]).2.2.2, (numbered_empty.addAll [q]).2.2.2]
    decide +kernel
  · rw [hedges, (numbered_empty.addAll [p, q]).2.2.1]
    refine .inl (.inr (Set.mem_iUnion₂.2 ⟨p, hmem, ?_⟩))
    change _ ∈ Call.edgesTold _ _ _
    decide +kernel

end GraphBuilder

end CallTrace
