import CallTrace.Document
import CallTrace.Proofs.Merge.Union

/-!
# Numbers for functions

The functions of a merged graph are known by their numbers in it: each has its number for an id, no
two have the same place, edges join such numbers, and a caller has callees
(`CallGraph.WellFormed`). Adding a process keeps that, and it only puts further functions at the
end and adds further edges (`CallGraph.Extends`), so a number that was given out stands for the same
function from then on. What is written then names the functions by all the numbers below their
count, and no others (`GraphBuilder.wellFormed_addAll`).
-/

namespace CallTrace

/-! ## Callers have callees -/

namespace Edges

variable {edges : Edges} {a b : Nat}

theorem has_iff_getElem? :
    edges.Has a b ↔ ∃ callees, edges[a]? = some callees ∧ b ∈ callees := by
  rw [Has, callees, Std.TreeMap.getD_eq_getD_getElem?]
  cases edges[a]? with
  | none => simp
  | some callees => simp

/-- No caller is without callees. -/
def Occupied (edges : Edges) : Prop :=
  ∀ {a : Nat} {callees : Std.TreeSet Nat}, edges[a]? = some callees → callees.isEmpty = false

theorem occupied_empty : Occupied ∅ := fun h => by simp at h

theorem Occupied.connect (h : edges.Occupied) (x y : Nat) : (edges.connect x y).Occupied := by
  intro a callees ha
  rw [Edges.connect, Std.TreeMap.getElem?_insert] at ha
  split at ha
  · rw [← Option.some.inj ha]
    exact Std.TreeSet.isEmpty_insert
  · exact h ha

theorem Occupied.connectAll (h : edges.Occupied) (pairs : List (Nat × Nat)) :
    (edges.connectAll pairs).Occupied := by
  induction pairs generalizing edges with
  | nil => exact h
  | cons pair rest ih => exact ih (h.connect pair.1 pair.2)

/-- The edges are counted caller by caller. -/
theorem count_eq_sum (edges : Edges) :
    edges.count = (edges.toList.map fun entry => entry.2.size).sum := by
  rw [count, Std.TreeMap.foldl_eq_foldl_toList, List.sum_eq_foldl, List.foldl_map]

end Edges

/-! ## Well-formed graphs -/

namespace CallGraph

/-- Functions have their numbers for ids and different places, edges join functions of the graph,
and a caller has callees. -/
structure WellFormed (graph : CallGraph) : Prop where
  id_eq : ∀ {n f}, graph.function? n = some f → f.id = n
  number_eq : ∀ {m n identity}, graph.identity? m = some identity →
    graph.identity? n = some identity → m = n
  edge_lt : ∀ {a b}, graph.edges.Has a b →
    a < graph.functions.size ∧ b < graph.functions.size
  occupied : graph.edges.Occupied

/-- The functions are those of another graph and then further ones, and its edges are there. -/
structure Extends (later graph : CallGraph) : Prop where
  functions : graph.functions.toList <+: later.functions.toList
  edges : ∀ {a b}, graph.edges.Has a b → later.edges.Has a b

namespace Extends

variable {graph later last : CallGraph}

theorem refl (graph : CallGraph) : graph.Extends graph :=
  ⟨List.prefix_rfl, id⟩

theorem trans (h : later.Extends graph) (h' : last.Extends later) : last.Extends graph :=
  ⟨h.functions.trans h'.functions, fun hedge => h'.edges (h.edges hedge)⟩

/-- A number stands for the same function later on. -/
theorem function?_eq (h : later.Extends graph) {n : Nat} (hn : n < graph.functions.size) :
    later.function? n = graph.function? n := by
  obtain ⟨more, hmore⟩ := h.functions
  rw [function?, function?, ← Array.getElem?_toList, ← Array.getElem?_toList, ← hmore,
    List.getElem?_append_left (by simpa using hn)]

end Extends

/-- Nothing of an id is lost in 32 bits. -/
theorem WellFormed.toNat_id {graph : CallGraph} (h : graph.WellFormed)
    (hsize : graph.functions.size < UInt32.size) {n : Nat} {f : GraphFunction}
    (hf : graph.function? n = some f) : (UInt32.ofNat f.id).toNat = f.id := by
  have hn : n < graph.functions.size := (Array.getElem?_eq_some_iff.1 hf).1
  apply UInt32.toNat_ofNat_of_lt'
  rw [h.id_eq hf]
  exact Nat.lt_trans hn hsize

end CallGraph

/-! ## Adding processes -/

namespace GraphBuilder

variable {builder : GraphBuilder}

theorem extends_globalOf (builder : GraphBuilder) (d : Definition) :
    (builder.globalOf d).2.graph.Extends builder.graph := by
  unfold globalOf
  dsimp only
  split
  · exact ⟨by simp, id⟩
  · exact .refl _

theorem extends_addDefinitions (builder : GraphBuilder) (globals : GlobalIds)
    (definitions : List Definition) :
    (builder.addDefinitions globals definitions).2.graph.Extends builder.graph := by
  induction definitions generalizing builder globals with
  | nil => exact .refl _
  | cons d rest ih => exact (extends_globalOf builder d).trans (ih ..)

theorem extends_addCalls (builder : GraphBuilder) (globals : GlobalIds) (calls : List Call) :
    (builder.addCalls globals calls).graph.Extends builder.graph := by
  rw [addCalls_eq]
  exact ⟨List.prefix_rfl, fun hedge => Edges.has_connectAll.2 (.inl hedge)⟩

theorem extends_add (builder : GraphBuilder) (definitions : List Definition) (calls : List Call) :
    (builder.add definitions calls).2.graph.Extends builder.graph :=
  (extends_addDefinitions builder ∅ definitions).trans (extends_addCalls ..)

/-- Processes only add to what is there. -/
theorem extends_addAll (builder : GraphBuilder) (processes : List Process) :
    (builder.addAll processes).graph.Extends builder.graph := by
  induction processes generalizing builder with
  | nil => exact .refl _
  | cons process rest ih => exact (extends_add builder _ _).trans (ih _)

theorem occupied_addAll (h : builder.graph.edges.Occupied) (hnum : builder.Numbered)
    (processes : List Process) : (builder.addAll processes).graph.edges.Occupied := by
  induction processes generalizing builder with
  | nil => exact h
  | cons process rest ih =>
    refine ih ?_ (hnum.add process).1
    rw [add_snd, addCalls_eq, (hnum.addDefinitions_empty _).1.edges_eq]
    exact h.connectAll _

namespace Numbered

theorem wellFormed (h : builder.Numbered) (hoccupied : builder.graph.edges.Occupied) :
    builder.graph.WellFormed where
  id_eq := h.id_eq
  number_eq := h.identity?_inj
  edge_lt hedge := (h.edge_some hedge).imp CallGraph.isSome_identity?.1 CallGraph.isSome_identity?.1
  occupied := hoccupied

/-- An id of a process is given the number of the place that it stands for. -/
theorem bind_identity?_add (h : builder.Numbered) (definitions : List Definition)
    (calls : List Call) (id : Option FunctionId) :
    (builder.add definitions calls).1[id]?.bind
        (builder.add definitions calls).2.graph.identity? = placeOf? definitions id := by
  have hplace := (h.addDefinitions_empty definitions).2 id
  rw [add_fst, add_snd, addCalls_eq]
  cases hn : (builder.addDefinitions ∅ definitions).1[id]? with
  | none =>
    rw [hn] at hplace
    exact (Option.map_eq_none_iff.1 hplace.symm).symm
  | some n =>
    rw [hn] at hplace
    obtain ⟨identity, hplace, hidentity⟩ := Option.map_eq_some_iff.1 hplace.symm
    exact hidentity.symm.trans hplace.symm

theorem lt_size_of_add (h : builder.Numbered) {definitions : List Definition} {calls : List Call}
    {id : Option FunctionId} {n : Nat} (hn : (builder.add definitions calls).1[id]? = some n) :
    n < (builder.add definitions calls).2.graph.functions.size := by
  have hplace := (h.addDefinitions_empty definitions).2
  rw [add_fst] at hn
  rw [add_snd, addCalls_eq]
  exact CallGraph.isSome_identity?.1 (isSome_of_place hplace hn)

end Numbered

end GraphBuilder

/-! ## The written form -/

namespace Document

variable [ManifestReader]

/-- The functions are written under their ids, whatever is found out about their packages. -/
theorem mem_functionUris (finder : PackageFinder) (disk : Disk) (uris : Std.TreeMap Nat String)
    (functions : List GraphFunction) {k : Nat} :
    k ∈ functionUris finder disk uris functions ↔ k ∈ uris ∨ ∃ f ∈ functions, f.id = k := by
  induction functions generalizing finder uris with
  | nil => simp [functionUris]
  | cons f rest ih =>
    rw [functionUris]
    dsimp only
    rw [ih, Std.TreeMap.mem_insert, Std.LawfulEqCmp.compare_eq_iff_eq, or_assoc, or_left_comm]
    simp only [List.mem_cons, exists_eq_or_imp]

variable (graph : CallGraph) (disk : Disk) (root : String)

theorem calls_ofGraph :
    (ofGraph graph disk root).calls = graph.edges.map fun _ callees => callees.toList :=
  rfl

theorem getElem?_calls {caller : Nat} {nodes : List Nat} :
    (ofGraph graph disk root).calls[caller]? = some nodes ↔
      ∃ callees, graph.edges[caller]? = some callees ∧ callees.toList = nodes := by
  rw [calls_ofGraph, Std.TreeMap.getElem?_map, Option.map_eq_some_iff]

/-- As many callees are written as there are edges. -/
theorem sum_length_calls :
    ((ofGraph graph disk root).calls.toList.map fun entry => entry.2.length).sum =
      graph.edgeCount := by
  rw [calls_ofGraph, Std.TreeMap.toList_map, List.map_map, CallGraph.edgeCount, Edges.count_eq_sum]
  simp only [Function.comp_def, Std.TreeSet.length_toList]

variable {graph}

theorem mem_functions (h : graph.WellFormed) {k : Nat} :
    k ∈ (ofGraph graph disk root).functions ↔ k < graph.functions.size := by
  refine (mem_functionUris ..).trans ?_
  constructor
  · rintro (hk | ⟨f, hf, rfl⟩)
    · exact absurd hk Std.TreeMap.not_mem_emptyc
    · obtain ⟨n, hn⟩ := List.mem_iff_getElem?.1 hf
      rw [Array.getElem?_toList] at hn
      exact h.id_eq hn ▸ (Array.getElem?_eq_some_iff.1 hn).1
  · intro hk
    have hf : graph.function? k = some graph.functions[k] := Array.getElem?_eq_getElem hk
    exact .inr ⟨_, Array.mem_toList_iff.2 (Array.getElem_mem hk), h.id_eq hf⟩

/-- A caller and its callees are written functions, and the callees are ascending. -/
theorem calls_spec (h : graph.WellFormed) {caller : Nat} {nodes : List Nat}
    (hnodes : (ofGraph graph disk root).calls[caller]? = some nodes) :
    caller ∈ (ofGraph graph disk root).functions ∧
      (∀ node ∈ nodes, node ∈ (ofGraph graph disk root).functions) ∧
      nodes.Pairwise (· < ·) := by
  obtain ⟨callees, hcallees, rfl⟩ := (getElem?_calls ..).1 hnodes
  have hedge {node : Nat} (hnode : node ∈ callees) : graph.edges.Has caller node :=
    Edges.has_iff_getElem?.2 ⟨callees, hcallees, hnode⟩
  obtain ⟨callee, hcallee⟩ := Std.TreeSet.isEmpty_eq_false_iff_exists_mem.1 (h.occupied hcallees)
  refine ⟨(mem_functions disk root h).2 (h.edge_lt (hedge hcallee)).1, fun node hnode => ?_, ?_⟩
  · exact (mem_functions disk root h).2 (h.edge_lt (hedge (Std.TreeSet.mem_toList.1 hnode))).2
  · exact Std.TreeSet.ordered_toList.imp Nat.compare_eq_lt.1

end Document

namespace GraphBuilder

/-- **The numbers of functions can be relied on.** After any processes the graph is well-formed, and
adding further ones only extends it. The ids of a process are given the numbers of the functions
that they stand for, and these stay what they are. What is written has exactly the numbers below
the count of functions for keys, and its callers and callees are among them; each list of callees
is ascending, and together they are as many as there are edges. -/
theorem wellFormed_addAll [ManifestReader] (ps : List Process) (disk : Disk) (root : String) :
    let builder := empty.addAll ps
    let document := Document.ofGraph builder.graph disk root
    builder.graph.WellFormed ∧
      (∀ qs, (builder.addAll qs).graph.Extends builder.graph) ∧
      (∀ p : Process,
        let added := builder.add p.definitions p.calls
        added.2.graph.Extends builder.graph ∧
          (∀ id : Option FunctionId,
            added.1[id]?.bind added.2.graph.identity? = placeOf? p.definitions id) ∧
          ∀ (id : Option FunctionId) (n : Nat), added.1[id]? = some n →
            n < added.2.graph.functions.size ∧
            ∀ qs, (added.2.addAll qs).graph.function? n = added.2.graph.function? n) ∧
      (∀ k, k ∈ document.functions ↔ k < builder.graph.functions.size) ∧
      (∀ caller nodes, document.calls[caller]? = some nodes →
        caller ∈ document.functions ∧ (∀ node ∈ nodes, node ∈ document.functions) ∧
          nodes.Pairwise (· < ·)) ∧
      (document.calls.toList.map fun entry => entry.2.length).sum = builder.graph.edgeCount := by
  intro builder document
  have hnum : builder.Numbered := (numbered_empty.addAll ps).1
  have hgraph := hnum.wellFormed (occupied_addAll Edges.occupied_empty numbered_empty ps)
  refine ⟨hgraph, extends_addAll builder, fun p => ⟨extends_add .., hnum.bind_identity?_add _ _,
      fun id n hn => ?_⟩,
    fun k => Document.mem_functions disk root hgraph,
    fun caller nodes => Document.calls_spec disk root hgraph,
    Document.sum_length_calls ..⟩
  have hlt := hnum.lt_size_of_add hn
  exact ⟨hlt, fun qs => (extends_addAll _ qs).function?_eq hlt⟩

/-- A process with two functions, one of which calls both, after which another one is merged. There
are no manifests to read. -/
theorem wellFormed_addAll_pair :
    letI : ManifestReader := ⟨fun _ => none⟩
    let d (id : Nat) (h : id < FunctionId.limit) (path : String) : Definition :=
      ⟨some ⟨id, h⟩, 1, 0, 9, 1, 1, "", false, path, 0⟩
    let c (callee : FunctionId) : Call := ⟨some ⟨0, by decide⟩, some callee, 0⟩
    let p : Process := ⟨[d 0 (by decide) "/a", d 1 (by decide) "/b"],
      [c ⟨1, by decide⟩, c ⟨0, by decide⟩, c ⟨7, by decide⟩]⟩
    let q : Process := ⟨[d 0 (by decide) "/c"], []⟩
    let added := empty.add p.definitions p.calls
    let document := Document.ofGraph added.2.graph ⟨[], []⟩ "/"
    added.1[some (⟨1, by decide⟩ : FunctionId)]? = some 1 ∧ 1 < added.2.graph.functions.size ∧
      (added.2.addAll [q]).graph.function? 1 = added.2.graph.function? 1 ∧
      ∃ nodes, document.calls[0]? = some nodes ∧ 1 ∈ nodes ∧ 0 ∈ document.functions ∧
        (∀ node ∈ nodes, node ∈ document.functions) ∧ nodes.Pairwise (· < ·) := by
  let _ : ManifestReader := ⟨fun _ => none⟩
  intro d c p q added document
  have hadded : added = empty.add p.definitions p.calls := rfl
  -- from here on `added` is not computed
  clear_value added
  have hempty (identity : Identity) : identity ∉ empty.graph.identities := by
    rintro ⟨n, hn⟩
    simp [empty, CallGraph.empty, CallGraph.identity?, CallGraph.function?] at hn
  have hglobal (i : Nat) (d : Definition) (hd : p.definitions[i]? = some d) :
      added.1[d.id]? = some i := by
    rw [hadded, add_fst, ← Nat.zero_add i]
    exact numbered_empty.getElem?_addDefinitions ∅ (by decide) (by decide +kernel)
      (fun _ _ => hempty _) hd
  have hfirst : added.1[some (⟨0, by decide⟩ : FunctionId)]? = some 0 :=
    hglobal 0 (d 0 (by decide) "/a") rfl
  have hsecond : added.1[some (⟨1, by decide⟩ : FunctionId)]? = some 1 :=
    hglobal 1 (d 1 (by decide) "/b") rfl
  have htold : (0, 1) ∈ Call.edgesTold (added.1[·]?) [] p.calls := by
    rw [Call.edgesTold_of_edges _ _ (by decide)]
    exact List.mem_filterMap.2
      ⟨c ⟨1, by decide⟩, List.mem_cons_self, namedPair?_eq_some.2 ⟨hfirst, hsecond⟩⟩
  have hedge : added.2.graph.edges.Has 0 1 := by
    rw [hadded] at htold ⊢
    exact (has_add_empty ..).2 htold
  obtain ⟨callees, hcallees, hcallee⟩ := Edges.has_iff_getElem?.1 hedge
  have hnodes : document.calls[0]? = some callees.toList :=
    (Document.getElem?_calls ..).2 ⟨callees, hcallees, rfl⟩
  have hbuilder : empty.addAll [p] = added.2 := congrArg Prod.snd hadded.symm
  obtain ⟨-, -, hprocess, -⟩ := wellFormed_addAll [] ⟨[], []⟩ "/"
  obtain ⟨-, -, -, -, hwritten, -⟩ := wellFormed_addAll [p] ⟨[], []⟩ "/"
  have hlater := hprocess p
  rw [show empty.addAll [] = empty from rfl, ← hadded] at hlater
  rw [hbuilder] at hwritten
  obtain ⟨hlt, hsame⟩ := hlater.2.2 _ _ hsecond
  exact ⟨hsecond, hlt, hsame [q], _, hnodes, Std.TreeSet.mem_toList.2 hcallee, hwritten 0 _ hnodes⟩

end GraphBuilder

end CallTrace
