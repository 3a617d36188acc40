import CallTrace.Merge.Builder
import CallTrace.Proofs.Decimal
import CallTrace.Proofs.Merge.Replay

/-!
# Places are numbered

The key under which a place is looked up tells it apart from every other place
(`Identity.key_injective`), so the functions of a graph have different places, each function has
its number for an id, and edges join functions of the graph (`GraphBuilder.Numbered`). Definitions
only add places (`GraphBuilder.Numbered.addDefinitions`), and an id of the process then stands for
the place of its last definition (`placeOf?`).
-/

namespace CallTrace

/-! ## Keys -/

theorem append_cons_inj {α : Type} {c : α} {xs ys us vs : List α} (hx : c ∉ xs) (hy : c ∉ ys)
    (h : xs ++ c :: us = ys ++ c :: vs) : xs = ys ∧ us = vs := by
  induction xs generalizing ys with
  | nil =>
    cases ys with
    | nil => exact ⟨rfl, (List.cons.inj h).2⟩
    | cons y ys => exact absurd (List.cons.inj h).1 (List.ne_of_not_mem_cons hy)
  | cons x xs ih =>
    cases ys with
    | nil => exact absurd (List.cons.inj h).1.symm (List.ne_of_not_mem_cons hx)
    | cons y ys =>
      obtain ⟨rfl, hrest⟩ := List.cons.inj h
      obtain ⟨rfl, rfl⟩ := ih (List.not_mem_of_not_mem_cons hx)
        (List.not_mem_of_not_mem_cons hy) hrest
      exact ⟨rfl, rfl⟩

theorem underscore_not_mem_ofInt (n : Int) : '_' ∉ Decimal.ofInt n := by
  intro h
  rcases Decimal.mem_ofInt h with h | h
  · cases h
  · exact absurd h (by decide)

/-- **Different places have different keys.** -/
theorem Identity.key_injective : Function.Injective Identity.key := by
  rintro ⟨index, start, stop, path⟩ ⟨index', start', stop', path'⟩ h
  have h := String.ofList_injective h
  simp only [List.intercalate_cons_cons, List.intercalate_singleton, List.append_assoc,
    List.singleton_append] at h
  obtain ⟨hindex, h⟩ := append_cons_inj (underscore_not_mem_ofInt _) (underscore_not_mem_ofInt _) h
  obtain ⟨hstart, h⟩ := append_cons_inj (underscore_not_mem_ofInt _) (underscore_not_mem_ofInt _) h
  obtain ⟨hstop, h⟩ := append_cons_inj (underscore_not_mem_ofInt _) (underscore_not_mem_ofInt _) h
  rw [Int32.toInt_inj.1 (Decimal.ofInt_injective hindex),
    Int32.toInt_inj.1 (Decimal.ofInt_injective hstart),
    Int32.toInt_inj.1 (Decimal.ofInt_injective hstop), String.toList_injective h]

/-! ## Numbers -/

/-- The place of the function with a number. -/
def CallGraph.identity? (graph : CallGraph) (number : Nat) : Option Identity :=
  (graph.function? number).map GraphFunction.identity

namespace CallGraph

/-- The places of the functions. -/
def identities (graph : CallGraph) : Set Identity :=
  {identity | ∃ n, graph.identity? n = some identity}

theorem identity?_push (functions : Array GraphFunction) (edges : Edges) (f : GraphFunction)
    (n : Nat) :
    identity? ⟨functions.push f, edges⟩ n =
      if n = functions.size then some f.identity else identity? ⟨functions, edges⟩ n := by
  simp only [identity?, function?, Array.getElem?_push]
  split <;> rfl

theorem isSome_identity? {graph : CallGraph} {n : Nat} :
    (graph.identity? n).isSome ↔ n < graph.functions.size := by
  simp [identity?, function?]

theorem ne_size_of_identity? {functions : Array GraphFunction} {edges : Edges} {n : Nat}
    {identity : Identity} (h : identity? ⟨functions, edges⟩ n = some identity) :
    n ≠ functions.size :=
  (isSome_identity?.1 (Option.isSome_of_mem h)).ne

theorem identity?_push_of_eq_some {functions : Array GraphFunction} {edges : Edges} {n : Nat}
    {identity : Identity} (f : GraphFunction)
    (h : identity? ⟨functions, edges⟩ n = some identity) :
    identity? ⟨functions.push f, edges⟩ n = some identity := by
  rw [identity?_push, if_neg (ne_size_of_identity? h), h]

theorem identities_push (functions : Array GraphFunction) (edges : Edges) (f : GraphFunction) :
    identities ⟨functions.push f, edges⟩ = identities ⟨functions, edges⟩ ∪ {f.identity} := by
  ext identity
  constructor
  · rintro ⟨n, hn⟩
    rw [identity?_push] at hn
    split at hn
    · exact .inr (Option.some.inj hn).symm
    · exact .inl ⟨n, hn⟩
  · rintro (⟨n, hn⟩ | rfl)
    · exact ⟨n, identity?_push_of_eq_some f hn⟩
    · exact ⟨functions.size, by rw [identity?_push, if_pos rfl]⟩

end CallGraph

/-- The place that an id of a process stands for: that of its last definition. -/
def placeOf? (definitions : List Definition) (id : Option FunctionId) : Option Identity :=
  (definitions.reverse.find? fun d => d.id = id).map Identity.ofDefinition

theorem placeOf?_cons (d : Definition) (rest : List Definition) (id : Option FunctionId) :
    placeOf? (d :: rest) id =
      (placeOf? rest id).or (if d.id = id then some (.ofDefinition d) else none) := by
  simp only [placeOf?, List.reverse_cons, List.find?_append, Option.map_or, List.find?_cons,
    List.find?_nil]
  by_cases h : d.id = id <;> simp [h]

namespace GraphBuilder

/-- Functions have their numbers for ids, places are found under their keys, and edges join
functions of the graph. -/
structure Numbered (builder : GraphBuilder) : Prop where
  id_eq : ∀ {n f}, builder.graph.function? n = some f → f.id = n
  key_iff : ∀ {identity n},
    builder.keys[identity.key]? = some n ↔ builder.graph.identity? n = some identity
  edge_some : ∀ {a b}, builder.graph.edges.Has a b →
    (builder.graph.identity? a).isSome ∧ (builder.graph.identity? b).isSome

theorem idUnder_of_some {keys : Std.HashMap String Nat} {key : String} {id : Nat}
    (h : keys[key]? = some id) (next : Nat) : idUnder keys key next = (id, keys) := by
  simp only [idUnder, h]

theorem idUnder_of_none {keys : Std.HashMap String Nat} {key : String} (h : keys[key]? = none)
    (next : Nat) : idUnder keys key next = (next, keys.insert key next) := by
  simp only [idUnder, h]

/-- With a function for the place of a definition at the end. -/
def push (builder : GraphBuilder) (d : Definition) : GraphBuilder :=
  { builder with
    keys := builder.keys.insert (Identity.ofDefinition d).key builder.graph.functions.size
    graph := { builder.graph with
      functions := builder.graph.functions.push
        (GraphFunction.ofDefinition builder.graph.functions.size d) } }

theorem numbered_empty : empty.Numbered where
  id_eq h := by simp [empty, CallGraph.empty, CallGraph.function?] at h
  key_iff := by simp [empty, CallGraph.empty, CallGraph.identity?, CallGraph.function?]
  edge_some h := absurd h Edges.not_has_empty

/-- The functions keep their numbers, functions for further places may be new, and all else is
the same. -/
structure Grows (builder builder' : GraphBuilder) (places : Set Identity) : Prop where
  numbered : builder'.Numbered
  keeps : ∀ {n identity}, builder.graph.identity? n = some identity →
    builder'.graph.identity? n = some identity
  identities_eq : builder'.graph.identities = builder.graph.identities ∪ places
  edges_eq : builder'.graph.edges = builder.graph.edges
  missing_eq : builder'.missing = builder.missing

theorem Grows.trans {b b' b'' : GraphBuilder} {places places' : Set Identity}
    (h : b.Grows b' places) (h' : b'.Grows b'' places') : b.Grows b'' (places ∪ places') where
  numbered := h'.numbered
  keeps hn := h'.keeps (h.keeps hn)
  identities_eq := by rw [h'.identities_eq, h.identities_eq, Set.union_assoc]
  edges_eq := h'.edges_eq.trans h.edges_eq
  missing_eq := h'.missing_eq.trans h.missing_eq

namespace Numbered

variable {builder : GraphBuilder}

/-- A place has one number. -/
theorem identity?_inj (h : builder.Numbered) {m n : Nat} {identity : Identity}
    (hm : builder.graph.identity? m = some identity)
    (hn : builder.graph.identity? n = some identity) : m = n :=
  Option.some.inj ((h.key_iff.2 hm).symm.trans (h.key_iff.2 hn))

/-- A place that is there already keeps its number, and nothing is added. -/
theorem globalOf_of_identity? (h : builder.Numbered) {d : Definition} {n : Nat}
    (hn : builder.graph.identity? n = some (.ofDefinition d)) :
    builder.globalOf d = (n, builder) := by
  have hne : n ≠ builder.graph.functions.size :=
    (CallGraph.isSome_identity?.1 (Option.isSome_of_mem hn)).ne
  simp only [GraphBuilder.globalOf, idUnder_of_some (h.key_iff.2 hn), if_neg hne]

/-- A new place is added at the end. -/
theorem globalOf_of_forall_ne (h : builder.Numbered) {d : Definition}
    (hnew : ∀ n, builder.graph.identity? n ≠ some (.ofDefinition d)) :
    builder.globalOf d = (builder.graph.functions.size, builder.push d) := by
  have hkey : builder.keys[(Identity.ofDefinition d).key]? = none :=
    Option.eq_none_iff_forall_ne_some.2 fun n hn => hnew n (h.key_iff.1 hn)
  simp only [GraphBuilder.globalOf, idUnder_of_none hkey, if_pos, GraphBuilder.push]

theorem push (h : builder.Numbered) {d : Definition}
    (hnew : ∀ n, builder.graph.identity? n ≠ some (.ofDefinition d)) :
    (builder.push d).Numbered := by
  obtain ⟨keys, ⟨functions, edges⟩, missing⟩ := builder
  refine ⟨fun {n f} hf => ?_, fun {identity n} => ?_, fun hedge => ?_⟩
  · simp only [GraphBuilder.push, CallGraph.function?, Array.getElem?_push] at hf
    split at hf
    · rename_i hn
      obtain rfl := Option.some.inj hf
      exact hn.symm
    · exact h.id_eq hf
  · simp only [GraphBuilder.push]
    rw [Std.HashMap.getElem?_insert, CallGraph.identity?_push]
    by_cases hi : Identity.ofDefinition d = identity
    · subst hi
      rw [if_pos BEq.rfl]
      split
      · rename_i hn
        exact iff_of_true (congrArg some hn.symm) rfl
      · rename_i hn
        exact iff_of_false (fun hs => hn (Option.some.inj hs).symm) (hnew n)
    · -- the new key is not that of another place
      rw [if_neg fun hb => hi (Identity.key_injective (eq_of_beq hb))]
      split
      · rename_i hn
        refine iff_of_false (fun hs => ?_) fun hs => hi (Option.some.inj hs)
        exact CallGraph.ne_size_of_identity? (h.key_iff.1 hs) hn
      · exact h.key_iff
  · obtain ⟨ha, hb⟩ := h.edge_some hedge
    exact ⟨Option.isSome_of_mem
        (CallGraph.identity?_push_of_eq_some _ (Option.eq_some_of_isSome ha)),
      Option.isSome_of_mem
        (CallGraph.identity?_push_of_eq_some _ (Option.eq_some_of_isSome hb))⟩

/-- The place that a definition comes with is added, unless it is there already. -/
theorem globalOf (h : builder.Numbered) (d : Definition) :
    builder.Grows (builder.globalOf d).2 {.ofDefinition d} ∧
      (builder.globalOf d).2.graph.identity? (builder.globalOf d).1 = some (.ofDefinition d) := by
  by_cases hold : ∃ n, builder.graph.identity? n = some (.ofDefinition d)
  · obtain ⟨n, hn⟩ := hold
    have hmem : Identity.ofDefinition d ∈ builder.graph.identities := ⟨n, hn⟩
    rw [h.globalOf_of_identity? hn]
    refine ⟨⟨h, id, ?_, rfl, rfl⟩, hn⟩
    exact (Set.union_eq_self_of_subset_right (Set.singleton_subset_iff.2 hmem)).symm
  · have hnew : ∀ n, builder.graph.identity? n ≠ some (.ofDefinition d) := fun n hn => hold ⟨n, hn⟩
    rw [h.globalOf_of_forall_ne hnew]
    refine ⟨⟨h.push hnew, fun hn => CallGraph.identity?_push_of_eq_some _ hn,
      CallGraph.identities_push .., rfl, rfl⟩, ?_⟩
    exact (CallGraph.identity?_push ..).trans (if_pos rfl)

/-- Definitions add their places, and tell under which number each id of the process stands for
the place of its last definition. -/
theorem addDefinitions (h : builder.Numbered) (globals : GlobalIds)
    (hglobals : ∀ (id : Option FunctionId) n, globals[id]? = some n →
      (builder.graph.identity? n).isSome)
    (definitions : List Definition) :
    builder.Grows (builder.addDefinitions globals definitions).2
        {identity | ∃ d ∈ definitions, .ofDefinition d = identity} ∧
      ∀ id, (builder.addDefinitions globals definitions).1[id]?.map
          (builder.addDefinitions globals definitions).2.graph.identity? =
        ((placeOf? definitions id).map some).or (globals[id]?.map builder.graph.identity?) := by
  induction definitions generalizing builder globals with
  | nil => exact ⟨⟨h, id, by simp [GraphBuilder.addDefinitions], rfl, rfl⟩, fun id => rfl⟩
  | cons d rest ih =>
    obtain ⟨hgrows, hplace⟩ := h.globalOf d
    rw [GraphBuilder.addDefinitions]
    generalize builder.globalOf d = made at hgrows hplace
    obtain ⟨n, builder'⟩ := made
    dsimp only at hgrows hplace ⊢
    have hkeep (id : Option FunctionId) :
        globals[id]?.map builder'.graph.identity? = globals[id]?.map builder.graph.identity? := by
      refine Option.map_congr fun m hm => ?_
      obtain ⟨identity, hi⟩ := Option.isSome_iff_exists.1 (hglobals id m hm)
      rw [hi, hgrows.keeps hi]
    -- the ids known after this definition: its own, with its place, and those known before
    have hmore (id : Option FunctionId) :
        (globals.insert d.id n)[id]?.map builder'.graph.identity? =
          if d.id = id then some (some (.ofDefinition d))
          else globals[id]?.map builder.graph.identity? := by
      rw [Std.HashMap.getElem?_insert]
      by_cases hid : d.id = id
      · simp [hid, hplace]
      · simp [hid, hkeep]
    have hglobals' (id : Option FunctionId) (m : Nat) (hm : (globals.insert d.id n)[id]? = some m) :
        (builder'.graph.identity? m).isSome := by
      have heq := hmore id
      rw [hm, Option.map_some] at heq
      split at heq
      · rw [Option.some.inj heq]
        rfl
      · obtain ⟨k, hk, hkm⟩ := Option.map_eq_some_iff.1 heq.symm
        exact hkm ▸ hglobals id k hk
    obtain ⟨hrest, hids⟩ := ih hgrows.numbered (globals.insert d.id n) hglobals'
    have hplaces : {Identity.ofDefinition d} ∪ {identity | ∃ d ∈ rest, .ofDefinition d = identity} =
        {identity | ∃ d' ∈ d :: rest, .ofDefinition d' = identity} := by
      ext identity
      simp [eq_comm]
    refine ⟨hplaces ▸ hgrows.trans hrest, fun id => ?_⟩
    rw [hids, hmore, placeOf?_cons]
    split
    · rw [Option.map_or, Option.or_assoc]
      rfl
    · rw [Option.or_none]

/-- So when no ids are known before, an id stands for the place of its last definition. -/
theorem addDefinitions_empty (h : builder.Numbered) (definitions : List Definition) :
    builder.Grows (builder.addDefinitions ∅ definitions).2
        {identity | ∃ d ∈ definitions, .ofDefinition d = identity} ∧
      ∀ id, (builder.addDefinitions ∅ definitions).1[id]?.map
          (builder.addDefinitions ∅ definitions).2.graph.identity? =
        (placeOf? definitions id).map some := by
  have hnone (id : Option FunctionId) : (∅ : GlobalIds)[id]? = none := Std.HashMap.getElem?_empty
  obtain ⟨hgrows, hplace⟩ := h.addDefinitions ∅ (fun id n hn => by simp at hn) definitions
  refine ⟨hgrows, fun id => ?_⟩
  rw [hplace, hnone, Option.map_none, Option.or_none]

theorem getElem?_addDefinitions_of_forall_ne (builder : GraphBuilder) (globals : GlobalIds)
    {definitions : List Definition} {id : Option FunctionId} (h : ∀ d ∈ definitions, d.id ≠ id) :
    (builder.addDefinitions globals definitions).1[id]? = globals[id]? := by
  induction definitions generalizing builder globals with
  | nil => rfl
  | cons d rest ih =>
    rw [GraphBuilder.addDefinitions, ih _ _ fun d' hd' => h d' (List.mem_cons_of_mem _ hd'),
      Std.HashMap.getElem?_insert, if_neg]
    exact fun heq => h d List.mem_cons_self (eq_of_beq heq)

/-- Definitions with different ids of different new places are numbered in order. -/
theorem getElem?_addDefinitions (h : builder.Numbered) (globals : GlobalIds)
    {definitions : List Definition} (hids : (definitions.map Definition.id).Nodup)
    (hplaces : (definitions.map Identity.ofDefinition).Nodup)
    (hnew : ∀ d ∈ definitions, Identity.ofDefinition d ∉ builder.graph.identities)
    {i : Nat} {d : Definition} (hd : definitions[i]? = some d) :
    (builder.addDefinitions globals definitions).1[d.id]? =
      some (builder.graph.functions.size + i) := by
  induction definitions generalizing builder globals i with
  | nil => simp at hd
  | cons first rest ih =>
    obtain ⟨hid, hids⟩ := List.nodup_cons.1 hids
    obtain ⟨hplace, hplaces⟩ := List.nodup_cons.1 hplaces
    have hglobal := h.globalOf_of_forall_ne fun n hn => hnew first List.mem_cons_self ⟨n, hn⟩
    obtain ⟨hgrows, -⟩ := h.globalOf first
    have hnew' (d : Definition) (hd : d ∈ rest) :
        Identity.ofDefinition d ∉ (builder.globalOf first).2.graph.identities := by
      rw [hgrows.identities_eq]
      rintro (hold | hfirst)
      · exact hnew d (List.mem_cons_of_mem _ hd) hold
      · exact hplace (List.mem_map.2 ⟨d, hd, hfirst⟩)
    rw [GraphBuilder.addDefinitions]
    cases i with
    | zero =>
      obtain rfl := Option.some.inj hd
      rw [getElem?_addDefinitions_of_forall_ne _ _ fun d' hd' heq =>
        hid (List.mem_map.2 ⟨d', hd', heq⟩), Std.HashMap.getElem?_insert_self, hglobal]
      rfl
    | succ i =>
      have hrest := ih hgrows.numbered (globals.insert first.id (builder.globalOf first).1) hids
        hplaces hnew' hd
      rw [hrest, hglobal, GraphBuilder.push, Array.size_push, Nat.add_right_comm, Nat.add_assoc]

end Numbered

end GraphBuilder

end CallTrace
