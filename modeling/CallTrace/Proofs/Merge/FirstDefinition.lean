import CallTrace.Proofs.Merge.Representation

/-!
# Definitions of one place have one number

The functions of a graph are those of the places that were defined, and each is as the first
definition of its place has it (`GraphBuilder.Tells`). Every definition that is added keeps it so
(`GraphBuilder.Tells.globalOf`), and the number that it is given stands for its place from then on
(`GraphBuilder.identity?_of_gives`). So two definitions are given one number if and only if they
agree on the place, in one process or in two (`GraphBuilder.number_by_place`).
-/

namespace CallTrace

namespace GraphBuilder

/-! ## First definitions -/

/-- The functions are those of the places in a history of definitions, and each is as the first
definition of its place has it. -/
structure Tells (builder : GraphBuilder) (history : List Definition) : Prop where
  numbered : builder.Numbered
  identities_eq : builder.graph.identities = {identity | ∃ d ∈ history, .ofDefinition d = identity}
  first : ∀ {n f}, builder.graph.function? n = some f →
    ∃ d, history.find? (fun d => .ofDefinition d = f.identity) = some d ∧ f = .ofDefinition n d

theorem tells_empty : empty.Tells [] where
  numbered := numbered_empty
  identities_eq := by simp [CallGraph.identities, empty, CallGraph.empty, CallGraph.identity?,
    CallGraph.function?]
  first h := by simp [empty, CallGraph.empty, CallGraph.function?] at h

namespace Tells

variable {builder : GraphBuilder} {history : List Definition}

/-- Nothing was defined at a place that is not in the graph. -/
theorem find?_eq_none (h : builder.Tells history) {identity : Identity}
    (hnew : ∀ n, builder.graph.identity? n ≠ some identity) :
    history.find? (fun d => .ofDefinition d = identity) = none := by
  rw [List.find?_eq_none]
  intro d hd heq
  have hmem : Identity.ofDefinition d ∈ builder.graph.identities := by
    rw [h.identities_eq]
    exact ⟨d, hd, rfl⟩
  obtain ⟨n, hn⟩ := hmem
  exact hnew n (hn.trans (congrArg some (of_decide_eq_true heq)))

/-- A further definition does not change what is told of a function. -/
theorem first_concat (h : builder.Tells history) {n : Nat} {f : GraphFunction}
    (hf : builder.graph.function? n = some f) (d : Definition) :
    ∃ first, (history ++ [d]).find? (fun d => .ofDefinition d = f.identity) = some first ∧
      f = .ofDefinition n first := by
  obtain ⟨first, hfind, heq⟩ := h.first hf
  exact ⟨first, by rw [List.find?_append, hfind, Option.some_or], heq⟩

/-- **A definition makes the function of its place,** unless there is one. -/
theorem globalOf (h : builder.Tells history) (d : Definition) :
    (builder.globalOf d).2.Tells (history ++ [d]) := by
  have hgrows := (h.numbered.globalOf d).1
  refine ⟨hgrows.numbered, ?_, fun {n f} hf => ?_⟩
  · rw [hgrows.identities_eq, h.identities_eq]
    ext identity
    simp [or_and_right, exists_or, or_comm, eq_comm]
  · by_cases hold : ∃ n, builder.graph.identity? n = some (.ofDefinition d)
    · obtain ⟨m, hm⟩ := hold
      rw [h.numbered.globalOf_of_identity? hm] at hf
      exact h.first_concat hf d
    · have hnew : ∀ n, builder.graph.identity? n ≠ some (.ofDefinition d) :=
        fun n hn => hold ⟨n, hn⟩
      rw [h.numbered.globalOf_of_forall_ne hnew] at hf
      simp only [GraphBuilder.push, CallGraph.function?, Array.getElem?_push] at hf
      split at hf
      · rename_i hn
        obtain rfl := Option.some.inj hf
        subst hn
        refine ⟨d, ?_, rfl⟩
        have hfind : (history ++ [d]).find? (fun d' => .ofDefinition d' = Identity.ofDefinition d) =
            some d := by
          rw [List.find?_append, h.find?_eq_none hnew, Option.none_or]
          simp
        exact hfind
      · exact h.first_concat hf d

theorem addDefinitions (h : builder.Tells history) (globals : GlobalIds)
    (definitions : List Definition) :
    (builder.addDefinitions globals definitions).2.Tells (history ++ definitions) := by
  induction definitions generalizing builder history globals with
  | nil => rwa [List.append_nil]
  | cons d rest ih =>
    have hrest := ih (h.globalOf d) (globals.insert d.id (builder.globalOf d).1)
    rwa [List.append_assoc] at hrest

theorem add (h : builder.Tells history) (process : Process) :
    (builder.add process.definitions process.calls).2.Tells (history ++ process.definitions) := by
  have hnum := (h.numbered.add process).1
  obtain ⟨-, hids, hfirst⟩ := h.addDefinitions ∅ process.definitions
  rw [add_snd, addCalls_eq] at hnum ⊢
  exact ⟨hnum, hids, hfirst⟩

theorem addAll (h : builder.Tells history) (processes : List Process) :
    (builder.addAll processes).Tells (history ++ processes.flatMap Process.definitions) := by
  induction processes generalizing builder history with
  | nil => rwa [List.flatMap_nil, List.append_nil]
  | cons process rest ih =>
    have hrest := ih (h.add process)
    rwa [List.append_assoc, ← List.flatMap_cons] at hrest

end Tells

/-! ## Given numbers -/

/-- What processes, and further definitions of the process after them, come to. -/
def before (earlier : List Process) (definitions : List Definition) : GraphBuilder :=
  ((empty.addAll earlier).addDefinitions ∅ definitions).2

/-- One of the processes has the definition, and there it is given the number. -/
def Gives (processes : List Process) (d : Definition) (n : Nat) : Prop :=
  ∃ earlier definitions rest calls later,
    processes = earlier ++ ⟨definitions ++ d :: rest, calls⟩ :: later ∧
      ((before earlier definitions).globalOf d).1 = n

theorem numbered_before (earlier : List Process) (definitions : List Definition) :
    (before earlier definitions).Numbered :=
  ((numbered_empty.addAll earlier).1.addDefinitions_empty definitions).1.numbered

theorem addDefinitions_append (builder : GraphBuilder) (globals : GlobalIds)
    (definitions rest : List Definition) :
    builder.addDefinitions globals (definitions ++ rest) =
      (builder.addDefinitions globals definitions).2.addDefinitions
        (builder.addDefinitions globals definitions).1 rest := by
  induction definitions generalizing builder globals with
  | nil => rfl
  | cons d definitions ih => exact ih _ _

theorem addAll_append_cons (builder : GraphBuilder) (earlier : List Process) (process : Process)
    (later : List Process) :
    builder.addAll (earlier ++ process :: later) =
      ((builder.addAll earlier).add process.definitions process.calls).2.addAll later :=
  List.foldl_append

section

variable (earlier : List Process) (definitions : List Definition) (d : Definition)
  (rest : List Definition) (calls : List Call)

theorem addDefinitions_before :
    (empty.addAll earlier).addDefinitions ∅ (definitions ++ d :: rest) =
      ((before earlier definitions).globalOf d).2.addDefinitions
        (((empty.addAll earlier).addDefinitions ∅ definitions).1.insert d.id
          ((before earlier definitions).globalOf d).1) rest :=
  addDefinitions_append ..

/-- What comes later extends the graph in which a definition has its number. -/
theorem extends_globalOf_before (later : List Process) :
    (empty.addAll (earlier ++ ⟨definitions ++ d :: rest, calls⟩ :: later)).graph.Extends
      ((before earlier definitions).globalOf d).2.graph := by
  rw [addAll_append_cons, add_snd, addDefinitions_before]
  exact ((extends_addDefinitions ..).trans (extends_addCalls ..)).trans (extends_addAll ..)

/-- The last definition of an id in a process tells the number that the id is given. -/
theorem getElem?_add_of_last (hlast : ∀ d' ∈ rest, d'.id ≠ d.id) :
    ((empty.addAll earlier).add (definitions ++ d :: rest) calls).1[d.id]? =
      some ((before earlier definitions).globalOf d).1 := by
  rw [add_fst, addDefinitions_before, Numbered.getElem?_addDefinitions_of_forall_ne _ _ hlast,
    Std.HashMap.getElem?_insert_self]

end

variable {processes : List Process} {d : Definition} {n : Nat}

/-- **A given number stands for the place of the definition.** -/
theorem identity?_of_gives (h : Gives processes d n) :
    (empty.addAll processes).graph.identity? n = some (.ofDefinition d) := by
  obtain ⟨earlier, definitions, rest, calls, later, rfl, rfl⟩ := h
  have hplace := ((numbered_before earlier definitions).globalOf d).2
  have hlt := CallGraph.isSome_identity?.1 (Option.isSome_of_mem hplace)
  have hsame := (extends_globalOf_before earlier definitions d rest calls later).function?_eq hlt
  rw [CallGraph.identity?, hsame]
  exact hplace

theorem exists_gives (h : d ∈ processes.flatMap Process.definitions) :
    ∃ n, Gives processes d n := by
  obtain ⟨⟨definitions, calls⟩, hprocess, hd⟩ := List.mem_flatMap.1 h
  obtain ⟨earlier, later, rfl⟩ := List.append_of_mem hprocess
  obtain ⟨first, rest, rfl⟩ := List.append_of_mem hd
  exact ⟨_, earlier, first, rest, calls, later, rfl, rfl⟩

theorem ofDefinition_eq_iff {d d' : Definition} :
    Identity.ofDefinition d = Identity.ofDefinition d' ↔
      d.fileIndex = d'.fileIndex ∧ d.positionStart = d'.positionStart ∧
        d.positionEnd = d'.positionEnd ∧ barePath d.path = barePath d'.path := by
  simp only [Identity.ofDefinition, Identity.mk.injEq]

/-- **A place has one number.** Whatever processes are added, every definition is given a number,
and two definitions in them are given the same one if and only if they agree on the number of the
literal, on where it starts and ends, and on the bare path. The number stands for a function with
the name, the form and the path of the first definition of its place, and it is what an id that is
not defined again in its process is said to be given. No two places share a key. -/
theorem number_by_place (processes : List Process) :
    let graph := (empty.addAll processes).graph
    let history := processes.flatMap Process.definitions
    (∀ d ∈ history, ∃ n, Gives processes d n) ∧
      (∀ d d' n n', Gives processes d n → Gives processes d' n' →
        (n = n' ↔ d.fileIndex = d'.fileIndex ∧ d.positionStart = d'.positionStart ∧
          d.positionEnd = d'.positionEnd ∧ barePath d.path = barePath d'.path)) ∧
      (∀ d n, Gives processes d n → ∃ f first, graph.function? n = some f ∧
        history.find? (fun d' => .ofDefinition d' = Identity.ofDefinition d) = some first ∧
        f.name = first.name ∧ f.isConstructor = first.isConstructor ∧
        f.path = barePath first.path) ∧
      (∀ earlier definitions d rest calls later,
        processes = earlier ++ ⟨definitions ++ d :: rest, calls⟩ :: later →
        (∀ d' ∈ rest, d'.id ≠ d.id) →
        ∃ n, Gives processes d n ∧
          ((empty.addAll earlier).add (definitions ++ d :: rest) calls).1[d.id]? = some n) ∧
      ∀ i j : Identity, i.key = j.key → i = j := by
  intro graph history
  have htells : (empty.addAll processes).Tells history := tells_empty.addAll processes
  refine ⟨fun d hd => exists_gives hd, fun d d' n n' hn hn' => ?_, fun d n hn => ?_, ?_,
    fun i j hkey => Identity.key_injective hkey⟩
  · have hplace := identity?_of_gives hn
    have hplace' := identity?_of_gives hn'
    rw [← ofDefinition_eq_iff]
    constructor
    · rintro rfl
      exact Option.some.inj (hplace.symm.trans hplace')
    · intro heq
      exact htells.numbered.identity?_inj hplace (heq ▸ hplace')
  · obtain ⟨f, hf, hplace⟩ := Option.map_eq_some_iff.1 (identity?_of_gives hn)
    obtain ⟨first, hfind, heq⟩ := htells.first hf
    rw [hplace] at hfind
    exact ⟨f, first, hf, hfind, by rw [heq]; exact ⟨rfl, rfl, rfl⟩⟩
  · rintro earlier definitions d rest calls later rfl hlast
    exact ⟨_, ⟨earlier, definitions, rest, calls, later, rfl, rfl⟩,
      getElem?_add_of_last earlier definitions d rest calls hlast⟩

/-- Two processes that name a function differently and write its path in two ways, and a function
that differs in where the underscores stand; an id is defined twice. -/
theorem number_by_place_renamed :
    let id : FunctionId := ⟨0, by decide⟩
    let d (start stop : Int32) (name path : String) : Definition :=
      ⟨some id, 1, start, stop, 1, 1, name, name.isEmpty, path, 0⟩
    let p : Process := ⟨[d (-2) 3 "f" "4_/a", d (-2) 34 "" "_/a"], []⟩
    let q : Process := ⟨[d (-2) 34 "g" "/a", d (-2) 3 "h" " file://4_/a\t"], []⟩
    let added := (empty.addAll [p]).add q.definitions q.calls
    d (-2) 3 "f" "4_/a" ∈ [p, q].flatMap Process.definitions ∧
      ∃ m n, Gives [p, q] (d (-2) 3 "f" "4_/a") m ∧ Gives [p, q] (d (-2) 34 "" "_/a") n ∧ m ≠ n ∧
        Gives [p, q] (d (-2) 3 "h" " file://4_/a\t") m ∧ added.1[some id]? = some m ∧
        ∃ f, (empty.addAll [p, q]).graph.function? m = some f ∧ f.name = "f" ∧ f.path = "4_/a" := by
  intro id d p q added
  obtain ⟨hgives, hiff, hfunction, hgiven, -⟩ := number_by_place [p, q]
  have hmem : d (-2) 3 "f" "4_/a" ∈ [p, q].flatMap Process.definitions := by decide
  obtain ⟨m, hm⟩ := hgives _ hmem
  obtain ⟨n, hn⟩ := hgives (d (-2) 34 "" "_/a") (by decide)
  obtain ⟨k, hk, hid⟩ := hgiven [p] [d (-2) 34 "g" "/a"] (d (-2) 3 "h" " file://4_/a\t") [] [] [] rfl
    (by simp)
  obtain rfl : m = k := (hiff _ _ _ _ hm hk).2 (by decide +kernel)
  obtain ⟨f, first, hf, hfind, hname, -, hpath⟩ := hfunction _ _ hm
  have hfirst : first = d (-2) 3 "f" "4_/a" :=
    Option.some.inj (hfind.symm.trans (by decide +kernel))
  refine ⟨hmem, m, n, hm, hn, fun heq => ?_, hk, hid, f, hf, ?_, ?_⟩
  · exact absurd ((hiff _ _ _ _ hm hn).1 heq) (by decide +kernel)
  · rw [hname, hfirst]
  · rw [hpath, hfirst]
    decide +kernel

end GraphBuilder

end CallTrace
