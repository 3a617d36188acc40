import CallTrace.Proofs.CallTracer.Operation
import CallTrace.Proofs.Merge.Union
import CallTrace.Proofs.Tracer.Run
import Mathlib.Data.List.Nodup

/-!
# What a run leaves behind

After the end of a run both streams are read back in full, and merging what they tell misses
nothing, as every id in a call was announced. Where stacks were collected, the merged graph has
exactly the edges that the tracer knew; and as long as no two scripts have the same path for the
merge, every function keeps its number (`Tracer.Run.merge_shutdown`).
-/

namespace CallTrace

/-- The function is registered under the path of its script and the number of its literal. -/
def Registry.Registered (registry : Registry) (name : FunctionName) : Prop :=
  ∃ state, registry.state = some state ∧ (state.catalogue.id? name).isSome

/-- The path by which scripts are told apart in a merge, from the path of the script. -/
def mergedPath (path : String) : String :=
  barePath (String.ofList (sanitize path.toList))

theorem path_readBack (d : Definition) :
    (Identity.ofDefinition d.readBack).path = mergedPath d.path :=
  rfl

/-! ## Announced ids have places -/

theorem nodup_map_of_getElem? {α β : Type} {f : α → β} {xs : List α}
    (h : ∀ (i j : Nat) (x y : α), xs[i]? = some x → xs[j]? = some y → f x = f y → i = j) :
    (xs.map f).Nodup := by
  rw [List.nodup_iff_getElem?_ne_getElem?]
  intro i j hij hj heq
  rw [List.length_map] at hj
  have hi := Nat.lt_trans hij hj
  rw [List.getElem?_map, List.getElem?_map, List.getElem?_eq_getElem hi,
    List.getElem?_eq_getElem hj] at heq
  exact absurd (h i j _ _ (List.getElem?_eq_getElem hi) (List.getElem?_eq_getElem hj)
    (Option.some.inj heq)) (Nat.ne_of_lt hij)

namespace Catalogue.Lists

variable {catalogue : Catalogue} {definitions : List Definition}

theorem isSome_placeOf? (h : catalogue.Lists definitions) {id : FunctionId}
    (hlt : id.val < definitions.length) :
    (placeOf? (definitions.map Definition.readBack) (some id)).isSome := by
  have hd := List.getElem?_eq_getElem hlt
  obtain ⟨id', hid, hval, -⟩ := h.exists_id hd
  rw [placeOf?, Option.isSome_map, List.find?_isSome]
  refine ⟨definitions[id.val].readBack, ?_, ?_⟩
  · rw [List.mem_reverse]
    exact List.mem_map_of_mem (List.getElem_mem hlt)
  · exact decide_eq_true (hid.trans (congrArg some (FunctionId.val_injective hval)))

theorem nodup_ids (h : catalogue.Lists definitions) :
    ((definitions.map Definition.readBack).map Definition.id).Nodup := by
  rw [List.map_map]
  refine nodup_map_of_getElem? fun i j d d' hd hd' heq => ?_
  obtain ⟨id, hid, rfl, -⟩ := h.exists_id hd
  obtain ⟨id', hid', rfl, -⟩ := h.exists_id hd'
  have hsame : d.id = d'.id := heq
  rw [hid, hid'] at hsame
  rw [Option.some.inj hsame]

/-- Functions under paths that differ for a merge have different places. -/
theorem nodup_places (h : catalogue.Lists definitions)
    (hpaths : ∀ name name', (catalogue.id? name).isSome → (catalogue.id? name').isSome →
      mergedPath name.1 = mergedPath name'.1 → name.1 = name'.1) :
    ((definitions.map Definition.readBack).map Identity.ofDefinition).Nodup := by
  rw [List.map_map]
  refine nodup_map_of_getElem? fun i j d d' hd hd' heq => ?_
  obtain ⟨id, -, rfl, hname⟩ := h.exists_id hd
  obtain ⟨id', -, rfl, hname'⟩ := h.exists_id hd'
  have hplace : Identity.ofDefinition d.readBack = Identity.ofDefinition d'.readBack := heq
  have hindex : d.fileIndex = d'.fileIndex := congrArg Identity.fileIndex hplace
  have hmerged : mergedPath d.path = mergedPath d'.path := by
    rw [← path_readBack, ← path_readBack, hplace]
  have hpath : d.path = d'.path :=
    hpaths _ _ (Option.isSome_of_mem hname) (Option.isSome_of_mem hname') hmerged
  have hsame : d.functionName = d'.functionName := Prod.ext hpath hindex
  rw [hsame, hname'] at hname
  rw [Option.some.inj hname]

end Catalogue.Lists

/-! ## Merging what was announced -/

/-- A call that names functions with names only misses nothing. -/
theorem Call.Within.unnamed_eq_zero {α : Type} {P : FunctionId → Prop} {call : Call}
    (h : call.Within P) {name : Option FunctionId → Option α}
    (hname : ∀ id, P id → (name (some id)).isSome) : call.unnamed name = 0 := by
  obtain ⟨caller, callee, timestamp⟩ := call
  obtain ⟨hsome, hcaller, hcallee⟩ := h
  cases caller with
  | none =>
    cases callee with
    | none => simp at hsome
    | some id =>
      obtain ⟨x, hx⟩ := Option.isSome_iff_exists.1 (hname id (hcallee id rfl))
      simp [unnamed, ends, isEntry, hx]
  | some id =>
    obtain ⟨x, hx⟩ := Option.isSome_iff_exists.1 (hname id (hcaller id rfl))
    cases callee with
    | none => simp [unnamed, ends, isEntry, isExit, hx]
    | some id' =>
      obtain ⟨y, hy⟩ := Option.isSome_iff_exists.1 (hname id' (hcallee id' rfl))
      simp [unnamed, ends, isEntry, isExit, hx, hy]

namespace Catalogue.Lists

variable {catalogue : Catalogue} {definitions : List Definition} {calls : List Call}

theorem missing_add (h : catalogue.Lists definitions)
    (hcalls : ∀ call ∈ calls, call.Within fun id => id.val < definitions.length) :
    (GraphBuilder.empty.add (definitions.map .readBack) calls).2.missing = 0 := by
  have hmissing :=
    (GraphBuilder.numbered_empty.add ⟨definitions.map Definition.readBack, calls⟩).2.2.2
  have hzero := Call.sum_unnamed_eq_zero fun call hcall =>
    (hcalls call hcall).unnamed_eq_zero fun id hid => h.isSome_placeOf? hid
  rw [Process.missing, hzero] at hmissing
  exact hmissing

theorem globals_add (h : catalogue.Lists definitions)
    (hpaths : ∀ name name', (catalogue.id? name).isSome → (catalogue.id? name').isSome →
      mergedPath name.1 = mergedPath name'.1 → name.1 = name'.1)
    {id : FunctionId} (hlt : id.val < definitions.length) :
    (GraphBuilder.empty.add (definitions.map .readBack) calls).1[some id]? = some id.val := by
  have hd := List.getElem?_eq_getElem hlt
  obtain ⟨id', hid, hval, -⟩ := h.exists_id hd
  have hget : (definitions.map Definition.readBack)[id.val]? =
      some (definitions[id.val].readBack) := by
    rw [List.getElem?_map, hd, Option.map_some]
  have hnew : ∀ d ∈ definitions.map Definition.readBack,
      Identity.ofDefinition d ∉ GraphBuilder.empty.graph.identities := by
    rintro d - ⟨n, hn⟩
    simp [GraphBuilder.empty, CallGraph.empty, CallGraph.identity?, CallGraph.function?] at hn
  have hadd := GraphBuilder.numbered_empty.getElem?_addDefinitions ∅ h.nodup_ids
    (h.nodup_places hpaths) hnew hget
  have hkey : (definitions[id.val].readBack).id = some id :=
    hid.trans (congrArg some (FunctionId.val_injective hval))
  rw [hkey] at hadd
  simpa [GraphBuilder.add, GraphBuilder.empty, CallGraph.empty] using hadd

end Catalogue.Lists

theorem Inference.Told.has_add {inference : Inference} {calls : List Call}
    (h : inference.Told calls) (definitions : List Definition) (a b : Nat) :
    (GraphBuilder.empty.add definitions calls).2.graph.edges.Has a b ↔
      ∃ pair ∈ inference.known,
        (GraphBuilder.empty.add definitions calls).1[some pair.1]? = some a ∧
          (GraphBuilder.empty.add definitions calls).1[some pair.2]? = some b := by
  rw [GraphBuilder.has_add_empty, Call.edgesTold_of_edges _ _ h.isSome_ends, List.mem_filterMap]
  simp only [namedPair?_eq_some]
  exact h.exists_call_iff fun caller callee =>
    (GraphBuilder.empty.add definitions calls).1[caller]? = some a ∧
      (GraphBuilder.empty.add definitions calls).1[callee]? = some b

namespace Tracer

variable {settings : Settings} {tracer : Tracer} {inference : Inference}
  {definitions : List Definition} {calls : List Call}

namespace Sound

theorem knows_iff (h : tracer.Sound settings inference definitions calls)
    (pair : FunctionId × FunctionId) : tracer.calls.Knows pair ↔ pair ∈ inference.known := by
  obtain ⟨stream, hstate, -⟩ := h.recorded
  constructor
  · rintro ⟨state, hsome, hpair⟩
    rw [hstate] at hsome
    obtain rfl := Option.some.inj hsome
    exact hpair
  · exact fun hpair => ⟨_, hstate, hpair⟩

/-- At the end, both outlets have all that was announced and told. -/
theorem shutdown (h : tracer.Sound settings inference definitions calls) (world : World) :
    ∃ definitionBatches callBatches,
      (tracer.shutdown world).1 =
          (some (.capture definitionBatches), some (.capture callBatches)) ∧
        Trace.read definitionBatches.toList.flatten =
          .ok ((definitions.map Definition.readBack).map .definition) ∧
        Trace.read callBatches.toList.flatten = .ok (calls.map .call) := by
  obtain ⟨definitionBatches, hfinish, hread⟩ := h.announced.finish world
  obtain ⟨callBatches, hfinish', hread'⟩ := h.recorded.finish world
  refine ⟨definitionBatches, callBatches, ?_, hread, hread'⟩
  simp only [Tracer.shutdown, hfinish, hfinish']

end Sound

/-- **What a run leaves behind.** Whatever a tracer did, both streams are read back with one record
for each that was recorded, and a merge of them misses nothing. Where stacks were collected, its
edges are the images of the pairs that the tracer knew; and if no two registered paths are the
same for a merge, the global id of each function is its number. -/
theorem Run.merge_shutdown {given : List FunctionId} (h : Run settings tracer given)
    (world : World) :
    ∃ (definitionBatches callBatches : Array Bytes) (definitions : List Definition)
      (calls : List Call),
      (tracer.shutdown world).1 =
          (some (.capture definitionBatches), some (.capture callBatches)) ∧
        Trace.read definitionBatches.toList.flatten = .ok (definitions.map .definition) ∧
        Trace.read callBatches.toList.flatten = .ok (calls.map .call) ∧
        definitions.length = tracer.registry.stats.records ∧
        calls.length = tracer.calls.stats.records ∧
        (GraphBuilder.empty.add definitions calls).2.missing = 0 ∧
        (1 < settings.stackDepth → ∀ a b,
          (GraphBuilder.empty.add definitions calls).2.graph.edges.Has a b ↔
            ∃ pair, tracer.calls.Knows pair ∧
              (GraphBuilder.empty.add definitions calls).1[some pair.1]? = some a ∧
              (GraphBuilder.empty.add definitions calls).1[some pair.2]? = some b) ∧
        ((∀ name name', tracer.registry.Registered name → tracer.registry.Registered name' →
            mergedPath name.1 = mergedPath name'.1 → name.1 = name'.1) →
          ∀ id : FunctionId, id.val < tracer.registry.size →
            (GraphBuilder.empty.add definitions calls).1[some id]? = some id.val) := by
  rcases h.sound with ⟨rfl, rfl⟩ | ⟨inference, definitions, calls, hsound, -⟩
  · refine ⟨#[], #[], [], [], rfl, rfl, rfl, rfl, rfl, rfl, fun _ a b => ?_, fun _ id hid => ?_⟩
    · refine iff_of_false ?_ ?_
      · rw [GraphBuilder.has_add_empty]
        exact List.not_mem_nil
      · rintro ⟨pair, ⟨state, hstate, -⟩, -⟩
        cases hstate
    · exact absurd hid (Nat.not_lt_zero _)
  · obtain ⟨definitionBatches, callBatches, hshutdown, hread, hread'⟩ := hsound.shutdown world
    obtain ⟨catalogue, stream, hstate, hlists, -⟩ := hsound.announced
    refine ⟨definitionBatches, callBatches, definitions.map Definition.readBack, calls, hshutdown,
      hread, hread', ?_, hsound.recorded.stats_eq.symm, hlists.missing_add hsound.calls_within,
      fun hdeep a b => ?_, fun hpaths id hid => ?_⟩
    · rw [List.length_map, hsound.announced.stats_eq]
    · have htold := hsound.told (hsound.collects_eq.trans (decide_eq_true hdeep))
      simp only [htold.has_add, hsound.knows_iff]
    · rw [hsound.announced.size_eq] at hid
      refine hlists.globals_add (fun name name' hname hname' => ?_) hid
      exact hpaths name name' ⟨_, hstate, hname⟩ ⟨_, hstate, hname'⟩

/-- A function that calls itself, handing over another one each time. -/
theorem Run.merge_shutdown_recursive :
    let settings : Settings := ⟨2, false, none, "", 256, by decide, 0⟩
    let world : World := ⟨⟨[], []⟩, [], fun _ => none, 0, ""⟩
    let frame : Frame := ⟨⟨1, 0⟩, [.callable ⟨7, 0⟩]⟩
    let id : FunctionId := ⟨0, by decide⟩
    let created := (capturing settings).create (.withoutSource "/a.js")
      ⟨1, some 0, none, none, 9, "f\t"⟩ false world
    let entered := ((created.2.1.enter (some id) [frame] world).1.enter (some id)
      [frame, frame] world).1
    Run settings entered [id] ∧
      ∃ (definitionBatches callBatches : Array Bytes) (definitions : List Definition)
        (calls : List Call),
        (entered.shutdown world).1 =
            (some (.capture definitionBatches), some (.capture callBatches)) ∧
          Trace.read definitionBatches.toList.flatten = .ok (definitions.map .definition) ∧
          Trace.read callBatches.toList.flatten = .ok (calls.map .call) ∧
          (GraphBuilder.empty.add definitions calls).2.missing = 0 ∧
          (GraphBuilder.empty.add definitions calls).2.graph.edges.Has 0 0 := by
  intro settings world frame id created entered
  have hscope : Scope.contains ⟨false⟩ "/a.js" = true := by decide +kernel
  have hcreated : created.1 = some id ∧ ∃ stream, created.2.1.registry.state =
      some ⟨2, (Catalogue.empty ⟨false⟩).insert ("/a.js", 1) id, stream⟩ := by
    simp [created, id, create, capturing, withOutlets, Registry.register, Script.withoutSource,
      Registry.start, Registry.new, Registry.openOutlet, Registry.State.register,
      Registry.State.ofSettings, Catalogue.register, Catalogue.nameOf?, Catalogue.empty, settings,
      SettingsSource.resolve, hscope, Catalogue.id?, Catalogue.nextId?, FunctionId.limit,
      followRegistry, Registry.depth?, CallTracer.new, CallTracer.start]
  obtain ⟨hcreated, stream, hstate⟩ := hcreated
  have hnames : ∀ name, entered.registry.Registered name → name.1 = "/a.js" := by
    rintro name ⟨state, hsome, hname⟩
    obtain rfl := Option.some.inj (hstate.symm.trans hsome)
    rw [Catalogue.id?_insert] at hname
    split at hname
    · rename_i heq
      exact congrArg Prod.fst heq.symm
    · simp [Catalogue.empty, Catalogue.id?] at hname
  have huses : ∀ i ∈ some id, i ∈ [] ++ created.1.toList := by
    rw [hcreated]
    simp
  have hrun : Run settings entered ([] ++ created.1.toList ++ [] ++ []) :=
    .perform (.perform (.perform .start
      (show Operation.Uses [] (.create (.withoutSource "/a.js") _ false) from trivial) world)
      (show Operation.Uses _ (.enter (some id) [frame]) from huses) world)
      (show Operation.Uses _ (.enter (some id) [frame, frame]) from fun i hi =>
        List.mem_append_left _ (huses i hi)) world
  obtain ⟨definitionBatches, callBatches, definitions, calls, hshutdown, hread, hread', -, -,
    hmissing, hedges, hglobals⟩ := hrun.merge_shutdown world
  refine ⟨by simpa [hcreated] using hrun, definitionBatches, callBatches, definitions, calls,
    hshutdown, hread, hread', hmissing, ?_⟩
  obtain ⟨announced, hsound, hlt⟩ := @sound_create settings (.withoutSource "/a.js")
    Bool.false_ne_true ⟨1, some 0, none, none, 9, "f\t"⟩ false world
  have hid : ∀ i ∈ some id, i.val < announced.length := hcreated ▸ hlt
  have hsize : id.val < entered.registry.size := by
    have hregistry : entered.registry = created.2.1.registry := rfl
    rw [hregistry, Registry.size, hstate, Option.map_some, Option.getD_some,
      Catalogue.size_insert (by simp [Catalogue.empty, Catalogue.id?])]
    exact Nat.succ_pos _
  have hknows : entered.calls.Knows (id, id) := by
    refine (((hsound.enter hid [frame] world).enter hid [frame, frame] world).knows_iff _).2 ?_
    have hcollects : (Inference.new settings.stackDepth).collects = true := by decide
    simp only [Inference.enter, hcollects, if_true, Inference.enterStack_collects]
    refine (Inference.mem_enterStack_known ..).2 (.inr ⟨List.mem_append_right _ ?_, rfl⟩)
    simp [Inference.caller?, Inference.track]
  have hglobal := hglobals (fun name name' hname hname' _ =>
    (hnames name hname).trans (hnames name' hname').symm) id hsize
  exact (hedges (by decide) 0 0).2 ⟨(id, id), hknows, hglobal, hglobal⟩

end Tracer

end CallTrace
