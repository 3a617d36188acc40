import CallTrace.Proofs.Registry.Operation

/-!
# A registry gives every function one id

The functions that are traced in a run are numbered in the order in which they were first
registered, and a registration is given the number of its function, however often it comes
(`Registry.gave_iff`, `Registry.id_by_history`). On a capturing outlet the registry announces each
of them as it was first registered, in the order of the ids (`Registry.announced_by_history`).
-/

namespace CallTrace.Registry

open Registration

variable {source : SettingsSource} {override : Option Outlet} {steps earlier : List Step}

/-! ## Numbers -/

theorem nodup_firstsIn (source : SettingsSource) (steps : List Step) :
    ((firstsIn source steps).map name).Nodup := by
  induction steps with
  | nil => exact List.nodup_nil
  | cons step earlier ih => exact nodup_addFirst ih _

/-- Functions that have come up keep their numbers. -/
theorem prefix_firstsIn (source : SettingsSource) (h : earlier <:+ steps) :
    firstsIn source earlier <+: firstsIn source steps := by
  obtain ⟨later, rfl⟩ := h
  induction later with
  | nil => exact List.prefix_rfl
  | cons step rest ih => exact ih.trans (prefix_addFirst _ _)

/-- In a run that starts with `origin`, a registration of the function was given the id. -/
def Gave (origin : Registry) (steps : List Step) (n : FunctionName) (id : FunctionId) : Prop :=
  ∃ earlier script literal isConstructor world,
    ⟨.register script literal isConstructor, world⟩ :: earlier <:+ steps ∧
      script.name = some n.1 ∧ literal.id = n.2 ∧
      ((origin.after earlier).perform ⟨.register script literal isConstructor, world⟩).id = some id

/-- **The id of a function is its number** among the functions that have come up. -/
theorem gave_iff {n : FunctionName} {id : FunctionId} :
    (new source override).Gave steps n id ↔
      ((firstsIn source steps).map name)[id.val]? = some n := by
  constructor
  · rintro ⟨earlier, script, literal, isConstructor, world, hsuffix, hpath, hliteral, hid⟩
    obtain ⟨r, hr, hget⟩ :=
      (((Reached.after source override earlier).perform _).2 _ _ _ rfl id).1 hid
    obtain ⟨path, hpath', -, -, rfl⟩ := traced?_eq_some.1 hr
    obtain rfl : path = n.1 := Option.some.inj (hpath'.symm.trans hpath)
    have hlt := (List.getElem?_eq_some_iff.1 hget).1
    rw [List.length_map] at hlt
    rw [getElem?_names_of_isPrefix (prefix_firstsIn source hsuffix) hlt, hget]
    exact congrArg some (Prod.ext rfl hliteral)
  · intro hget
    induction steps with
    | nil => simp [firstsIn] at hget
    | cons step earlier ih =>
      by_cases hold : ((firstsIn source earlier).map name)[id.val]? = some n
      · obtain ⟨first, script, literal, isConstructor, world, hsuffix, hgave⟩ := ih hold
        exact ⟨first, script, literal, isConstructor, world,
          hsuffix.trans (List.suffix_cons _ _), hgave⟩
      · -- the function is that of the latest step, which was given its number
        obtain ⟨r, hr, rfl⟩ := exists_of_getElem?_addFirst hget hold
        obtain ⟨operation, world⟩ := step
        cases operation with
        | register script literal isConstructor =>
          have hid := ((Reached.after source override earlier).perform
            ⟨.register script literal isConstructor, world⟩).2 _ _ _ rfl id
          obtain ⟨path, hpath, -, -, heq⟩ := traced?_eq_some.1 hr
          refine ⟨earlier, script, literal, isConstructor, world, List.suffix_rfl, ?_, ?_,
            hid.2 ⟨r, hr, hget⟩⟩
          · rw [hpath, ← heq]
            rfl
          · rw [← heq]
            rfl
        | lookup script literal => cases hr
        | start => cases hr
        | flush => cases hr

namespace Reached

variable {registry : Registry} {script : Script} {literal : Literal} {isConstructor : Bool}
  {world : World}

/-- As long as there are ids, a traced function gets one. -/
theorem id_eq_none_iff (h : Reached source override earlier registry)
    (hfew : (firstsIn source earlier).length < FunctionId.limit) :
    let step : Step := ⟨.register script literal isConstructor, world⟩
    (registry.perform step).id = none ↔
      step.operation.registration? (scopeIn source (step :: earlier)) world.clock = none := by
  intro step
  have hid := (h.perform step).2 _ _ _ rfl
  constructor
  · intro hnone
    cases hr : step.operation.registration? (scopeIn source (step :: earlier)) world.clock with
    | none => rfl
    | some r =>
      obtain ⟨i, hi⟩ := List.mem_iff_getElem?.1 (mem_addFirst (firstsIn source earlier) r)
      have hlt : i < FunctionId.limit := by
        have hi' := (List.getElem?_eq_some_iff.1 hi).1
        have hle := length_addFirst_le (firstsIn source earlier) (some r)
        rw [List.length_map] at hi'
        omega
      have hsome := (hid ⟨i, hlt⟩).2 ⟨r, hr, by rwa [firstsIn, hr]⟩
      rw [hnone] at hsome
      cases hsome
  · intro hnone
    refine Option.eq_none_iff_forall_ne_some.2 fun id hsome => ?_
    obtain ⟨r, hr, -⟩ := (hid id).1 hsome
    rw [hnone] at hr
    cases hr

/-- A new function gets the number of those before it. -/
theorem val_of_new (h : Reached source override earlier registry) {path : String}
    (hpath : path ∈ script.name)
    (hnew : (path, literal.id) ∉ (firstsIn source earlier).map Registration.name) {id : FunctionId}
    (hid : id ∈ (registry.perform ⟨.register script literal isConstructor, world⟩).id) :
    id.val = ((firstsIn source earlier).map Registration.name).length := by
  obtain ⟨r, hr, hget⟩ := ((h.perform _).2 _ _ _ rfl id).1 hid
  obtain ⟨path', hpath', -, -, heq⟩ := traced?_eq_some.1 hr
  obtain rfl : path' = path := Option.some.inj (hpath'.symm.trans hpath)
  have hname : r.name = (path', literal.id) := by
    rw [← heq]
    rfl
  rw [← hname] at hnew
  rw [firstsIn, hr, addFirst_some_of_not_mem hnew, getElem?_names_concat hnew] at hget
  rw [hget, List.length_map]

end Reached

/-- **A registry gives every function one id.** As long as there are ids, the functions that are
traced in a run correspond to the ids below their number, in the order in which they first came up:
that is what registrations were given, it is how many functions and records there are, and it is the
id of the next new one. A registration is given none if and only if its script has no name or is
not in scope, or it is the body of its script. -/
theorem id_by_history (source : SettingsSource) (override : Option Outlet) (steps : List Step)
    (hfew : (firstsIn source steps).length < FunctionId.limit) :
    let origin := new source override
    let registry := origin.after steps
    let names := (firstsIn source steps).map Registration.name
    names.Nodup ∧ registry.size = names.length ∧ registry.stats.records = names.length ∧
      (∀ n id, origin.Gave steps n id ↔ names[id.val]? = some n) ∧
      ∀ script literal isConstructor world,
        let step : Step := ⟨.register script literal isConstructor, world⟩
        let id := (registry.perform step).id
        (id = none ↔ script.name = none ∨
          (∃ path ∈ script.name, (scopeIn source (step :: steps)).contains path = false) ∨
          literal.id = 0) ∧
        ∀ path ∈ script.name, (path, literal.id) ∉ names → ∀ i ∈ id, i.val = registry.size := by
  intro origin registry names
  have hreached : Reached source override steps registry := Reached.after ..
  have hsize := hreached.size_eq
  rw [length_definitions, Nat.min_eq_left (Nat.le_of_lt hfew), ← List.length_map name] at hsize
  refine ⟨nodup_firstsIn source steps, hsize.1, hsize.2, fun n id => gave_iff,
    fun script literal isConstructor world => ⟨?_, fun path hpath hnew i hi => ?_⟩⟩
  · exact (hreached.id_eq_none_iff hfew).trans (traced?_eq_none)
  · rw [hsize.1]
    exact hreached.val_of_new hpath hnew hi

/-- Two scripts with literals of one number, one of them registered again, and a script of the
runtime that is left out although everything is asked for later. -/
theorem id_by_history_asked_for_later :
    let world : Option String → World := fun everything =>
      ⟨⟨[], []⟩, [], fun key => if key = "TRACE_ALL" then everything else none, 0, ""⟩
    let register : String → String → Bool → Operation := fun path text isConstructor =>
      .register (.named path []) ⟨2, none, none, some 7, 9, text⟩ isConstructor
    let steps : List Step := [
      ⟨register "node:fs" "open" false, world (some "1")⟩,
      ⟨register "/a.js" "g" true, world (some "1")⟩,
      ⟨.flush, world none⟩,
      ⟨register "/b.js" "f" false, world none⟩,
      ⟨register "/a.js" "f" false, world none⟩,
      ⟨register "node:fs" "open" false, world none⟩]
    let origin := new .environment none
    (firstsIn .environment steps).length < FunctionId.limit ∧
      (origin.after steps).size = 2 ∧ (origin.after steps).stats.records = 2 ∧
      origin.Gave steps ("/b.js", 2) ⟨1, by decide⟩ ∧
      ((origin.after steps).perform ⟨register "node:fs" "open" false, world none⟩).id = none := by
  intro world register steps origin
  have hnames : (firstsIn .environment steps).map name = [("/a.js", 2), ("/b.js", 2)] := by
    decide +kernel
  have hlength : (firstsIn .environment steps).length = 2 := by
    rw [← List.length_map name, hnames]
    rfl
  have hfew : (firstsIn .environment steps).length < FunctionId.limit := by
    rw [hlength]
    decide
  obtain ⟨-, hsize, hrecords, hgave, hnext⟩ := id_by_history .environment none steps hfew
  rw [hnames] at hsize hrecords hgave
  refine ⟨hfew, hsize, hrecords, (hgave _ _).2 rfl, ?_⟩
  exact (hnext _ _ _ _).1.2 (.inr (.inl ⟨"node:fs", rfl, by decide +kernel⟩))

/-! ## Announcements -/

/-- A definition tells of the function with a number what was known when it was registered. -/
structure Describes (r : Registration) (number : Nat) (d : Definition) : Prop where
  id_eq : d.id.map FunctionId.val = some number
  fileIndex_eq : d.fileIndex = r.literal.id
  start_eq : d.positionStart =
    ((r.literal.tokenPosition.or r.literal.position).or r.literal.startPosition).getD (-1)
  stop_eq : d.positionEnd = r.literal.endPosition
  place_eq : (d.line, d.column) = if d.positionStart = -1 then (0, 0) else
    (r.script.locate d.positionStart).elim (0, 0) fun place => (place.line + 1, place.column + 1)
  name_eq : d.name = r.literal.name
  isConstructor_eq : d.isConstructor = r.isConstructor
  path_eq : d.path = r.path
  timestamp_eq : d.timestamp = r.clock

theorem describes_define (r : Registration) (id : FunctionId) :
    Describes r id.val (r.define id) where
  id_eq := rfl
  fileIndex_eq := rfl
  start_eq := rfl
  stop_eq := rfl
  place_eq := by
    change Catalogue.lineColumn r.script r.literal =
      if r.literal.origin = -1 then (0, 0) else
        (r.script.locate r.literal.origin).elim (0, 0) fun place =>
          (place.line + 1, place.column + 1)
    rw [Catalogue.lineColumn, noPosition]
    cases r.script.locate r.literal.origin <;> rfl
  name_eq := rfl
  isConstructor_eq := rfl
  path_eq := rfl
  timestamp_eq := rfl

/-- A definition is determined by the function that it tells of and its number. -/
theorem Describes.eq_define {r : Registration} {number : Nat} {d : Definition}
    (h : Describes r number d) (id : FunctionId) (hid : id.val = number) : d = r.define id := by
  obtain ⟨id', fileIndex, start, stop, line, column, text, isConstructor, path, timestamp⟩ := d
  obtain ⟨hid', rfl, rfl, rfl, hplace, rfl, rfl, rfl, rfl⟩ := h
  have hplace' := (describes_define r id).place_eq
  obtain ⟨rfl, rfl⟩ := Prod.mk.inj (hplace.trans hplace'.symm)
  obtain ⟨id', rfl, hval⟩ := Option.map_eq_some_iff.1 hid'
  obtain rfl := FunctionId.val_injective (hval.trans hid.symm)
  rfl

/-- At its end a registry that captures has delivered a definition for each function with an id. -/
theorem Reached.finish {registry : Registry}
    (h : Reached source (some (.capture #[])) steps registry) (world : World) :
    ∃ batches, registry.finish world = (some (.capture batches), world) ∧
      Trace.read batches.toList.flatten =
        .ok (((definitions (firstsIn source steps)).map Definition.readBack).map .definition) := by
  unfold Reached at h
  cases hsettings : settingsIn? source steps with
  | none =>
    rw [hsettings] at h
    obtain ⟨rfl, hnone⟩ := h
    rw [hnone]
    exact ⟨#[], rfl, rfl⟩
  | some settings =>
    rw [hsettings] at h
    obtain ⟨first, -, hcapturing, catalogue, stream, hstate, -, hlists, htook⟩ := h
    have hrecorded := htook.recorded (hcapturing rfl)
    rw [List.nil_append] at hrecorded
    exact Announced.finish ⟨catalogue, stream, hstate, hlists, hrecorded⟩ world

/-- **A registry announces every function once,** as it was first registered. In whatever sizes a
capturing registry delivers them, after its end one definition is read back for each function with
an id, in the order of the ids. -/
theorem announced_by_history (source : SettingsSource) (steps : List Step) (world : World) :
    let registry := (new source (some (.capture #[]))).after steps
    let firsts := firstsIn source steps
    ∃ (batches : Array Bytes) (announced : List Definition),
      registry.finish world = (some (.capture batches), world) ∧
        Trace.read batches.toList.flatten =
          .ok ((announced.map Definition.readBack).map .definition) ∧
        announced.length = registry.size ∧
        registry.size = min firsts.length FunctionId.limit ∧
        ∀ i d, announced[i]? = some d → ∃ r, firsts[i]? = some r ∧ Describes r i d := by
  intro registry firsts
  have hreached : Reached source (some (.capture #[])) steps registry := Reached.after ..
  obtain ⟨batches, hfinish, hread⟩ := hreached.finish world
  refine ⟨batches, definitions firsts, hfinish, hread, hreached.size_eq.1.symm, ?_,
    fun i d hd => ?_⟩
  · rw [hreached.size_eq.1, length_definitions]
  · obtain ⟨r, hlt, hr, rfl⟩ := getElem?_definitions.1 hd
    exact ⟨r, hr, describes_define r ⟨i, hlt⟩⟩

/-- A function is registered with a name like that of a constructor, and later again in another
form; one without a place follows. A buffer too small for a record is drained in between. -/
theorem announced_by_history_registered_again :
    let settings : Settings := ⟨2, false, none, "", 20, by decide, 0⟩
    let world : World := ⟨⟨[], []⟩, [], fun _ => none, 5, ""⟩
    let register : String → Literal → Operation := fun path literal =>
      .register ⟨some path, fun offset => some ⟨offset, 2⟩⟩ literal false
    let steps : List Step := [
      ⟨register "/b.js" ⟨3, none, none, none, 9, ""⟩, world⟩,
      ⟨.flush, world⟩,
      ⟨register "/a\t.js" ⟨3, none, none, some 0, 1, "g"⟩, { world with clock := 6 }⟩,
      ⟨register "/a\t.js" ⟨3, some 4, some 2, some 0, 9, "f\r.constructor"⟩, world⟩]
    ∃ batches, ((new (.fixed settings) (some (.capture #[]))).after steps).finish world =
        (some (.capture batches), world) ∧
      Trace.read batches.toList.flatten = .ok [
        .definition ⟨some ⟨0, by decide⟩, 3, 4, 9, 5, 3, "f ", true, "/a .js", 5⟩,
        .definition ⟨some ⟨1, by decide⟩, 3, -1, 9, 0, 0, "", false, "/b.js", 5⟩] := by
  intro settings world register steps
  obtain ⟨batches, announced, hfinish, hread, hlength, hsize, hdescribes⟩ :=
    announced_by_history (.fixed settings) steps world
  have hfirsts : (firstsIn (.fixed settings) steps).map (fun r => (r.path, r.literal,
      r.isConstructor, r.clock, Catalogue.lineColumn r.script r.literal)) = [
        ("/a\t.js", ⟨3, some 4, some 2, some 0, 9, "f\r.constructor"⟩, false, 5, (5, 3)),
        ("/b.js", ⟨3, none, none, none, 9, ""⟩, false, 5, (0, 0))] := by
    decide +kernel
  obtain ⟨⟨path, script, literal, isConstructor, clock⟩, rest, hcons, hr, hrest⟩ :=
    List.map_eq_cons_iff.1 hfirsts
  obtain ⟨⟨path', script', literal', isConstructor', clock'⟩, last, hcons', hr', hlast⟩ :=
    List.map_eq_cons_iff.1 hrest
  obtain rfl := List.map_eq_nil_iff.1 hlast
  simp only [Prod.mk.injEq] at hr hr'
  obtain ⟨rfl, rfl, rfl, rfl, hplace⟩ := hr
  obtain ⟨rfl, rfl, rfl, rfl, hplace'⟩ := hr'
  rw [hcons, hcons'] at hsize hdescribes
  obtain ⟨d, d', rfl⟩ := List.length_eq_two.1 (hlength.trans hsize)
  obtain ⟨_, ⟨⟩, hd⟩ := hdescribes 0 d rfl
  obtain ⟨_, ⟨⟩, hd'⟩ := hdescribes 1 d' rfl
  refine ⟨batches, hfinish, hread.trans ?_⟩
  rw [hd.eq_define ⟨0, by decide⟩ rfl, hd'.eq_define ⟨1, by decide⟩ rfl]
  simp only [define, Catalogue.define, hplace, hplace']
  decide +kernel

end CallTrace.Registry
