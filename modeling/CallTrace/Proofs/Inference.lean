import CallTrace.Inference

/-!
# What an inference tells and learns

An entry tells the callers of the function that is entered (`Inference.enterStack_cons`): the one
that handed it over, and the nearest one below. What it hands over is what its top frame was given,
whatever was pending before (`Inference.enterStack_pending`). `Inference.Told inference calls`: the
calls are the pairs that are known, which every entry keeps so (`Told.enter`). What is known stays
among the ids that were given (`Inference.Within`).
-/

namespace CallTrace

/-- The call names a function, and those that it names are of a kind. -/
def Call.Within (P : FunctionId → Prop) (call : Call) : Prop :=
  (call.caller.isSome ∨ call.callee.isSome) ∧
    (∀ id ∈ call.caller, P id) ∧ ∀ id ∈ call.callee, P id

theorem Call.within_edge {P : FunctionId → Prop} {caller callee : FunctionId} {clock : Int64}
    (hcaller : P caller) (hcallee : P callee) :
    Call.Within P ⟨some caller, some callee, clock⟩ :=
  ⟨.inl rfl, fun _ hid => Option.some.inj hid ▸ hcaller,
    fun _ hid => Option.some.inj hid ▸ hcallee⟩

theorem Call.Within.mono {P Q : FunctionId → Prop} {call : Call} (h : call.Within P)
    (hPQ : ∀ id, P id → Q id) : call.Within Q :=
  ⟨h.1, fun id hid => hPQ id (h.2.1 id hid), fun id hid => hPQ id (h.2.2 id hid)⟩

namespace Inference

variable {state : Inference} {calls : List Call} {caller callee : FunctionId} {clock : Int64}

/-! ## Telling -/

/-- Tells a function with several callers. -/
def tellAll (state : Inference) (callee : FunctionId) (clock : Int64) :
    List FunctionId → Inference × List Call
  | [] => (state, [])
  | caller :: rest =>
    match state.tell caller callee clock with
    | (state, calls) =>
      match state.tellAll callee clock rest with
      | (state, more) => (state, calls ++ more)

theorem tell_eq (state : Inference) (caller callee : FunctionId) (clock : Int64) :
    (state.tell caller callee clock).1 =
        { state with known := (state.tell caller callee clock).1.known } ∧
      (∀ pair, pair ∈ (state.tell caller callee clock).1.known ↔
        pair ∈ state.known ∨ pair = (caller, callee)) ∧
      (state.tell caller callee clock).2 =
        if (caller, callee) ∈ state.known then [] else [⟨some caller, some callee, clock⟩] := by
  unfold tell
  by_cases h : (caller, callee) ∈ state.known
  · have hc : state.known.contains (caller, callee) = true := h
    rw [if_pos hc, if_pos h]
    refine ⟨rfl, fun pair => ⟨.inl, ?_⟩, rfl⟩
    rintro (hp | rfl)
    · exact hp
    · exact h
  · have hc : ¬state.known.contains (caller, callee) = true := h
    rw [if_neg hc, if_neg h]
    refine ⟨rfl, fun pair => ?_, rfl⟩
    rw [Std.HashSet.mem_insert, beq_iff_eq, or_comm, @eq_comm _ pair]

/-- The calls are the pairs that are known. -/
structure Told (inference : Inference) (calls : List Call) : Prop where
  known_of_mem : ∀ call ∈ calls, ∃ pair ∈ inference.known, call.edge = (some pair.1, some pair.2)
  mem_of_known : ∀ pair ∈ inference.known, ∃ call ∈ calls, call.edge = (some pair.1, some pair.2)

theorem Told.congr {state' : Inference} (hknown : state'.known = state.known)
    (h : state.Told calls) : state'.Told calls :=
  ⟨hknown ▸ h.known_of_mem, hknown ▸ h.mem_of_known⟩

/-- All calls told have both ends. -/
theorem Told.isSome_ends (h : state.Told calls) :
    ∀ call ∈ calls, call.caller.isSome ∧ call.callee.isSome := by
  intro call hcall
  obtain ⟨pair, -, hedge⟩ := h.known_of_mem call hcall
  obtain ⟨hcaller, hcallee⟩ := Prod.mk.inj hedge
  exact ⟨hcaller ▸ rfl, hcallee ▸ rfl⟩

/-- What holds of the ends of some call told holds of some known pair. -/
theorem Told.exists_call_iff (h : state.Told calls)
    (p : Option FunctionId → Option FunctionId → Prop) :
    (∃ call ∈ calls, p call.caller call.callee) ↔
      ∃ pair ∈ state.known, p (some pair.1) (some pair.2) := by
  constructor
  · rintro ⟨call, hcall, hp⟩
    obtain ⟨pair, hpair, hedge⟩ := h.known_of_mem call hcall
    obtain ⟨hcaller, hcallee⟩ := Prod.mk.inj hedge
    rw [hcaller, hcallee] at hp
    exact ⟨pair, hpair, hp⟩
  · rintro ⟨pair, hpair, hp⟩
    obtain ⟨call, hcall, hedge⟩ := h.mem_of_known pair hpair
    obtain ⟨hcaller, hcallee⟩ := Prod.mk.inj hedge
    rw [← hcaller, ← hcallee] at hp
    exact ⟨call, hcall, hp⟩

/-- A pair is known when it was told. -/
theorem Told.mem_known_iff (h : state.Told calls) (caller callee : FunctionId) :
    (caller, callee) ∈ state.known ↔ ∃ call ∈ calls, call.edge = (some caller, some callee) := by
  have hcall := h.exists_call_iff fun a b => (a, b) = (some caller, some callee)
  refine Iff.trans ?_ hcall.symm
  constructor
  · exact fun hpair => ⟨(caller, callee), hpair, rfl⟩
  · rintro ⟨pair, hpair, heq⟩
    obtain ⟨rfl, rfl⟩ : pair.1 = caller ∧ pair.2 = callee := by simpa using heq
    exact hpair

theorem Told.tell (h : state.Told calls) (caller callee : FunctionId) (clock : Int64) :
    (state.tell caller callee clock).1.Told (calls ++ (state.tell caller callee clock).2) := by
  obtain ⟨-, hknown, hcalls⟩ := tell_eq state caller callee clock
  refine ⟨fun call hcall => ?_, fun pair hpair => ?_⟩
  · rcases List.mem_append.1 hcall with hcall | hcall
    · obtain ⟨pair, hpair, hedge⟩ := h.known_of_mem call hcall
      exact ⟨pair, (hknown pair).2 (.inl hpair), hedge⟩
    · rw [hcalls] at hcall
      split at hcall
      · cases hcall
      · obtain rfl := List.mem_singleton.1 hcall
        exact ⟨(caller, callee), (hknown _).2 (.inr rfl), rfl⟩
  · by_cases hold : pair ∈ state.known
    · obtain ⟨call, hcall, hedge⟩ := h.mem_of_known pair hold
      exact ⟨call, List.mem_append_left _ hcall, hedge⟩
    · obtain rfl := ((hknown pair).1 hpair).resolve_left hold
      rw [hcalls, if_neg hold]
      exact ⟨_, List.mem_append_right _ (List.mem_singleton_self _), rfl⟩

theorem tellAll_eq (state : Inference) (callee : FunctionId) (clock : Int64)
    (callers : List FunctionId) :
    (state.tellAll callee clock callers).1 =
        { state with known := (state.tellAll callee clock callers).1.known } ∧
      ∀ pair, pair ∈ (state.tellAll callee clock callers).1.known ↔
        pair ∈ state.known ∨ pair.1 ∈ callers ∧ pair.2 = callee := by
  induction callers generalizing state with
  | nil => exact ⟨rfl, fun pair => by simp [tellAll]⟩
  | cons caller rest ih =>
    obtain ⟨hstate, hknown, -⟩ := tell_eq state caller callee clock
    obtain ⟨hstate', hknown'⟩ := ih (state.tell caller callee clock).1
    simp only [tellAll]
    refine ⟨?_, fun pair => ?_⟩
    · rw [hstate', hstate]
    · rw [hknown', hknown, List.mem_cons, Prod.ext_iff, or_assoc, or_and_right]

section

variable (state : Inference) (callee : FunctionId) (clock : Int64) (callers : List FunctionId)

theorem tellAll_collects : (state.tellAll callee clock callers).1.collects = state.collects := by
  rw [(tellAll_eq state callee clock callers).1]

theorem tellAll_tracked : (state.tellAll callee clock callers).1.tracked = state.tracked := by
  rw [(tellAll_eq state callee clock callers).1]

theorem tellAll_registrants :
    (state.tellAll callee clock callers).1.registrants = state.registrants := by
  rw [(tellAll_eq state callee clock callers).1]

theorem tellAll_pending : (state.tellAll callee clock callers).1.pending = state.pending := by
  rw [(tellAll_eq state callee clock callers).1]

end

/-! ## Entries -/

/-- Who calls the function of the top frame: the one that handed it over, and the nearest one
below. -/
def callers (state : Inference) (callee : FunctionId) (top : Frame) (below : List Frame) :
    List FunctionId :=
  state.registrants[top.key]?.toList ++ ((state.track top.key callee).caller? below).toList

/-- Nothing is pending from earlier entries. -/
theorem meetTop_pending (state : Inference) (callee : FunctionId) (top : Frame) :
    (state.meetTop callee top).pending = top.callables :=
  List.nil_append _

theorem enterStack_cons (state : Inference) (callee : FunctionId) (clock : Int64) (top : Frame)
    (below : List Frame) :
    state.enterStack callee clock (top :: below) =
      (((state.track top.key callee).caller? below).elim
          ((state.meetTop callee top).tellAll callee clock (state.callers callee top below)).1
          ((state.meetTop callee top).tellAll callee clock
            (state.callers callee top below)).1.handOver,
        ((state.meetTop callee top).tellAll callee clock (state.callers callee top below)).2) := by
  have hregistrants : (state.meetTop callee top).registrants = state.registrants := rfl
  have hcaller : (state.meetTop callee top).caller? below =
      (state.track top.key callee).caller? below := rfl
  unfold enterStack callers
  cases hr : state.registrants[top.key]? <;>
    cases hc : (state.track top.key callee).caller? below <;>
    simp [hregistrants, hcaller, hr, hc, tellAll]

theorem getElem?_handOver (state : Inference) (registrant : FunctionId) (key : FunctionKey) :
    (state.handOver registrant).registrants[key]? =
      if key ∈ state.pending then some registrant else state.registrants[key]? := by
  obtain ⟨collects, known, tracked, registrants, pending⟩ := state
  unfold handOver
  induction pending generalizing registrants with
  | nil => rfl
  | cons first rest ih =>
    simp only [List.foldl_cons] at ih ⊢
    rw [ih, Std.HashMap.getElem?_insert]
    by_cases hrest : key ∈ rest
    · simp [hrest]
    · by_cases hfirst : first = key
      · simp [hfirst]
      · simp [hrest, hfirst, Ne.symm hfirst]

section

variable (state : Inference) (callee : FunctionId) (clock : Int64) (top : Frame)
  (below : List Frame)

@[simp] theorem enterStack_collects (stack : List Frame) :
    (state.enterStack callee clock stack).1.collects = state.collects := by
  cases stack with
  | nil => rfl
  | cons top below =>
    rw [enterStack_cons]
    cases (state.track top.key callee).caller? below with
    | none => exact tellAll_collects ..
    | some caller => exact tellAll_collects ..

/-- **After an entry, what its top frame was given is pending,** whatever was pending before. -/
theorem enterStack_pending :
    (state.enterStack callee clock (top :: below)).1.pending = top.callables := by
  rw [enterStack_cons, ← meetTop_pending state callee top]
  cases (state.track top.key callee).caller? below with
  | none => exact tellAll_pending ..
  | some caller => exact tellAll_pending ..

theorem enterStack_tracked :
    (state.enterStack callee clock (top :: below)).1.tracked =
      state.tracked.insert top.key callee := by
  rw [enterStack_cons]
  cases (state.track top.key callee).caller? below with
  | none => exact tellAll_tracked ..
  | some caller => exact tellAll_tracked ..

theorem getElem?_enterStack_registrants (key : FunctionKey) :
    (state.enterStack callee clock (top :: below)).1.registrants[key]? =
      if key ∈ top.callables then
        ((state.track top.key callee).caller? below).or state.registrants[key]?
      else state.registrants[key]? := by
  rw [enterStack_cons]
  cases (state.track top.key callee).caller? below with
  | none =>
    simp only [Option.elim_none, tellAll_registrants, Option.none_or, ite_self]
    rfl
  | some caller =>
    simp only [Option.elim_some, getElem?_handOver, Option.some_or, tellAll_registrants,
      tellAll_pending]
    rfl

/-- The pairs that an entry makes known are those of the callers with the function entered. -/
theorem mem_enterStack_known (pair : FunctionId × FunctionId) :
    pair ∈ (state.enterStack callee clock (top :: below)).1.known ↔
      pair ∈ state.known ∨ pair.1 ∈ state.callers callee top below ∧ pair.2 = callee := by
  have hknown := (tellAll_eq (state.meetTop callee top) callee clock
    (state.callers callee top below)).2 pair
  rw [enterStack_cons]
  cases (state.track top.key callee).caller? below with
  | none => exact hknown
  | some caller => exact hknown

end

section

variable (P : Inference → List Call → Prop)

/-- What each telling keeps, several tellings keep. -/
theorem tellAll_induction
    (htell : ∀ {state : Inference} {calls : List Call} (caller callee : FunctionId) (clock : Int64),
      P state calls →
        P (state.tell caller callee clock).1 (calls ++ (state.tell caller callee clock).2))
    (h : P state calls) (callee : FunctionId) (clock : Int64) (callers : List FunctionId) :
    P (state.tellAll callee clock callers).1
      (calls ++ (state.tellAll callee clock callers).2) := by
  induction callers generalizing state calls with
  | nil => simpa [tellAll] using h
  | cons caller rest ih =>
    simp only [tellAll]
    rw [← List.append_assoc]
    exact ih (htell caller callee clock h)

/-- Where stacks are collected, an entry keeps of the known pairs and the calls told so far what
each telling keeps. -/
theorem enter_induction
    (hknown : ∀ {state state' : Inference} {calls : List Call}, state'.known = state.known →
      P state calls → P state' calls)
    (htell : ∀ {state : Inference} {calls : List Call} (caller callee : FunctionId) (clock : Int64),
      P state calls →
        P (state.tell caller callee clock).1 (calls ++ (state.tell caller callee clock).2))
    (hcollects : state.collects = true) (h : P state calls) (callee : Option FunctionId)
    (stack : List Frame) (clock : Int64) :
    P (state.enter callee stack clock).1 (calls ++ (state.enter callee stack clock).2) := by
  cases callee with
  | none => simpa [enter] using h
  | some callee =>
    simp only [enter, hcollects, if_true]
    cases stack with
    | nil =>
      rw [enterStack, List.append_nil]
      refine hknown ?_ h
      rfl
    | cons top below =>
      have hmet : P (state.meetTop callee top) calls := by
        refine hknown ?_ h
        rfl
      have htold := tellAll_induction P htell hmet callee clock (state.callers callee top below)
      rw [enterStack_cons]
      cases (state.track top.key callee).caller? below with
      | none => exact htold
      | some caller =>
        refine hknown ?_ htold
        rfl

end

@[simp] theorem enter_collects (state : Inference) (callee : Option FunctionId)
    (stack : List Frame) (clock : Int64) :
    (state.enter callee stack clock).1.collects = state.collects := by
  cases callee with
  | none => rfl
  | some id =>
    unfold enter
    dsimp only
    split
    · exact enterStack_collects ..
    · rfl

/-- **Where stacks are collected, the calls told are the pairs that are known.** -/
theorem Told.enter (h : state.Told calls) (hcollects : state.collects = true)
    (callee : Option FunctionId) (stack : List Frame) (clock : Int64) :
    (state.enter callee stack clock).1.Told (calls ++ (state.enter callee stack clock).2) :=
  enter_induction Told (fun hknown h => h.congr hknown)
    (fun caller callee clock h => h.tell caller callee clock) hcollects h callee stack clock

theorem exit_of_collects (hcollects : state.collects = true) (callee : Option FunctionId)
    (clock : Int64) : state.exit callee clock = [] := by
  cases callee with
  | none => rfl
  | some id => simp [exit, hcollects]

theorem Told.forget (h : state.Told calls) (key : FunctionKey) :
    (state.forget key).2.Told calls := by
  refine h.congr ?_
  rfl

theorem told_new (depth : UInt32) : (new depth).Told [] :=
  ⟨fun call hcall => absurd hcall List.not_mem_nil, fun pair hpair => by simp [new] at hpair⟩

/-! ## Known ids -/

/-- All ids that the inference holds are of a kind. -/
structure Within (P : FunctionId → Prop) (inference : Inference) : Prop where
  known : ∀ pair ∈ inference.known, P pair.1 ∧ P pair.2
  tracked : ∀ {key : FunctionKey} {id}, inference.tracked[key]? = some id → P id
  registrants : ∀ {key : FunctionKey} {id}, inference.registrants[key]? = some id → P id

theorem within_new (P : FunctionId → Prop) (depth : UInt32) : (new depth).Within P :=
  ⟨fun pair hpair => by simp [new] at hpair, fun hid => by simp [new] at hid,
    fun hid => by simp [new] at hid⟩

theorem mem_tellAll {state : Inference} {callers : List FunctionId} {call : Call}
    (hcall : call ∈ (state.tellAll callee clock callers).2) :
    ∃ caller ∈ callers, call = ⟨some caller, some callee, clock⟩ := by
  induction callers generalizing state with
  | nil => cases hcall
  | cons caller rest ih =>
    change call ∈ (state.tell caller callee clock).2 ++ _ at hcall
    rcases List.mem_append.1 hcall with hcall | hcall
    · rw [(tell_eq state caller callee clock).2.2] at hcall
      split at hcall
      · cases hcall
      · exact ⟨caller, List.mem_cons_self, List.mem_singleton.1 hcall⟩
    · obtain ⟨other, hother, rfl⟩ := ih hcall
      exact ⟨other, List.mem_cons_of_mem _ hother, rfl⟩

namespace Within

variable {P Q : FunctionId → Prop}

theorem mono (h : state.Within P) (hPQ : ∀ id, P id → Q id) : state.Within Q :=
  ⟨fun pair hpair => (h.known pair hpair).imp (hPQ _) (hPQ _), fun hid => hPQ _ (h.tracked hid),
    fun hid => hPQ _ (h.registrants hid)⟩

theorem track (h : state.Within P) (key : FunctionKey) (hcallee : P callee) :
    (state.track key callee).Within P := by
  refine ⟨h.known, fun {key' id} hid => ?_, h.registrants⟩
  simp only [Inference.track, Std.HashMap.getElem?_insert] at hid
  split at hid
  · exact Option.some.inj hid ▸ hcallee
  · exact h.tracked hid

theorem caller? (h : state.Within P) {frames : List Frame}
    (hcaller : state.caller? frames = some caller) : P caller := by
  obtain ⟨frame, -, hid⟩ := List.exists_of_findSome?_eq_some hcaller
  exact h.tracked hid

theorem callers (h : state.Within P) (hcallee : P callee) {top : Frame} {below : List Frame} :
    ∀ id ∈ state.callers callee top below, P id := by
  intro id hid
  rcases List.mem_append.1 hid with hid | hid
  · exact h.registrants (Option.mem_toList.1 hid)
  · exact (h.track top.key hcallee).caller? (Option.mem_toList.1 hid)

theorem enterStack (h : state.Within P) (hcallee : P callee) (stack : List Frame) :
    (state.enterStack callee clock stack).1.Within P := by
  cases stack with
  | nil => exact ⟨h.known, h.tracked, h.registrants⟩
  | cons top below =>
    refine ⟨fun pair hpair => ?_, fun hid => ?_, fun hid => ?_⟩
    · rcases (mem_enterStack_known ..).1 hpair with hpair | ⟨hcaller, hpair⟩
      · exact h.known pair hpair
      · exact ⟨h.callers hcallee _ hcaller, hpair ▸ hcallee⟩
    · rw [enterStack_tracked] at hid
      exact (h.track top.key hcallee).tracked hid
    · rw [getElem?_enterStack_registrants] at hid
      split at hid
      · rcases Option.or_eq_some_iff.1 hid with hid | ⟨-, hid⟩
        · exact (h.track top.key hcallee).caller? hid
        · exact h.registrants hid
      · exact h.registrants hid

theorem enter (h : state.Within P) {callee : Option FunctionId} (hcallee : ∀ id ∈ callee, P id)
    (stack : List Frame) (clock : Int64) : (state.enter callee stack clock).1.Within P := by
  cases callee with
  | none => exact h
  | some id =>
    unfold Inference.enter
    dsimp only
    split
    · exact h.enterStack (hcallee id rfl) stack
    · exact h

/-- An entry tells only of ids that are known or given. -/
theorem calls_enter (h : state.Within P) {callee : Option FunctionId}
    (hcallee : ∀ id ∈ callee, P id) {stack : List Frame} {clock : Int64} :
    ∀ call ∈ (state.enter callee stack clock).2, call.Within P := by
  intro call hcall
  cases callee with
  | none => cases hcall
  | some id =>
    unfold Inference.enter at hcall
    dsimp only at hcall
    split at hcall
    · cases stack with
      | nil => cases hcall
      | cons top below =>
        rw [enterStack_cons] at hcall
        obtain ⟨caller, hcaller, rfl⟩ := mem_tellAll hcall
        exact Call.within_edge (h.callers (hcallee id rfl) caller hcaller) (hcallee id rfl)
    · obtain rfl := List.mem_singleton.1 hcall
      exact ⟨.inr rfl, fun _ hid => (by cases hid), hcallee⟩

theorem calls_exit {callee : Option FunctionId} (hcallee : ∀ id ∈ callee, P id) :
    ∀ call ∈ state.exit callee clock, call.Within P := by
  intro call hcall
  cases callee with
  | none => cases hcall
  | some id =>
    unfold Inference.exit at hcall
    dsimp only at hcall
    split at hcall
    · cases hcall
    · obtain rfl := List.mem_singleton.1 hcall
      exact ⟨.inl rfl, hcallee, fun _ hid => by cases hid⟩

theorem forget (h : state.Within P) (key : FunctionKey) : (state.forget key).2.Within P := by
  refine ⟨h.known, fun hid => ?_, fun hid => ?_⟩
  · rw [Inference.forget, Std.HashMap.getElem?_erase] at hid
    split at hid
    · cases hid
    · exact h.tracked hid
  · rw [Inference.forget, Std.HashMap.getElem?_erase] at hid
    split at hid
    · cases hid
    · exact h.registrants hid

end Within

end Inference

end CallTrace
