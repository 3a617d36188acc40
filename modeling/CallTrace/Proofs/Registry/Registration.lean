import CallTrace.Proofs.Catalogue
import Mathlib.Data.List.Induction

/-!
# First registrations

A traced function is known by its name, and what is announced of it is what its first registration
tells. So what a catalogue lists are the definitions of first registrations
(`Registration.definitions`): each has its position for an id as long as there are ids, and
registering a function puts it at the end if its name is new (`Catalogue.Lists.register_firsts`).
-/

namespace CallTrace

/-- A traced function as it is registered. -/
structure Registration where
  path : String
  script : Script
  literal : Literal
  isConstructor : Bool
  clock : Int64

namespace Registration

def name (r : Registration) : FunctionName :=
  (r.path, r.literal.id)

/-- What is announced if the function is given the id. -/
def define (r : Registration) (id : FunctionId) : Definition :=
  Catalogue.define id r.path r.script r.literal r.isConstructor r.clock

/-- The registration of a function that is traced: its script has a name and is in scope, and it is
not the body of the script. -/
def traced? (scope : Scope) (script : Script) (literal : Literal) (isConstructor : Bool)
    (clock : Int64) : Option Registration :=
  script.name.bind fun path =>
    if scope.contains path && literal.id != 0 then
      some ⟨path, script, literal, isConstructor, clock⟩
    else none

/-- With a registration at the end, if its name is new. -/
def addFirst (firsts : List Registration) : Option Registration → List Registration
  | none => firsts
  | some r => if r.name ∈ firsts.map name then firsts else firsts ++ [r]

/-- What is announced of functions that are given the first ids, as long as there are any. -/
def definitions (firsts : List Registration) : List Definition :=
  firsts.zipIdx.filterMap fun entry =>
    if h : entry.2 < FunctionId.limit then some (entry.1.define ⟨entry.2, h⟩) else none

section

variable {scope : Scope} {script : Script} {literal : Literal} {isConstructor : Bool}
  {clock : Int64}

theorem traced?_eq_some {r : Registration} :
    traced? scope script literal isConstructor clock = some r ↔
      ∃ path, script.name = some path ∧ scope.contains path = true ∧ literal.id ≠ 0 ∧
        ⟨path, script, literal, isConstructor, clock⟩ = r := by
  simp [traced?, Option.bind_eq_some_iff, and_assoc]

theorem traced?_eq_none :
    traced? scope script literal isConstructor clock = none ↔
      script.name = none ∨ (∃ path ∈ script.name, scope.contains path = false) ∨
        literal.id = 0 := by
  cases hname : script.name with
  | none => simp [traced?, hname]
  | some path => simp [traced?, hname, or_iff_not_imp_left]

theorem traced?_unnamed (h : script.name = none) :
    traced? scope script literal isConstructor clock = none := by
  rw [traced?, h, Option.bind_none]

end

/-! ## Lists of first registrations -/

variable {firsts : List Registration}

theorem addFirst_some_of_mem {r : Registration} (h : r.name ∈ firsts.map name) :
    addFirst firsts (some r) = firsts :=
  if_pos h

theorem addFirst_some_of_not_mem {r : Registration} (h : r.name ∉ firsts.map name) :
    addFirst firsts (some r) = firsts ++ [r] :=
  if_neg h

theorem prefix_addFirst (firsts : List Registration) (r? : Option Registration) :
    firsts <+: addFirst firsts r? := by
  cases r? with
  | none => exact List.prefix_rfl
  | some r =>
    by_cases hr : r.name ∈ firsts.map name
    · exact ⟨[], by rw [addFirst_some_of_mem hr, List.append_nil]⟩
    · exact ⟨[r], by rw [addFirst_some_of_not_mem hr]⟩

theorem nodup_addFirst (h : (firsts.map name).Nodup) (r? : Option Registration) :
    ((addFirst firsts r?).map name).Nodup := by
  cases r? with
  | none => exact h
  | some r =>
    by_cases hr : r.name ∈ firsts.map name
    · rwa [addFirst_some_of_mem hr]
    · rw [addFirst_some_of_not_mem hr, List.map_append, List.nodup_append]
      refine ⟨h, List.pairwise_singleton .., fun x hx y hy hxy => hr ?_⟩
      rw [List.mem_singleton.1 hy] at hxy
      exact hxy ▸ hx

theorem mem_addFirst (firsts : List Registration) (r : Registration) :
    r.name ∈ (addFirst firsts (some r)).map name := by
  by_cases hr : r.name ∈ firsts.map name
  · rwa [addFirst_some_of_mem hr]
  · rw [addFirst_some_of_not_mem hr, List.map_append]
    exact List.mem_append_right _ List.mem_cons_self

theorem length_addFirst_le (firsts : List Registration) (r? : Option Registration) :
    (addFirst firsts r?).length ≤ firsts.length + 1 := by
  cases r? with
  | none => exact Nat.le_succ _
  | some r =>
    by_cases hr : r.name ∈ firsts.map name
    · rw [addFirst_some_of_mem hr]
      exact Nat.le_succ _
    · rw [addFirst_some_of_not_mem hr]
      exact Nat.le_of_eq List.length_append

/-- A name that was not there is that of the registration. -/
theorem exists_of_getElem?_addFirst {r? : Option Registration} {n : FunctionName} {i : Nat}
    (h : ((addFirst firsts r?).map name)[i]? = some n) (hold : (firsts.map name)[i]? ≠ some n) :
    ∃ r ∈ r?, r.name = n := by
  cases r? with
  | none => exact absurd h hold
  | some r =>
    by_cases hr : r.name ∈ firsts.map name
    · rw [addFirst_some_of_mem hr] at h
      exact absurd h hold
    · rw [addFirst_some_of_not_mem hr, List.map_append, List.map_cons, List.map_nil,
        getElem?_concat_eq_some] at h
      exact ⟨r, rfl, (h.resolve_left hold).2⟩

/-- Names keep their positions as further ones come after them. -/
theorem getElem?_names_of_isPrefix {firsts' : List Registration} (h : firsts <+: firsts') {i : Nat}
    (hi : i < firsts.length) : (firsts'.map name)[i]? = (firsts.map name)[i]? := by
  obtain ⟨tail, rfl⟩ := h
  rw [List.map_append, List.getElem?_append_left (by rwa [List.length_map])]

/-- A new name has no position but the last one. -/
theorem getElem?_names_concat {r : Registration} (hnew : r.name ∉ firsts.map name) {i : Nat} :
    ((firsts ++ [r]).map name)[i]? = some r.name ↔ i = firsts.length := by
  have hold : (firsts.map name)[i]? ≠ some r.name := fun h => hnew (List.mem_of_getElem? h)
  simp only [List.map_append, List.map_cons, List.map_nil, getElem?_concat_eq_some, hold, false_or,
    List.length_map, and_true]

theorem definitions_concat (firsts : List Registration) (r : Registration) :
    definitions (firsts ++ [r]) = definitions firsts ++
      if h : firsts.length < FunctionId.limit then [r.define ⟨firsts.length, h⟩] else [] := by
  rw [definitions, List.zipIdx_append, List.filterMap_append]
  refine congrArg (definitions firsts ++ ·) ?_
  rw [List.zipIdx_singleton, Nat.zero_add]
  split
  · rename_i h
    simp [h]
  · rename_i h
    simp [h]

theorem length_definitions (firsts : List Registration) :
    (definitions firsts).length = min firsts.length FunctionId.limit := by
  induction firsts using List.reverseRecOn with
  | nil => rfl
  | append_singleton firsts r ih =>
    rw [definitions_concat, List.length_append, ih, List.length_append, List.length_singleton]
    split
    · rw [List.length_singleton]
      omega
    · rw [List.length_nil]
      omega

/-- The functions that are announced are those with the first ids. -/
theorem getElem?_definitions {i : Nat} {d : Definition} :
    (definitions firsts)[i]? = some d ↔
      ∃ r, ∃ h : i < FunctionId.limit, firsts[i]? = some r ∧ r.define ⟨i, h⟩ = d := by
  induction firsts using List.reverseRecOn with
  | nil => simp [definitions]
  | append_singleton firsts r ih =>
    rw [definitions_concat]
    by_cases hlimit : firsts.length < FunctionId.limit
    · rw [dif_pos hlimit, getElem?_concat_eq_some, ih, length_definitions,
        Nat.min_eq_left (Nat.le_of_lt hlimit)]
      constructor
      · rintro (⟨r', h, hr', hd⟩ | ⟨rfl, hd⟩)
        · exact ⟨r', h, getElem?_concat_eq_some.2 (.inl hr'), hd⟩
        · exact ⟨r, hlimit, getElem?_concat_eq_some.2 (.inr ⟨rfl, rfl⟩), hd⟩
      · rintro ⟨r', h, hr', hd⟩
        rcases getElem?_concat_eq_some.1 hr' with hr' | ⟨rfl, rfl⟩
        · exact .inl ⟨r', h, hr', hd⟩
        · exact .inr ⟨rfl, hd⟩
    · rw [dif_neg hlimit, List.append_nil, ih]
      constructor
      · rintro ⟨r', h, hr', hd⟩
        exact ⟨r', h, getElem?_concat_eq_some.2 (.inl hr'), hd⟩
      · rintro ⟨r', h, hr', hd⟩
        rcases getElem?_concat_eq_some.1 hr' with hr' | ⟨rfl, -⟩
        · exact ⟨r', h, hr', hd⟩
        · exact absurd h hlimit

theorem definitions_addFirst_of_limit_le (h : FunctionId.limit ≤ firsts.length)
    (r? : Option Registration) : definitions (addFirst firsts r?) = definitions firsts := by
  cases r? with
  | none => rfl
  | some r =>
    by_cases hr : r.name ∈ firsts.map name
    · rw [addFirst_some_of_mem hr]
    · rw [addFirst_some_of_not_mem hr, definitions_concat, dif_neg (Nat.not_lt_of_le h),
        List.append_nil]

end Registration

/-! ## A catalogue of first registrations -/

theorem Catalogue.nameOf?_eq (catalogue : Catalogue) (script : Script) (literal : Literal)
    (isConstructor : Bool) (clock : Int64) :
    catalogue.nameOf? script literal =
      (Registration.traced? catalogue.scope script literal isConstructor clock).map
        Registration.name := by
  unfold nameOf? Registration.traced?
  cases script.name with
  | none => rfl
  | some path =>
    rw [Option.bind_some, Option.bind_some]
    split <;> rfl

namespace Catalogue.Lists

open Registration

variable {catalogue : Catalogue} {firsts : List Registration}

/-- A listed name has its position for an id. -/
theorem id?_eq_some_iff (h : catalogue.Lists (definitions firsts)) {n : FunctionName}
    {id : FunctionId} : catalogue.id? n = some id ↔ (firsts.map name)[id.val]? = some n := by
  rw [h.ids_iff, List.getElem?_map, Option.map_eq_some_iff]
  constructor
  · rintro ⟨d, hd, rfl⟩
    obtain ⟨r, -, hr, rfl⟩ := getElem?_definitions.1 hd
    exact ⟨r, hr, rfl⟩
  · rintro ⟨r, hr, rfl⟩
    exact ⟨_, getElem?_definitions.2 ⟨r, id.isLt, hr, rfl⟩, rfl⟩

/-- A name is not listed because it is new, or because there was no id for it. -/
theorem id?_eq_none_iff (h : catalogue.Lists (definitions firsts)) {n : FunctionName} :
    catalogue.id? n = none ↔ ∀ i < FunctionId.limit, (firsts.map name)[i]? ≠ some n := by
  rw [Option.eq_none_iff_forall_ne_some]
  constructor
  · exact fun hnone i hi hn => hnone ⟨i, hi⟩ (h.id?_eq_some_iff.2 hn)
  · exact fun hnone id hid => hnone id.val id.isLt (h.id?_eq_some_iff.1 hid)

theorem nextId?_eq_none_iff (h : catalogue.Lists (definitions firsts)) :
    catalogue.nextId? = none ↔ FunctionId.limit ≤ firsts.length := by
  have hnext := h.next_eq
  rw [length_definitions] at hnext
  unfold nextId?
  split
  · simp only [reduceCtorEq, false_iff]
    omega
  · simp only [true_iff]
    omega

/-- **Registering adds first registrations:** what is announced comes after what was, and the id is
the position of the name. -/
theorem register_firsts (h : catalogue.Lists (definitions firsts)) (script : Script)
    (literal : Literal) (isConstructor : Bool) (clock : Int64) :
    let r? := traced? catalogue.scope script literal isConstructor clock
    let registered := catalogue.register script literal isConstructor clock
    registered.2.1.scope = catalogue.scope ∧
      definitions (addFirst firsts r?) = definitions firsts ++ registered.2.2.toList ∧
      ∀ id, registered.1 = some id ↔
        ∃ r ∈ r?, ((addFirst firsts r?).map name)[id.val]? = some r.name := by
  intro r? registered
  have hname : catalogue.nameOf? script literal = r?.map name := catalogue.nameOf?_eq ..
  rcases catalogue.register_cases script literal isConstructor clock with
    ⟨hnone, heq⟩ | ⟨n, id, hn, hold, heq⟩ | ⟨n, hn, hnew, hnext, heq⟩ |
    ⟨n, id, hn, hnew, hnext, heq⟩
  · have hr : r? = none := Option.map_eq_none_iff.1 (hname.symm.trans hnone)
    simp [registered, heq, hr, addFirst]
  all_goals
    obtain ⟨r, hr, rfl⟩ := Option.map_eq_some_iff.1 (hname.symm.trans hn)
    simp only [registered, heq, hr, Option.mem_def, Option.some.injEq, exists_eq_left']
  · -- the function has an id
    have hmem : r.name ∈ firsts.map name := List.mem_of_getElem? (h.id?_eq_some_iff.1 hold)
    rw [addFirst_some_of_mem hmem]
    refine ⟨trivial, (List.append_nil _).symm, fun id' => ?_⟩
    rw [← h.id?_eq_some_iff, hold, Option.some.injEq]
  · -- no id is left, and none reaches a function that comes after the last one
    have hfull := h.nextId?_eq_none_iff.1 hnext
    refine ⟨trivial, ?_, fun id' => ?_⟩
    · rw [definitions_addFirst_of_limit_le hfull]
      exact (List.append_nil _).symm
    · rw [getElem?_names_of_isPrefix (prefix_addFirst firsts (some r))
        (Nat.lt_of_lt_of_le id'.isLt hfull)]
      exact iff_of_false (fun hid => by cases hid) (h.id?_eq_none_iff.1 hnew _ id'.isLt)
  · -- the function is given the id after those of the others
    obtain ⟨path, -, -, -, hpath⟩ := traced?_eq_some.1 hr
    obtain ⟨val, hlt⟩ := id
    obtain rfl : val = firsts.length := by
      have hval : val = min firsts.length FunctionId.limit :=
        (val_of_nextId? hnext).trans (h.next_eq.trans (length_definitions firsts))
      omega
    have hmem : r.name ∉ firsts.map name := by
      intro hmem
      obtain ⟨i, hi⟩ := List.mem_iff_getElem?.1 hmem
      have hi' := (List.getElem?_eq_some_iff.1 hi).1
      rw [List.length_map] at hi'
      exact h.id?_eq_none_iff.1 hnew i (Nat.lt_trans hi' hlt) hi
    rw [addFirst_some_of_not_mem hmem]
    refine ⟨rfl, ?_, fun id => ?_⟩
    · rw [definitions_concat, dif_pos hlt, ← hpath]
      rfl
    · rw [getElem?_names_concat hmem]
      exact ⟨fun heq => heq ▸ rfl, fun hval => FunctionId.val_injective hval.symm⟩

end Catalogue.Lists

end CallTrace
