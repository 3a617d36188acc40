import CallTrace.Catalogue
import CallTrace.Proofs.Record.ReadBack
import Mathlib.Algebra.GroupWithZero.Nat
import Mathlib.Data.List.Basic

/-!
# A catalogue is the list of its definitions

`Catalogue.Lists catalogue definitions`: the definitions are those of the functions that have an
id, in the order of the ids. Registering keeps it so (`Lists.register`): the id that is given is
that of a function listed before, or the function is added at the end.
-/

namespace CallTrace

/-- What a defined function is known by. -/
def Definition.functionName (d : Definition) : FunctionName :=
  (d.path, d.fileIndex)

theorem FunctionId.val_injective : Function.Injective FunctionId.val := by
  rintro ⟨m, hm⟩ ⟨n, hn⟩ rfl
  rfl

theorem getElem?_concat_eq_some {α : Type} {xs : List α} {x y : α} {i : Nat} :
    (xs ++ [x])[i]? = some y ↔ xs[i]? = some y ∨ i = xs.length ∧ x = y := by
  rw [List.getElem?_append]
  split
  · rename_i hi
    exact ⟨.inl, fun h => h.resolve_right fun h => absurd h.1 (Nat.ne_of_lt hi)⟩
  · rename_i hi
    rw [List.getElem?_singleton, List.getElem?_eq_none (Nat.le_of_not_lt hi)]
    have hzero : i - xs.length = 0 ↔ i = xs.length := by omega
    simp [hzero]

namespace Catalogue

/-! ## Names and their ids -/

theorem id?_insert (catalogue : Catalogue) (name other : FunctionName) (id : FunctionId) :
    (catalogue.insert name id).id? other =
      if name = other then some id else catalogue.id? other := by
  obtain ⟨path, literal⟩ := name
  obtain ⟨path', literal'⟩ := other
  simp only [id?, insert, Std.HashMap.getElem?_insert, Prod.mk.injEq, beq_iff_eq]
  by_cases hpath : path = path'
  · subst hpath
    rw [if_pos rfl, Option.bind_some, Std.HashMap.getElem?_insert,
      Std.HashMap.getD_eq_getD_getElem?]
    cases catalogue.scripts[path]? <;> simp
  · simp [hpath]

theorem size_eq_sum (catalogue : Catalogue) :
    catalogue.size = (catalogue.scripts.toList.map fun entry => entry.2.size).sum := by
  rw [size, Std.HashMap.fold_eq_foldl_toList, List.sum_eq_foldl, List.foldl_map]

/-- The functions are those of one script and those of all others. -/
theorem size_eq_add (catalogue : Catalogue) (path : String) :
    catalogue.size = (catalogue.scripts.getD path ∅).size +
      ((catalogue.scripts.toList.filter (¬path == ·.1)).map fun entry => entry.2.size).sum := by
  rw [size_eq_sum, Std.HashMap.getD_eq_getD_getElem?]
  cases hold : catalogue.scripts[path]? with
  | none =>
    have hothers : catalogue.scripts.toList.filter (¬path == ·.1) = catalogue.scripts.toList := by
      refine List.filter_eq_self.2 fun entry hentry => ?_
      have hne : path ≠ entry.1 := by
        rintro rfl
        rw [Std.HashMap.mem_toList_iff_getElem?_eq_some.1 hentry] at hold
        cases hold
      simpa using hne
    rw [hothers, Option.getD_none, Std.HashMap.size_empty, Nat.zero_add]
  | some ids =>
    have hsame : (catalogue.scripts.insert path ids).Equiv catalogue.scripts := by
      refine .of_forall_getElem?_eq fun other => ?_
      rw [Std.HashMap.getElem?_insert]
      split
      · rename_i heq
        rw [← eq_of_beq heq, hold]
      · rfl
    have hperm := hsame.toList_perm.symm.trans Std.HashMap.toList_insert_perm
    rw [(hperm.map _).sum_nat, List.map_cons, List.sum_cons, Option.getD_some]

/-- A new name is one function more. -/
theorem size_insert {catalogue : Catalogue} {name : FunctionName}
    (hnew : catalogue.id? name = none) (id : FunctionId) :
    (catalogue.insert name id).size = catalogue.size + 1 := by
  have hmem : name.2 ∉ catalogue.scripts.getD name.1 ∅ := by
    rw [Std.HashMap.mem_iff_isSome_getElem?, Std.HashMap.getD_eq_getD_getElem?]
    unfold id? at hnew
    cases hscript : catalogue.scripts[name.1]? with
    | none => simp
    | some ids =>
      rw [hscript, Option.bind_some] at hnew
      simp [hnew]
  rw [size_eq_sum, insert, (Std.HashMap.toList_insert_perm.map _).sum_nat, List.map_cons,
    List.sum_cons, Std.HashMap.size_insert, if_neg hmem, size_eq_add catalogue name.1]
  omega

/-! ## Definitions in the order of their ids -/

/-- The definitions are those of the functions with an id, in the order of their ids; the next id
comes after them. -/
structure Lists (catalogue : Catalogue) (definitions : List Definition) : Prop where
  size_eq : catalogue.size = definitions.length
  next_eq : catalogue.next = definitions.length
  id_eq : ∀ {i : Nat} {d : Definition}, definitions[i]? = some d →
    d.id.map FunctionId.val = some i
  ids_iff : ∀ {name : FunctionName} {id : FunctionId}, catalogue.id? name = some id ↔
    ∃ d, definitions[id.val]? = some d ∧ d.functionName = name

theorem lists_empty (scope : Scope) : (empty scope).Lists [] where
  size_eq := by simp [size, empty, Std.HashMap.fold_eq_foldl_toList]
  next_eq := rfl
  id_eq h := by simp at h
  ids_iff := by simp [id?, empty]

theorem val_of_nextId? {catalogue : Catalogue} {id : FunctionId}
    (h : catalogue.nextId? = some id) : id.val = catalogue.next := by
  unfold nextId? at h
  split at h
  · obtain rfl := Option.some.inj h
    rfl
  · cases h

theorem snd_of_nameOf? {catalogue : Catalogue} {script : Script} {literal : Literal}
    {name : FunctionName} (h : catalogue.nameOf? script literal = some name) :
    name.2 = literal.id := by
  obtain ⟨path, -, hname⟩ := Option.bind_eq_some_iff.1 h
  split at hname
  · obtain rfl := Option.some.inj hname
    rfl
  · cases hname

/-- What registering comes to: the function is not traced, has an id, gets none as there is none
left, or gets the next one and is announced. -/
theorem register_cases (catalogue : Catalogue) (script : Script) (literal : Literal)
    (isConstructor : Bool) (clock : Int64) :
    (catalogue.nameOf? script literal = none ∧
      catalogue.register script literal isConstructor clock = (none, catalogue, none)) ∨
    (∃ name id, catalogue.nameOf? script literal = some name ∧ catalogue.id? name = some id ∧
      catalogue.register script literal isConstructor clock = (some id, catalogue, none)) ∨
    (∃ name, catalogue.nameOf? script literal = some name ∧ catalogue.id? name = none ∧
      catalogue.nextId? = none ∧
      catalogue.register script literal isConstructor clock = (none, catalogue, none)) ∨
    ∃ name id, catalogue.nameOf? script literal = some name ∧ catalogue.id? name = none ∧
      catalogue.nextId? = some id ∧
      catalogue.register script literal isConstructor clock =
        (some id, catalogue.insert name id,
          some (define id name.1 script literal isConstructor clock)) := by
  unfold Catalogue.register
  cases hname : catalogue.nameOf? script literal with
  | none => exact .inl ⟨rfl, rfl⟩
  | some name =>
    cases hold : catalogue.id? name with
    | some id => exact .inr (.inl ⟨name, id, rfl, hold, by simp only [hold]⟩)
    | none =>
      cases hnext : catalogue.nextId? with
      | none => exact .inr (.inr (.inl ⟨name, rfl, hold, rfl, by simp only [hold]⟩))
      | some id => exact .inr (.inr (.inr ⟨name, id, rfl, hold, rfl, by simp only [hold]⟩))

namespace Lists

variable {catalogue : Catalogue} {definitions : List Definition}

theorem lt_length (h : catalogue.Lists definitions) {name : FunctionName} {id : FunctionId}
    (hid : catalogue.id? name = some id) : id.val < definitions.length := by
  obtain ⟨d, hd, -⟩ := h.ids_iff.1 hid
  exact (List.getElem?_eq_some_iff.1 hd).1

theorem exists_id (h : catalogue.Lists definitions) {i : Nat} {d : Definition}
    (hd : definitions[i]? = some d) :
    ∃ id : FunctionId, d.id = some id ∧ id.val = i ∧ catalogue.id? d.functionName = some id := by
  obtain ⟨id, hid, rfl⟩ := Option.map_eq_some_iff.1 (h.id_eq hd)
  exact ⟨id, hid, rfl, h.ids_iff.2 ⟨d, hd, rfl⟩⟩

theorem filterMap_readBack?_definitions (h : catalogue.Lists definitions) :
    (definitions.map Record.definition).filterMap Record.readBack? =
      (definitions.map Definition.readBack).map .definition := by
  rw [List.filterMap_map, List.map_map, ← List.filterMap_eq_map]
  refine List.filterMap_congr fun d hd => ?_
  obtain ⟨i, hi⟩ := List.mem_iff_getElem?.1 hd
  obtain ⟨id, hid, -⟩ := h.exists_id hi
  simp [Record.readBack?, hid]

/-- A function that is found has the id of a listed one. -/
theorem lookup (h : catalogue.Lists definitions) (script : Script) (literal : Literal) :
    ∀ id ∈ catalogue.lookup script literal, id.val < definitions.length := by
  intro id hid
  obtain ⟨name, -, hname⟩ := Option.bind_eq_some_iff.1 hid
  exact h.lt_length hname

/-- A new function is listed at the end. -/
theorem insert (h : catalogue.Lists definitions) {d : Definition} {id : FunctionId}
    (hnew : catalogue.id? d.functionName = none) (hid : d.id = some id)
    (hval : id.val = definitions.length) :
    (catalogue.insert d.functionName id).Lists (definitions ++ [d]) where
  size_eq := by
    rw [size_insert hnew, h.size_eq, List.length_append, List.length_singleton]
  next_eq := by
    rw [List.length_append, List.length_singleton]
    exact congrArg (· + 1) h.next_eq
  id_eq hi := by
    rcases getElem?_concat_eq_some.1 hi with hi | ⟨rfl, rfl⟩
    · exact h.id_eq hi
    · rw [hid, Option.map_some, hval]
  ids_iff {name other} := by
    rw [id?_insert]
    by_cases hname : d.functionName = name
    · subst hname
      rw [if_pos rfl]
      constructor
      · rintro ⟨⟩
        exact ⟨d, getElem?_concat_eq_some.2 (.inr ⟨hval, rfl⟩), rfl⟩
      · rintro ⟨d', hd', heq⟩
        rcases getElem?_concat_eq_some.1 hd' with hd' | ⟨hlast, rfl⟩
        · rw [h.ids_iff.2 ⟨d', hd', heq⟩] at hnew
          cases hnew
        · exact congrArg some (FunctionId.val_injective (hval.trans hlast.symm))
    · rw [if_neg hname, h.ids_iff]
      constructor
      · rintro ⟨d', hd', heq⟩
        exact ⟨d', getElem?_concat_eq_some.2 (.inl hd'), heq⟩
      · rintro ⟨d', hd', heq⟩
        rcases getElem?_concat_eq_some.1 hd' with hd' | ⟨-, rfl⟩
        · exact ⟨d', hd', heq⟩
        · exact absurd heq hname

/-- **Registering lists what it announces,** and the id it gives is listed then. -/
theorem register (h : catalogue.Lists definitions) (script : Script) (literal : Literal)
    (isConstructor : Bool) (clock : Int64) :
    (catalogue.register script literal isConstructor clock).2.1.Lists
        (definitions ++ (catalogue.register script literal isConstructor clock).2.2.toList) ∧
      ∀ id ∈ (catalogue.register script literal isConstructor clock).1, id.val <
        (definitions ++
          (catalogue.register script literal isConstructor clock).2.2.toList).length := by
  have hsame : catalogue.Lists (definitions ++ []) := (List.append_nil definitions).symm ▸ h
  rcases catalogue.register_cases script literal isConstructor clock with
    ⟨-, heq⟩ | ⟨name, id, -, hold, heq⟩ | ⟨name, -, -, -, heq⟩ | ⟨name, id, hname, hnew, hnext, heq⟩
  all_goals rw [heq]
  · exact ⟨hsame, fun id hid => by cases hid⟩
  · refine ⟨hsame, ?_⟩
    rintro _ ⟨⟩
    simpa using h.lt_length hold
  · exact ⟨hsame, fun id hid => by cases hid⟩
  · have hval : id.val = definitions.length := (val_of_nextId? hnext).trans h.next_eq
    have hfunction :
        (define id name.1 script literal isConstructor clock).functionName = name :=
      Prod.ext rfl (snd_of_nameOf? hname).symm
    refine ⟨?_, ?_⟩
    · have hinsert := h.insert (d := define id name.1 script literal isConstructor clock)
        (by rwa [hfunction]) rfl hval
      rwa [hfunction] at hinsert
    · rintro _ ⟨⟩
      simp [hval]

end Lists

end Catalogue

end CallTrace
