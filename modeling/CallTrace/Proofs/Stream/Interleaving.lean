import CallTrace.Merge.Directory
import CallTrace.Proofs.Stream.Batches

/-!
# Interleaved streams

The batches of two streams may arrive in any order that keeps those of each stream in theirs
(`Interleaves`). They are then still batches of whole records, and the records of either stream
stand among them in order (`Batched.interleaves`). So a definition stream and a call stream that
share a destination are both read back completely (`read_interleaved_deliveries`).
-/

namespace CallTrace

/-! ## Interleaved lists -/

/-- `zs` holds the elements of `xs` and those of `ys`, each list in its order. -/
inductive Interleaves {α : Type} : List α → List α → List α → Prop
  | nil : Interleaves [] [] []
  | left {x : α} {xs ys zs : List α} : Interleaves xs ys zs → Interleaves (x :: xs) ys (x :: zs)
  | right {y : α} {xs ys zs : List α} : Interleaves xs ys zs → Interleaves xs (y :: ys) (y :: zs)

namespace Interleaves

variable {α β : Type} {xs ys zs : List α}

theorem swap (h : Interleaves xs ys zs) : Interleaves ys xs zs := by
  induction h with
  | nil => exact .nil
  | left _ ih => exact .right ih
  | right _ ih => exact .left ih

theorem mem (h : Interleaves xs ys zs) {z : α} (hz : z ∈ zs) : z ∈ xs ∨ z ∈ ys := by
  induction h with
  | nil => cases hz
  | left _ ih =>
    rcases List.mem_cons.1 hz with rfl | hz
    · exact .inl List.mem_cons_self
    · exact (ih hz).imp_left (List.mem_cons_of_mem _)
  | right _ ih =>
    rcases List.mem_cons.1 hz with rfl | hz
    · exact .inr List.mem_cons_self
    · exact (ih hz).imp_right (List.mem_cons_of_mem _)

/-- Images are interleaved only as images of interleaved lists. -/
theorem exists_of_map {f : α → β} {zs : List β} (h : Interleaves (xs.map f) (ys.map f) zs) :
    ∃ ws, Interleaves xs ys ws ∧ zs = ws.map f := by
  generalize hx : xs.map f = us at h
  generalize hy : ys.map f = vs at h
  induction h generalizing xs ys with
  | nil =>
    obtain rfl := List.map_eq_nil_iff.1 hx
    obtain rfl := List.map_eq_nil_iff.1 hy
    exact ⟨[], .nil, rfl⟩
  | left _ ih =>
    obtain ⟨x, xs', rfl, rfl, hrest⟩ := List.map_eq_cons_iff.1 hx
    obtain ⟨ws, hws, rfl⟩ := ih hrest hy
    exact ⟨x :: ws, .left hws, rfl⟩
  | right _ ih =>
    obtain ⟨y, ys', rfl, rfl, hrest⟩ := List.map_eq_cons_iff.1 hy
    obtain ⟨ws, hws, rfl⟩ := ih hx hrest
    exact ⟨y :: ws, .right hws, rfl⟩

/-- What only the left list contributes to stays in its order. -/
theorem flatMap_left (h : Interleaves xs ys zs) {f : α → List β} (hf : ∀ y ∈ ys, f y = []) :
    zs.flatMap f = xs.flatMap f := by
  induction h with
  | nil => rfl
  | left _ ih => rw [List.flatMap_cons, List.flatMap_cons, ih hf]
  | right _ ih =>
    rw [List.flatMap_cons, hf _ List.mem_cons_self, List.nil_append,
      ih fun y hy => hf y (List.mem_cons_of_mem _ hy)]

end Interleaves

/-! ## Interleaved batches -/

theorem filterMap_flatten_eq_nil {α β : Type} {pick : α → Option β} {groups : List (List α)}
    (h : groups.flatten.filterMap pick = []) {group : List α} (hg : group ∈ groups) :
    group.filterMap pick = [] := by
  rw [List.filterMap_eq_nil_iff] at h ⊢
  exact fun x hx => h x (List.mem_flatten_of_mem hg hx)

/-- Interleaved batches are batches of whole records, and what is picked from the records of one
side alone stays in its order. -/
theorem Batched.interleaves {left right batches : List Bytes} {records records' : List Record}
    (h : Batched left records) (h' : Batched right records')
    (hi : Interleaves left right batches) :
    ∃ all, Batched batches all ∧ ∀ {β : Type} (pick : Record → Option β),
      (records'.filterMap pick = [] → all.filterMap pick = records.filterMap pick) ∧
        (records.filterMap pick = [] → all.filterMap pick = records'.filterMap pick) := by
  obtain ⟨groups, hne, rfl, rfl⟩ := h
  obtain ⟨groups', hne', rfl, rfl⟩ := h'
  obtain ⟨merged, hm, rfl⟩ := hi.exists_of_map
  refine ⟨merged.flatten, ⟨merged, fun group hg => (hm.mem hg).elim (hne group) (hne' group), rfl,
    rfl⟩, fun pick => ?_⟩
  simp only [List.filterMap_flatten, ← List.flatMap_def]
  refine ⟨fun hnil => ?_, fun hnil => ?_⟩
  · exact hm.flatMap_left fun group hg => filterMap_flatten_eq_nil
      (by simpa only [List.filterMap_flatten, ← List.flatMap_def] using hnil) hg
  · exact hm.swap.flatMap_left fun group hg => filterMap_flatten_eq_nil
      (by simpa only [List.filterMap_flatten, ← List.flatMap_def] using hnil) hg

/-! ## Definitions and calls -/

theorem Record.definition?_readBack? (d : Definition) :
    (Record.definition d).readBack?.bind Record.definition? =
      if d.id.isSome then some d.readBack else none := by
  simp only [readBack?]
  cases d.id.isSome <;> rfl

theorem Record.call?_readBack?_definition (d : Definition) :
    (Record.definition d).readBack?.bind Record.call? = none := by
  simp only [readBack?]
  cases d.id.isSome <;> rfl

theorem filterMap_readBack?_definitions (definitions : List Definition) :
    (definitions.map Record.definition).filterMap (fun r => r.readBack?.bind Record.definition?) =
      (definitions.filter fun d => d.id.isSome).map Definition.readBack := by
  simp only [List.filterMap_map, Function.comp_def, Record.definition?_readBack?]
  induction definitions with
  | nil => rfl
  | cons d rest ih => cases h : d.id <;> simp [h, ih]

theorem filterMap_readBack?_calls (calls : List Call) :
    (calls.map Record.call).filterMap (fun r => r.readBack?.bind Record.call?) = calls := by
  induction calls with
  | nil => rfl
  | cons c rest ih => simpa [Record.readBack?, Record.call?] using ih

/-- **Two streams on one destination are read back.** However their batches are interleaved, the
definitions that have an id and all the calls come back in order, from the whole and from the
batches one by one. -/
theorem read_interleaved_deliveries {m n : Nat} (hm : 0 < m) (hn : 0 < n)
    (definitions : List (StreamStep Definition)) (calls : List (StreamStep Call))
    (world world' : World) {batches : List Bytes}
    (h : Interleaves (Stream.deliveries Record.definition m hm definitions world)
      (Stream.deliveries Record.call n hn calls world') batches) :
    ∃ records, Trace.read batches.flatten = .ok records ∧
      records.filterMap Record.definition? =
        ((definitions.filterMap StreamStep.item?).filter fun d => d.id.isSome).map
          Definition.readBack ∧
      records.filterMap Record.call? = calls.filterMap StreamStep.item? ∧
      (∀ batch ∈ batches, batch ≠ [] ∧ (∃ text, Utf8.decode? batch = some text) ∧
        batch.getLast? = some 0x0a) ∧
      ∃ parts, batches.mapM Trace.read = .ok parts ∧ parts.flatten = records := by
  obtain ⟨all, hall, hpick⟩ := Batched.interleaves
    (Stream.batched_deliveries Record.definition m hm definitions world)
    (Stream.batched_deliveries Record.call n hn calls world') h
  obtain ⟨parts, hparts, hflat⟩ := hall.mapM_read
  refine ⟨_, hall.read_flatten, ?_, ?_, fun batch hb => hall.batch_spec hb, parts, hparts, hflat⟩
  · rw [List.filterMap_filterMap, (hpick _).1, filterMap_readBack?_definitions]
    simp [Record.readBack?, Record.definition?]
  · rw [List.filterMap_filterMap, (hpick _).2, filterMap_readBack?_calls]
    simp only [List.filterMap_eq_nil_iff, List.mem_map]
    rintro _ ⟨d, -, rfl⟩
    exact Record.call?_readBack?_definition d

/-- A definition longer than its buffer, one without an id, and two calls, delivered in turns. -/
theorem read_interleaved_deliveries_in_turns :
    let d : Definition :=
      ⟨some ⟨7, by decide⟩, 1, 2, 3, 4, 5, "a\té.constructor", false, "/x\n", 9⟩
    let lost : Definition := { d with id := none }
    let c : Call := ⟨none, some ⟨7, by decide⟩, -5⟩
    let world : World := ⟨⟨[], []⟩, [], fun _ => none, 0, ""⟩
    let batches := [Utf8.ofString "-1\t7\t-5\n",
      Utf8.ofString "7\ta é.constructor\t4\t5\t1\t2\t3\t/x \t9\n",
      Utf8.ofString "-1\t7\t-5\n",
      Utf8.ofString "-1\ta é.constructor\t4\t5\t1\t2\t3\t/x \t9\n"]
    Interleaves
        (Stream.deliveries .definition 4 (by decide) [.record d, .flush, .record lost] world)
        (Stream.deliveries .call 20 (by decide) [.record c, .flush, .record c] world) batches ∧
      ∃ records, Trace.read batches.flatten = .ok records ∧
        records.filterMap Record.definition? =
          [{ d with name := "a é", isConstructor := true, path := "/x " }] ∧
        records.filterMap Record.call? = [c, c] := by
  intro d lost c world batches
  have hd : Stream.deliveries .definition 4 (by decide) [.record d, .flush, .record lost] world =
      [batches[1], batches[3]] := by decide +kernel
  have hc : Stream.deliveries .call 20 (by decide) [.record c, .flush, .record c] world =
      [batches[0], batches[2]] := by decide +kernel
  have h : Interleaves
      (Stream.deliveries .definition 4 (by decide) [.record d, .flush, .record lost] world)
      (Stream.deliveries .call 20 (by decide) [.record c, .flush, .record c] world) batches := by
    rw [hd, hc]
    exact .right (.left (.right (.left .nil)))
  obtain ⟨records, hread, hdefs, hcalls, -⟩ := read_interleaved_deliveries (by decide) (by decide)
    [.record d, .flush, .record lost] [.record c, .flush, .record c] world world h
  refine ⟨h, records, hread, hdefs.trans ?_, hcalls⟩
  decide +kernel

end CallTrace
