import CallTrace.Proofs.Stream.Verdicts

/-!
# Batches are packed greedily

A recorder puts records into one batch as long as they fit into its buffer (`Packing.greedy`), and
what it attempts to deliver are these batches, whatever becomes of them (`Packed.run`). A batch that
is longer than the buffer has a single record (`Packing.Bounded`). No other packing of the same
records into batches that fit has fewer of them: as long as it has no more, its last batch ends with
the greedy one (`Packing.Ahead`), so there is no room in it for a record that is refused here
(`Packing.Ahead.put`).
-/

namespace CallTrace

/-! ## Packing -/

/-- The size of the lines of records. -/
def linesSize (records : List Record) : Nat :=
  (records.flatMap Record.encode).length

/-- Records in batches that are closed, and in a last one that is not. -/
structure Packing where
  closed : List (List Record)
  pending : List Record

namespace Packing

/-- Nothing packed yet. -/
def empty : Packing :=
  ⟨[], []⟩

/-- Closes the last batch, if there is anything in it. -/
def close (p : Packing) : Packing :=
  if p.pending = [] then p else ⟨p.closed ++ [p.pending], []⟩

/-- Adds a record to the last batch if it fits there. If not, the batch is closed and the record
starts another one, or is a closed batch by itself if it fits into none. -/
def put (capacity : Nat) (p : Packing) (r : Record) : Packing :=
  if linesSize p.pending + r.encode.length ≤ capacity then ⟨p.closed, p.pending ++ [r]⟩
  else if r.encode.length ≤ capacity then ⟨p.close.closed, [r]⟩
  else ⟨p.close.closed ++ [[r]], []⟩

/-- Packs what a step records; a flush closes the last batch. -/
def take (capacity : Nat) (p : Packing) : StreamStep Record → Packing
  | .record r => p.put capacity r
  | .flush => p.close

/-- The packing of the records of steps. -/
def greedy (capacity : Nat) (steps : List (StreamStep Record)) : Packing :=
  steps.foldl (take capacity) empty

/-- The payloads of batches. -/
def payloads (batches : List (List Record)) : List Bytes :=
  batches.map (List.flatMap Record.encode)

theorem linesSize_append (records more : List Record) :
    linesSize (records ++ more) = linesSize records + linesSize more := by
  simp [linesSize]

theorem linesSize_singleton (r : Record) : linesSize [r] = r.encode.length := by
  simp [linesSize]

theorem closed_close (p : Packing) :
    p.close.closed = p.closed ++ if p.pending = [] then [] else [p.pending] := by
  unfold close
  split <;> simp

theorem length_close_le {p : Packing} {count : Nat} (hle : p.closed.length ≤ count)
    (hpending : p.closed.length = count → p.pending = []) : p.close.closed.length ≤ count := by
  rw [closed_close, List.length_append]
  split
  · exact hle
  · rename_i hne
    exact Nat.succ_le_of_lt (Nat.lt_of_le_of_ne hle (mt hpending hne))

theorem pending_close (p : Packing) : p.close.pending = [] := by
  unfold close
  split
  · assumption
  · rfl

theorem payloads_append (batches more : List (List Record)) :
    payloads (batches ++ more) = payloads batches ++ payloads more :=
  List.map_append

theorem linesSize_eq_zero_iff {records : List Record} : linesSize records = 0 ↔ records = [] := by
  constructor
  · intro h
    cases records with
    | nil => rfl
    | cons r rest =>
      rw [linesSize, List.length_eq_zero_iff, List.flatMap_cons] at h
      exact absurd (List.append_eq_nil_iff.1 h).1 r.encode_ne_nil
  · rintro rfl
    rfl

/-! ## What is packed -/

/-- The records in their batches, in order. -/
def records (p : Packing) : List Record :=
  p.closed.flatten ++ p.pending

theorem records_close (p : Packing) : p.close.records = p.records := by
  unfold close records
  split <;> simp

theorem records_put (capacity : Nat) (p : Packing) (r : Record) :
    (p.put capacity r).records = p.records ++ [r] := by
  have hclosed : p.close.closed.flatten = p.records := by
    rw [← records_close, records, pending_close, List.append_nil]
  unfold put
  split
  · exact (List.append_assoc ..).symm
  · split
    · rw [records, hclosed]
    · simp [records, hclosed]

theorem records_take (capacity : Nat) (p : Packing) (step : StreamStep Record) :
    (p.take capacity step).records = p.records ++ step.item?.toList := by
  cases step with
  | record r => exact records_put capacity p r
  | flush => exact (records_close p).trans (List.append_nil _).symm

theorem records_foldl_take (capacity : Nat) (p : Packing) (steps : List (StreamStep Record)) :
    (steps.foldl (take capacity) p).records = p.records ++ steps.filterMap StreamStep.item? := by
  induction steps generalizing p with
  | nil => exact (List.append_nil _).symm
  | cons step rest ih =>
    rw [List.foldl_cons, ih, records_take, List.append_assoc]
    cases step <;> rfl

/-- Batches that are longer than the capacity have a single record. -/
structure Bounded (capacity : Nat) (p : Packing) : Prop where
  closed : ∀ batch ∈ p.closed, linesSize batch ≤ capacity ∨ ∃ r, batch = [r]
  pending : linesSize p.pending ≤ capacity

namespace Bounded

variable {capacity : Nat} {p : Packing}

theorem empty : Bounded capacity Packing.empty :=
  ⟨fun _ h => (List.not_mem_nil h).elim, Nat.zero_le _⟩

theorem close (h : Bounded capacity p) : Bounded capacity p.close := by
  refine ⟨fun batch hb => ?_, ?_⟩
  · rw [closed_close, List.mem_append] at hb
    rcases hb with hb | hb
    · exact h.closed batch hb
    · split at hb
      · cases hb
      · rw [List.mem_singleton.1 hb]
        exact .inl h.pending
  · rw [pending_close]
    exact Nat.zero_le _

theorem put (h : Bounded capacity p) (r : Record) : Bounded capacity (p.put capacity r) := by
  unfold Packing.put
  split
  · rename_i hfits
    refine ⟨h.closed, ?_⟩
    rw [linesSize_append, linesSize_singleton]
    exact hfits
  · split
    · rename_i hfits
      refine ⟨h.close.closed, ?_⟩
      rw [linesSize_singleton]
      exact hfits
    · refine ⟨fun batch hb => ?_, Nat.zero_le _⟩
      rcases List.mem_append.1 hb with hb | hb
      · exact h.close.closed batch hb
      · exact .inr ⟨r, List.mem_singleton.1 hb⟩

theorem foldl_take (h : Bounded capacity p) (steps : List (StreamStep Record)) :
    Bounded capacity (steps.foldl (take capacity) p) := by
  induction steps generalizing p with
  | nil => exact h
  | cons step rest ih =>
    cases step with
    | record r => exact ih (h.put r)
    | flush => exact ih h.close

end Bounded

/-! ## Other packings -/

/-- Ahead of another packing of the same records, which has `count` closed batches and a last one:
there are no more closed batches here, and if there are as many, the last batch here is the end of
the other one. -/
structure Ahead (p : Packing) (count : Nat) (last : List Record) : Prop where
  length_le : p.closed.length ≤ count
  suffix : p.closed.length = count → p.pending <:+ last

namespace Ahead

variable {capacity count : Nat} {p : Packing} {last : List Record}

theorem close (h : p.Ahead count last) : p.Ahead (count + 1) [] where
  length_le := Nat.le_succ_of_le h.length_le
  suffix heq := absurd heq (Nat.ne_of_lt (Nat.lt_succ_of_le h.length_le))

theorem put (h : p.Ahead count last) {r : Record} (hfits : linesSize (last ++ [r]) ≤ capacity) :
    (p.put capacity r).Ahead count (last ++ [r]) := by
  rw [linesSize_append, linesSize_singleton] at hfits
  unfold Packing.put
  split
  · refine ⟨h.length_le, fun heq => ?_⟩
    obtain ⟨front, rfl⟩ := h.suffix heq
    exact ⟨front, (List.append_assoc ..).symm⟩
  · rename_i hfull
    -- a last batch that ends with the full one would have no room either
    have hne : p.closed.length ≠ count := by
      intro heq
      obtain ⟨front, rfl⟩ := h.suffix heq
      rw [linesSize_append] at hfits
      omega
    rw [if_pos (by omega)]
    exact ⟨Packing.length_close_le h.length_le fun heq => absurd heq hne,
      fun _ => List.suffix_append last [r]⟩

theorem foldl_put (h : p.Ahead count last) {batch : List Record}
    (hfits : linesSize (last ++ batch) ≤ capacity) :
    (batch.foldl (Packing.put capacity) p).Ahead count (last ++ batch) := by
  induction batch generalizing p last with
  | nil => rwa [List.append_nil]
  | cons r rest ih =>
    have hassoc : last ++ r :: rest = last ++ [r] ++ rest := by simp
    rw [hassoc] at hfits ⊢
    have hfirst : linesSize (last ++ [r]) ≤ capacity := by
      rw [linesSize_append] at hfits
      omega
    exact ih (h.put hfirst) hfits

theorem foldl_batches (h : p.Ahead count []) {batches : List (List Record)}
    (hfits : ∀ batch ∈ batches, linesSize batch ≤ capacity) :
    (batches.flatten.foldl (Packing.put capacity) p).Ahead (count + batches.length) [] := by
  induction batches generalizing p count with
  | nil => exact h
  | cons batch rest ih =>
    obtain ⟨hbatch, hrest⟩ := List.forall_mem_cons.1 hfits
    rw [List.flatten_cons, List.foldl_append, List.length_cons, Nat.add_comm rest.length,
      ← Nat.add_assoc]
    exact ih (h.foldl_put hbatch).close hrest

theorem length_close_le (h : p.Ahead count []) : p.close.closed.length ≤ count :=
  Packing.length_close_le h.length_le fun heq => List.suffix_nil.1 (h.suffix heq)

end Ahead

theorem ahead_empty : empty.Ahead 0 [] :=
  ⟨Nat.le_refl 0, fun _ => List.suffix_refl []⟩

/-- **No packing has fewer batches.** -/
theorem length_greedy_le {capacity : Nat} {batches : List (List Record)}
    (hfits : ∀ batch ∈ batches, linesSize batch ≤ capacity) :
    (greedy capacity (batches.flatten.map .record)).close.closed.length ≤ batches.length := by
  have hahead := ahead_empty.foldl_batches hfits
  rw [Nat.zero_add] at hahead
  rw [greedy, List.foldl_map]
  exact hahead.length_close_le

end Packing

/-! ## The buffer packs -/

namespace LineBuffer

open Packing

variable {buffer : LineBuffer}

theorem Holds.used_eq {records : List Record} (h : buffer.Holds records) :
    buffer.used = linesSize records := by
  rw [linesSize, ← h, length_contents, size]

theorem append_of_fits {line : Bytes} (h : buffer.used + line.length ≤ buffer.capacity) :
    buffer.append line = (buffer.push line h, []) := by
  have hroom : buffer.makeRoom line = (buffer, []) := by
    rw [makeRoom, if_pos ((fits_iff buffer line.length).2 h)]
  unfold append
  rw [hroom]
  exact dif_pos h

theorem append_of_not_fits {line : Bytes} (h : ¬buffer.used + line.length ≤ buffer.capacity) :
    buffer.append line =
      if h : buffer.drain.1.used + line.length ≤ buffer.drain.1.capacity then
        (buffer.drain.1.push line h, buffer.drain.2)
      else (buffer.drain.1, buffer.drain.2 ++ [line]) := by
  have hroom : buffer.makeRoom line = buffer.drain := by
    rw [makeRoom, if_neg (mt (fits_iff buffer line.length).1 h)]
  unfold append
  rw [hroom]

variable {p : Packing}

theorem Holds.drain_close (h : buffer.Holds p.pending) :
    buffer.drain.1.Holds p.close.pending ∧
      payloads p.closed ++ buffer.drain.2 = payloads p.close.closed := by
  have hempty : buffer.size = 0 ↔ p.pending = [] := by
    rw [size, h.used_eq, linesSize_eq_zero_iff]
  refine ⟨pending_close p ▸ h.drain.1, ?_⟩
  rw [drain_snd, closed_close, payloads_append]
  by_cases hnil : p.pending = []
  · rw [if_pos (hempty.2 hnil), if_pos hnil]
    rfl
  · rw [if_neg (mt hempty.1 hnil), if_neg hnil, h]
    rfl

/-- The buffer holds the last batch, and hands on the batches that are closed. -/
theorem Holds.take (h : buffer.Holds p.pending) (step : StreamStep Record) :
    (buffer.take step).1.Holds (p.take buffer.capacity step).pending ∧
      payloads p.closed ++ (buffer.take step).2 =
        payloads (p.take buffer.capacity step).closed := by
  obtain ⟨hdrained, hclosed⟩ := h.drain_close
  cases step with
  | flush => exact ⟨hdrained, hclosed⟩
  | record r =>
    unfold LineBuffer.take Packing.take put
    dsimp only
    rw [pending_close] at hdrained
    by_cases hfits : linesSize p.pending + r.encode.length ≤ buffer.capacity
    · have hroom : buffer.used + r.encode.length ≤ buffer.capacity := h.used_eq ▸ hfits
      rw [append_of_fits hroom, if_pos hfits]
      refine ⟨?_, List.append_nil _⟩
      rw [Holds, contents_push, h, List.flatMap_append, List.flatMap_singleton]
    · have hroom : ¬buffer.used + r.encode.length ≤ buffer.capacity := h.used_eq ▸ hfits
      have hused : buffer.drain.1.used = 0 := hdrained.used_eq
      rw [append_of_not_fits hroom, if_neg hfits]
      simp only [hused, Nat.zero_add, capacity_drain]
      split
      · refine ⟨?_, hclosed⟩
        rw [Holds, contents_push, hdrained]
        simp
      · refine ⟨hdrained, ?_⟩
        rw [← List.append_assoc, hclosed, payloads_append]
        simp [payloads]

theorem Holds.run (h : buffer.Holds p.pending) (steps : List (StreamStep Record)) :
    (buffer.run steps).1.Holds (steps.foldl (Packing.take buffer.capacity) p).pending ∧
      payloads p.closed ++ (buffer.run steps).2 =
        payloads (steps.foldl (Packing.take buffer.capacity) p).closed := by
  induction steps generalizing buffer p with
  | nil => exact ⟨h, List.append_nil _⟩
  | cons step rest ih =>
    obtain ⟨hheld, hclosed⟩ := h.take step
    have hrest := ih hheld
    rw [capacity_take] at hrest
    refine ⟨hrest.1, ?_⟩
    rw [List.foldl_cons, ← hrest.2, ← hclosed, List.append_assoc]
    rfl

end LineBuffer

theorem eq_map_record {steps : List (StreamStep Record)} (h : .flush ∉ steps) :
    steps = (steps.filterMap StreamStep.item?).map .record := by
  induction steps with
  | nil => rfl
  | cons step rest ih =>
    rw [List.mem_cons, not_or] at h
    cases step with
    | record r => exact congrArg (StreamStep.record r :: ·) (ih h.2)
    | flush => exact absurd rfl h.1

/-! ## The recorder packs -/

namespace Recorder

open Packing

variable {σ : Type} [Sink σ]

/-- The batches that are closed were attempted, and the last one is held. -/
structure Packed (capacity : Nat) (p : Packing) (recorder : Recorder) (attempts : List Attempt) :
    Prop where
  capacity_eq : recorder.buffer.capacity = capacity
  holds : recorder.buffer.Holds p.pending
  attempted : attempts.map Attempt.payload = payloads p.closed

namespace Packed

variable {capacity : Nat} {p : Packing} {recorder : Recorder}

theorem run {watched : Watched σ} (h : Packed capacity p recorder watched.attempts)
    (steps : List (StreamStep Record)) :
    Packed capacity (steps.foldl (take capacity) p) (recorder.run watched steps).1
      (recorder.run watched steps).2.attempts := by
  obtain ⟨rfl, hholds, hattempted⟩ := h
  obtain ⟨hheld, hclosed⟩ := hholds.run steps
  obtain ⟨sink, attempts, hpayloads, hrun⟩ := recorder.run_eq watched steps
  rw [hrun]
  refine ⟨recorder.buffer.capacity_run steps, hheld, ?_⟩
  rw [List.map_append, hattempted, hpayloads, hclosed]

end Packed

/-- **Batches are packed greedily.** Whatever the destination makes of them, the payloads attempted so
far are those of the closed batches of the greedy packing, its last batch is held, and ending the
recorder attempts that one too unless it is empty. The batches hold all records in order. A payload
longer than the buffer is the line of one record. Without a flush, no other way of cutting the
records into batches that fit into the buffer has fewer of them. -/
theorem attempts_packed_greedily {σ : Type} [Sink σ] (capacity : Nat) (hcapacity : 0 < capacity)
    (sink : σ) (steps : List (StreamStep Record)) :
    let records := steps.filterMap StreamStep.item?
    let origin := new (LineBuffer.empty capacity hcapacity)
    let recorder := (origin.run (Watched.start sink) steps).1
    let watched := (origin.run (Watched.start sink) steps).2
    let ended := recorder.finish watched
    let packing := greedy capacity steps
    origin.run sink steps = (recorder, watched.sink) ∧
      recorder.finish watched.sink = ended.sink ∧
      watched.attempts.map Attempt.payload = payloads packing.closed ∧
      recorder.buffer.contents = packing.pending.flatMap Record.encode ∧
      ended.attempts.map Attempt.payload = payloads packing.close.closed ∧
      packing.close.closed.flatten = records ∧
      (∀ payload ∈ ended.attempts.map Attempt.payload, capacity < payload.length →
        ∃ r ∈ records, payload = r.encode) ∧
      (.flush ∉ steps → ∀ batches : List (List Record), batches.flatten = records →
        (∀ batch ∈ batches, linesSize batch ≤ capacity) →
          ended.attempts.length ≤ batches.length) := by
  intro records origin recorder watched ended packing
  have hstart : Packed capacity empty origin (Watched.start sink).attempts :=
    ⟨rfl, LineBuffer.holds_empty capacity hcapacity, rfl⟩
  have h : Packed capacity packing recorder watched.attempts := hstart.run steps
  have hended : Packed capacity packing.close (recorder.run watched [.flush]).1 ended.attempts :=
    h.run [.flush]
  have hrecords : packing.close.closed.flatten = records := by
    have hall := records_foldl_take capacity empty steps
    rw [← records_close, Packing.records, pending_close, List.append_nil] at hall
    exact hall
  refine ⟨run_watched origin (Watched.start sink) steps,
    congrArg Prod.snd (flush_watched recorder watched), h.attempted, h.holds, hended.attempted,
    hrecords, ?_, ?_⟩
  · rw [hended.attempted]
    intro payload hpayload hlong
    obtain ⟨batch, hbatch, rfl⟩ := List.mem_map.1 hpayload
    rcases (Bounded.empty.foldl_take steps).close.closed batch hbatch with hshort | ⟨r, rfl⟩
    · exact absurd hlong (Nat.not_lt.2 hshort)
    · refine ⟨r, ?_, List.flatMap_singleton ..⟩
      rw [← hrecords]
      exact List.mem_flatten_of_mem hbatch List.mem_cons_self
  · intro hflush batches hbatches hfits
    have hsteps : steps = batches.flatten.map .record := by
      rw [hbatches]
      exact eq_map_record hflush
    have hlength : ended.attempts.length = packing.close.closed.length := by
      have hmap := congrArg List.length hended.attempted
      simpa only [payloads, List.length_map] using hmap
    calc ended.attempts.length
        = (greedy capacity (batches.flatten.map .record)).close.closed.length := by
          rw [hlength, ← hsteps]
      _ ≤ batches.length := length_greedy_le hfits

/-- Two calls fill the buffer to the last byte, a third one has to wait, and the definition is
longer than the buffer. The endpoint takes the first payload only. -/
theorem attempts_packed_greedily_exact_fit :
    let endpoint : Endpoint := ⟨"localhost", 80, "/"⟩
    let world : World := ⟨⟨[], []⟩, [⟨endpoint.address, 1, #[]⟩], fun _ => none, 0, ""⟩
    let sink : Outlet × World := (.http endpoint 1000, world)
    let call : Record := .call ⟨none, some ⟨0, by decide⟩, 5⟩
    let definition : Record :=
      .definition ⟨some ⟨0, by decide⟩, 1, 2, 3, 4, 5, "f", false, "/a.js", 6⟩
    let steps : List (StreamStep Record) :=
      [.record call, .record call, .record call, .record definition, .flush, .record call]
    let run := (new (LineBuffer.empty 14 (by decide))).run (Watched.start sink) steps
    (run.1.finish run.2).attempts.map Attempt.payload =
        payloads [[call, call], [call], [definition], [call]] ∧
      Attempt.verdicts (run.1.finish run.2).attempts = [true, false, false, false] ∧
      ∀ batches : List (List Record), batches.flatten = [call, call, call] →
        (∀ batch ∈ batches, linesSize batch ≤ 14) → 2 ≤ batches.length := by
  intro endpoint world sink call definition steps run
  obtain ⟨-, -, -, -, hended, -⟩ := attempts_packed_greedily 14 (by decide) sink steps
  refine ⟨hended.trans (congrArg payloads ?_), ?_, fun batches hbatches hfits => ?_⟩
  · decide +kernel
  · decide +kernel
  · obtain ⟨-, -, -, -, hended, -, -, hfewest⟩ := attempts_packed_greedily 14 (by decide) sink
      [.record call, .record call, .record call]
    have hlength := congrArg List.length hended
    have htwo : (greedy 14 [.record call, .record call, .record call]).close.closed.length = 2 := by
      decide +kernel
    rw [payloads, List.length_map, List.length_map, htwo] at hlength
    rw [← hlength]
    exact hfewest (by simp) batches hbatches hfits

end Recorder

end CallTrace
