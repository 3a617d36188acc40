import CallTrace.Proofs.Record.Trace
import CallTrace.Outlet
import Mathlib.Data.List.Flatten

/-!
# Streams deliver whole records

`Batched batches records`: the batches are the lines of the records, cut between records and each
cut off with at least one. A buffer hands on such batches and keeps the lines of the records after
them (`LineBuffer.Holds`), so a stream on a capturing outlet has delivered or still holds every
record it took (`Stream.Recorded`), whatever the capacity and wherever it was flushed. At its end
all of them are delivered (`Stream.Recorded.finish`), and they are read back from the batches,
together or one by one (`Batched.read_flatten`, `Batched.mapM_read`). On other outlets too every
record that is taken is counted (`Stream.Took.records_stats`).
-/

namespace CallTrace

/-! ## Batches of whole records -/

/-- The batches are the lines of the records, in order and cut between records. -/
def Batched (batches : List Bytes) (records : List Record) : Prop :=
  ∃ groups : List (List Record), (∀ group ∈ groups, group ≠ []) ∧ groups.flatten = records ∧
    batches = groups.map (List.flatMap Record.encode)

namespace Batched

theorem nil : Batched [] [] := ⟨[], by simp, rfl, rfl⟩

theorem singleton {records : List Record} (h : records ≠ []) :
    Batched [records.flatMap Record.encode] records :=
  ⟨[records], by simpa using h, by simp, rfl⟩

theorem append {batches batches' : List Bytes} {records records' : List Record}
    (h : Batched batches records) (h' : Batched batches' records') :
    Batched (batches ++ batches') (records ++ records') := by
  obtain ⟨groups, hne, rfl, rfl⟩ := h
  obtain ⟨groups', hne', rfl, rfl⟩ := h'
  refine ⟨groups ++ groups', fun group hg => ?_, List.flatten_append, List.map_append.symm⟩
  rcases List.mem_append.1 hg with hg | hg
  · exact hne group hg
  · exact hne' group hg

/-- Some of the batches are those of some of the records. -/
theorem sublist {batches batches' : List Bytes} {records : List Record}
    (h : Batched batches records) (hsub : batches'.Sublist batches) :
    ∃ kept, kept.Sublist records ∧ Batched batches' kept := by
  obtain ⟨groups, hne, rfl, rfl⟩ := h
  obtain ⟨groups', hgroups, rfl⟩ := List.sublist_map_iff.1 hsub
  exact ⟨groups'.flatten, hgroups.flatten,
    groups', fun group hg => hne group (hgroups.subset hg), rfl, rfl⟩

theorem flatten {batches : List Bytes} {records : List Record} (h : Batched batches records) :
    batches.flatten = records.flatMap Record.encode := by
  obtain ⟨groups, -, rfl, rfl⟩ := h
  simp only [List.flatMap_def, List.map_flatten, List.flatten_flatten, List.map_map]
  rfl

/-- The records come back from the concatenation of the batches. -/
theorem read_flatten {batches : List Bytes} {records : List Record} (h : Batched batches records) :
    Trace.read batches.flatten = .ok (records.filterMap Record.readBack?) := by
  rw [h.flatten, Trace.read_flatMap_encode]

/-- The records come back from the batches one by one, each of which is a trace in itself. -/
theorem mapM_read {batches : List Bytes} {records : List Record} (h : Batched batches records) :
    ∃ parts, batches.mapM Trace.read = .ok parts ∧
      parts.flatten = records.filterMap Record.readBack? := by
  obtain ⟨groups, -, rfl, rfl⟩ := h
  refine ⟨groups.map (List.filterMap Record.readBack?), ?_, List.filterMap_flatten.symm⟩
  induction groups with
  | nil => rfl
  | cons group rest ih =>
    rw [List.map_cons, List.mapM_cons, ih, Trace.read_flatMap_encode]
    rfl

/-- A batch is not empty, is UTF-8, and ends with a line feed. -/
theorem batch_spec {batches : List Bytes} {records : List Record} (h : Batched batches records)
    {batch : Bytes} (hb : batch ∈ batches) :
    batch ≠ [] ∧ (∃ text, Utf8.decode? batch = some text) ∧ batch.getLast? = some 0x0a := by
  obtain ⟨groups, hne, -, rfl⟩ := h
  obtain ⟨group, hg, rfl⟩ := List.mem_map.1 hb
  have htext : group.flatMap Record.encode = Utf8.encode (group.flatMap Record.toLine) :=
    List.flatMap_assoc.symm
  have hlast : (group.flatMap Record.encode).getLast? = some 0x0a := by
    rw [← List.dropLast_concat_getLast (hne group hg), List.flatMap_append, List.flatMap_singleton,
      Record.encode_eq, ← List.append_assoc, List.getLast?_concat]
  refine ⟨fun he => ?_, ⟨_, Utf8.decode?_eq_some_iff.2 htext⟩, hlast⟩
  rw [he] at hlast
  cases hlast

end Batched

/-! ## The buffer -/

namespace LineBuffer

/-- What is in use are the lines of the records. -/
def Holds (buffer : LineBuffer) (records : List Record) : Prop :=
  buffer.contents = records.flatMap Record.encode

theorem holds_empty (capacity : Nat) (h : 0 < capacity) : (empty capacity h).Holds [] := by
  simp [Holds]

theorem isEmpty_iff (buffer : LineBuffer) : buffer.isEmpty = true ↔ buffer.contents = [] := by
  rw [← List.length_eq_zero_iff, length_contents, size, isEmpty, beq_iff_eq]

theorem fits_iff (buffer : LineBuffer) (count : Nat) :
    buffer.fits count = true ↔ buffer.used + count ≤ buffer.capacity := by
  have := buffer.used_le
  rw [fits, remaining, decide_eq_true_iff]
  omega

theorem drain_snd (buffer : LineBuffer) :
    buffer.drain.2 = if buffer.size = 0 then [] else [buffer.contents] := by
  have hempty : buffer.isEmpty = true ↔ buffer.size = 0 := beq_iff_eq
  rw [drain]
  by_cases h : buffer.size = 0
  · rw [if_pos (hempty.2 h), if_pos h]
  · rw [if_neg (mt hempty.1 h), if_neg h]

/-- Draining hands on all records as one batch, or nothing if there are none. -/
theorem Holds.drain {buffer : LineBuffer} {records : List Record} (h : buffer.Holds records) :
    buffer.drain.1.Holds [] ∧ Batched buffer.drain.2 records := by
  unfold Holds at h
  unfold LineBuffer.drain
  split
  · rename_i he
    rw [isEmpty_iff, h] at he
    cases records with
    | nil => exact ⟨h, Batched.nil⟩
    | cons r rest =>
      rw [List.flatMap_cons] at he
      exact absurd (List.append_eq_nil_iff.1 he).1 r.encode_ne_nil
  · rename_i he
    refine ⟨contents_clear buffer, ?_⟩
    simp only [h]
    refine Batched.singleton fun hnil => he ?_
    rw [isEmpty_iff, h, hnil, List.flatMap_nil]

theorem Holds.makeRoom {buffer : LineBuffer} {records : List Record} (h : buffer.Holds records)
    (line : Bytes) :
    ∃ done held, records = done ++ held ∧ (buffer.makeRoom line).1.Holds held ∧
      Batched (buffer.makeRoom line).2 done ∧
      ((buffer.makeRoom line).1.fits line.length = true ∨ held = []) := by
  unfold LineBuffer.makeRoom
  split
  · rename_i hfits
    exact ⟨[], records, rfl, h, Batched.nil, .inl hfits⟩
  · exact ⟨records, [], by simp, h.drain.1, h.drain.2, .inr rfl⟩

/-- A record that is added comes after those held, and what is handed on for it are the first of
them. -/
theorem Holds.append {buffer : LineBuffer} {records : List Record} (h : buffer.Holds records)
    (r : Record) :
    ∃ done held, records ++ [r] = done ++ held ∧ (buffer.append r.encode).1.Holds held ∧
      Batched (buffer.append r.encode).2 done := by
  obtain ⟨done, held, rfl, hheld, hdone, hroom⟩ := h.makeRoom r.encode
  unfold LineBuffer.append
  generalize buffer.makeRoom r.encode = made at hheld hdone hroom
  obtain ⟨room, payloads⟩ := made
  dsimp only at hheld hdone hroom ⊢
  split
  · rename_i hfits
    refine ⟨done, held ++ [r], List.append_assoc _ _ _, ?_, hdone⟩
    unfold Holds at hheld ⊢
    rw [contents_push, hheld, List.flatMap_append, List.flatMap_singleton]
  · rename_i hfits
    -- the line is longer than the buffer, which was drained for it
    obtain rfl : held = [] := hroom.resolve_left fun hf => hfits ((fits_iff _ _).1 hf)
    refine ⟨done ++ [r], [], by simp, hheld, ?_⟩
    have hr : Batched [r.encode] [r] := by
      simpa using Batched.singleton (List.cons_ne_nil r [])
    exact hdone.append hr

/-- The records are those of the payloads and then those that are held. -/
def Splits (buffer : LineBuffer) (payloads : List Bytes) (records : List Record) : Prop :=
  ∃ done held, records = done ++ held ∧ Batched payloads done ∧ buffer.Holds held

/-- What is handed on for a record goes behind what was handed on before, so the order is kept. -/
theorem Splits.append {buffer : LineBuffer} {payloads : List Bytes} {records : List Record}
    (h : buffer.Splits payloads records) (r : Record) :
    (buffer.append r.encode).1.Splits (payloads ++ (buffer.append r.encode).2)
      (records ++ [r]) := by
  obtain ⟨done, held, rfl, hdone, hheld⟩ := h
  obtain ⟨more, held', heq, hheld', hmore⟩ := hheld.append r
  exact ⟨done ++ more, held', by rw [List.append_assoc, heq, List.append_assoc],
    hdone.append hmore, hheld'⟩

theorem Splits.drain {buffer : LineBuffer} {payloads : List Bytes} {records : List Record}
    (h : buffer.Splits payloads records) :
    buffer.drain.1.Splits (payloads ++ buffer.drain.2) records ∧
      Batched (payloads ++ buffer.drain.2) records := by
  obtain ⟨done, held, rfl, hdone, hheld⟩ := h
  obtain ⟨hempty, hrest⟩ := hheld.drain
  have hall := hdone.append hrest
  exact ⟨⟨_, [], (List.append_nil _).symm, hall, hempty⟩, hall⟩

end LineBuffer

/-! ## The stream -/

@[simp] theorem Stats.records_countDelivery (stats : Stats) (payload : Bytes) (accepted : Bool) :
    (stats.countDelivery payload accepted).records = stats.records := by
  unfold countDelivery
  split <;> rfl

/-- A capturing outlet keeps every batch, and delivering to it changes nothing around it. -/
theorem Recorder.deliverAll_capture (stats : Stats) (batches : Array Bytes) (world : World)
    (payloads : List Bytes) :
    ∃ stats', stats'.records = stats.records ∧
      deliverAll stats (Outlet.capture batches, world) payloads =
        (stats', Outlet.capture (batches ++ payloads.toArray), world) := by
  induction payloads generalizing stats batches with
  | nil => exact ⟨stats, rfl, by simp [deliverAll]⟩
  | cons payload rest ih =>
    obtain ⟨stats', hr, h⟩ := ih (stats.countDelivery payload true) (batches.push payload)
    refine ⟨stats', by rw [hr, Stats.records_countDelivery], ?_⟩
    have hstep : Sink.deliver (Outlet.capture batches, world) payload =
        (true, Outlet.capture (batches.push payload), world) := rfl
    rw [deliverAll, hstep]
    dsimp only
    rw [h]
    simp

namespace Stream

/-- The stream is on a capturing outlet and took the records: it delivered the first of them and
holds the others. -/
def Recorded (stream : Stream) (records : List Record) : Prop :=
  stream.stats.records = records.length ∧
    ∃ batches done held, stream.outlet = .capture batches ∧ Batched batches.toList done ∧
      stream.recorder.buffer.Holds held ∧ records = done ++ held

/-- Ending a stream delivers what waits. -/
theorem finish_eq (stream : Stream) (world : World) :
    stream.finish world = ((stream.flush world).1.outlet, (stream.flush world).2) :=
  rfl

/-- A stream that captures from the start. -/
def capturing (capacity : Nat) (h : 0 < capacity) : Stream :=
  new (LineBuffer.empty capacity h) (.capture #[])

theorem recorded_capturing (capacity : Nat) (h : 0 < capacity) :
    (capturing capacity h).Recorded [] :=
  ⟨rfl, #[], [], [], rfl, Batched.nil, LineBuffer.holds_empty capacity h, rfl⟩

namespace Recorded

variable {stream : Stream} {records : List Record}

theorem record (h : stream.Recorded records) (r : Record) (world : World) :
    (stream.record r world).2 = world ∧
      (stream.record r world).1.Recorded (records ++ [r]) := by
  obtain ⟨⟨buffer, stats⟩, outlet⟩ := stream
  obtain ⟨hstats, batches, done, held, rfl, hdone, hheld, hsplit⟩ := h
  obtain ⟨done', held', hsplit', hdone', hheld'⟩ :=
    LineBuffer.Splits.append ⟨done, held, hsplit, hdone, hheld⟩ r
  obtain ⟨stats', hrec, hdel⟩ :=
    Recorder.deliverAll_capture stats batches world (buffer.append r.encode).2
  simp only [Stream.record, Recorder.record, Recorder.append, hdel]
  refine ⟨trivial, ?_, _, done', held', rfl, by simpa using hdone', hheld', hsplit'⟩
  simp only [Stream.stats, Stats.countRecord, hrec, List.length_append, List.length_singleton]
  exact congrArg (· + 1) hstats

theorem recordAll (h : stream.Recorded records) (more : List Record) (world : World) :
    (stream.recordAll world more).2 = world ∧
      (stream.recordAll world more).1.Recorded (records ++ more) := by
  induction more generalizing stream records with
  | nil => exact ⟨rfl, by simpa [Stream.recordAll] using h⟩
  | cons r rest ih =>
    obtain ⟨hw, hr⟩ := h.record r world
    simp only [Stream.recordAll, hw]
    simpa using ih hr

theorem flush (h : stream.Recorded records) (world : World) :
    (stream.flush world).2 = world ∧ (stream.flush world).1.Recorded records ∧
      ∃ batches, (stream.flush world).1.outlet = .capture batches ∧
        Batched batches.toList records := by
  obtain ⟨⟨buffer, stats⟩, outlet⟩ := stream
  obtain ⟨hstats, batches, done, held, rfl, hdone, hheld, hsplit⟩ := h
  obtain ⟨⟨done', held', hsplit', hdone', hheld'⟩, hall⟩ :=
    LineBuffer.Splits.drain ⟨done, held, hsplit, hdone, hheld⟩
  obtain ⟨stats', hrec, hdel⟩ := Recorder.deliverAll_capture stats batches world buffer.drain.2
  simp only [Stream.flush, Recorder.flush, hdel]
  refine ⟨trivial, ⟨?_, _, done', held', rfl, by simpa using hdone', hheld', hsplit'⟩, _, rfl,
    by simpa using hall⟩
  simpa only [Stream.stats, hrec] using hstats

/-- **At its end a stream has delivered all records.** -/
theorem finish (h : stream.Recorded records) (world : World) :
    ∃ batches, stream.finish world = (.capture batches, world) ∧
      Batched batches.toList records := by
  obtain ⟨hw, -, batches, hout, hb⟩ := h.flush world
  exact ⟨batches, (finish_eq stream world).trans (Prod.ext hout hw), hb⟩

end Recorded

end Stream

/-! ## What a stream took -/

theorem Recorder.records_deliverAll {σ : Type} [Sink σ] (stats : Stats) (sink : σ)
    (payloads : List Bytes) : (deliverAll stats sink payloads).1.records = stats.records := by
  induction payloads generalizing stats sink with
  | nil => rfl
  | cons payload rest ih =>
    rw [deliverAll]
    exact (ih _ _).trans (Stats.records_countDelivery ..)

namespace Stream

/-- A stream came from another one by taking the records, on whatever outlet and with deliveries
wherever they were asked for. -/
inductive Took (first : Stream) : List Record → Stream → Prop
  | nil : Took first [] first
  | record {records : List Record} {stream : Stream} (h : Took first records stream) (r : Record)
      (world : World) : Took first (records ++ [r]) (stream.record r world).1
  | flush {records : List Record} {stream : Stream} (h : Took first records stream)
      (world : World) : Took first records (stream.flush world).1

namespace Took

variable {first stream : Stream} {records : List Record}

theorem recordAll (h : first.Took records stream) (more : List Record) (world : World) :
    first.Took (records ++ more) (stream.recordAll world more).1 := by
  induction more generalizing stream records world with
  | nil => rwa [List.append_nil]
  | cons r rest ih =>
    have hrest := ih (h.record r world) (stream.record r world).2
    rwa [List.append_assoc] at hrest

theorem trans (h : first.Took records stream) {more : List Record} {last : Stream}
    (hlast : stream.Took more last) : first.Took (records ++ more) last := by
  induction hlast with
  | nil => rwa [List.append_nil]
  | record _ r world ih =>
    rw [← List.append_assoc]
    exact ih.record r world
  | flush _ world ih => exact ih.flush world

/-- Every record that is taken is counted. -/
theorem records_stats (h : first.Took records stream) :
    stream.stats.records = first.stats.records + records.length := by
  induction h with
  | nil => rfl
  | @record records stream _ r world ih =>
    have hcount : (stream.record r world).1.stats.records = stream.stats.records + 1 :=
      congrArg (· + 1) (Recorder.records_deliverAll ..)
    rw [hcount, ih, List.length_append, List.length_singleton, Nat.add_assoc]
  | @flush records stream _ world ih =>
    exact (Recorder.records_deliverAll ..).trans ih

/-- On a capturing outlet what is taken is recorded. -/
theorem recorded (h : first.Took records stream) {earlier : List Record}
    (hfirst : first.Recorded earlier) : stream.Recorded (earlier ++ records) := by
  induction h with
  | nil => rwa [List.append_nil]
  | record _ r world ih =>
    rw [← List.append_assoc]
    exact (ih.record r world).2
  | flush _ world ih => exact (ih.flush world).2.1

end Took

end Stream

/-! ## Runs -/

/-- A step of a stream: an item is recorded, or what waits is delivered. -/
inductive StreamStep (α : Type) where
  | record (item : α)
  | flush

/-- The item that a step records. -/
def StreamStep.item? {α : Type} : StreamStep α → Option α
  | record item => some item
  | flush => none

namespace Stream

variable {α : Type} (toRecord : α → Record)

/-- Takes steps one after the other. -/
def run (stream : Stream) (world : World) : List (StreamStep α) → Stream × World
  | [] => (stream, world)
  | .record item :: rest =>
    match stream.record (toRecord item) world with
    | (stream, world) => stream.run world rest
  | .flush :: rest =>
    match stream.flush world with
    | (stream, world) => stream.run world rest

/-- What a stream with a buffer of the given capacity delivers when it takes steps and ends. -/
def deliveries (capacity : Nat) (h : 0 < capacity) (steps : List (StreamStep α)) (world : World) :
    List Bytes :=
  match (capturing capacity h).run toRecord world steps with
  | (stream, world) => (stream.finish world).1.batches

theorem Recorded.run {stream : Stream} {records : List Record} (h : stream.Recorded records)
    (steps : List (StreamStep α)) (world : World) :
    (stream.run toRecord world steps).1.Recorded
      (records ++ (steps.filterMap StreamStep.item?).map toRecord) := by
  induction steps generalizing stream records world with
  | nil => simpa [Stream.run] using h
  | cons step rest ih =>
    cases step with
    | record item =>
      have hr := (h.record (toRecord item) world).2
      simpa [Stream.run, StreamStep.item?] using ih hr (stream.record (toRecord item) world).2
    | flush =>
      have hf := (h.flush world).2.1
      simpa [Stream.run, List.filterMap_cons, StreamStep.item?] using ih hf (stream.flush world).2

/-- Whatever the capacity and wherever it was flushed, a stream delivers the items it took. -/
theorem batched_deliveries (capacity : Nat) (h : 0 < capacity) (steps : List (StreamStep α))
    (world : World) :
    Batched (deliveries toRecord capacity h steps world)
      ((steps.filterMap StreamStep.item?).map toRecord) := by
  have hrun := Recorded.run toRecord (recorded_capturing capacity h) steps world
  obtain ⟨batches, hfinish, hb⟩ :=
    hrun.finish ((capturing capacity h).run toRecord world steps).2
  rw [List.nil_append] at hb
  simpa [deliveries, hfinish, Outlet.batches] using hb

end Stream

end CallTrace
