import CallTrace.Proofs.Stream.Batches

/-!
# A recorder on a destination that fails

A destination may lose any of the payloads that it is to take. `Watched` lets it be while it keeps
the attempts at delivering to it, so a recorder does the same on a watched destination
(`Recorder.run_watched`). What is attempted does not depend on what becomes of it: the payloads are
the lines of the first records, the others are held, and the counters tell of the attempts
(`Recorder.Accounts`). So no record is lost uncounted, and none is sent twice
(`Recorder.conservation`).
-/

namespace CallTrace

/-! ## Attempts -/

/-- A payload that was to be delivered, and whether it was accepted. -/
structure Attempt where
  payload : Bytes
  accepted : Bool

namespace Attempt

/-- What was accepted. -/
def acceptedPayloads (attempts : List Attempt) : List Bytes :=
  (attempts.filter fun attempt => attempt.accepted).map payload

/-- What was lost. -/
def lostPayloads (attempts : List Attempt) : List Bytes :=
  (attempts.filter fun attempt => !attempt.accepted).map payload

theorem length_flatten_payloads (attempts : List Attempt) :
    (acceptedPayloads attempts).flatten.length + (lostPayloads attempts).flatten.length =
      (attempts.map payload).flatten.length := by
  induction attempts with
  | nil => rfl
  | cons attempt rest ih =>
    obtain ⟨payload, accepted⟩ := attempt
    unfold acceptedPayloads lostPayloads at ih ⊢
    cases accepted <;> simp only [List.filter_cons, Bool.not_true, Bool.not_false, if_true,
      Bool.false_eq_true, if_false, List.map_cons, List.flatten_cons, List.length_append] <;> omega

end Attempt

/-- The counters after a number of records and these attempts. -/
def Stats.ofAttempts (records : Nat) (attempts : List Attempt) : Stats where
  records := records
  flushes := attempts.length
  bytesFlushed := (Attempt.acceptedPayloads attempts).flatten.length
  failedFlushes := (Attempt.lostPayloads attempts).length
  droppedBytes := (Attempt.lostPayloads attempts).flatten.length

namespace Stats

/-- With more records and attempts counted. -/
def tally (stats : Stats) (records : Nat) (attempts : List Attempt) : Stats where
  records := stats.records + records
  flushes := stats.flushes + attempts.length
  bytesFlushed := stats.bytesFlushed + (Attempt.acceptedPayloads attempts).flatten.length
  failedFlushes := stats.failedFlushes + (Attempt.lostPayloads attempts).length
  droppedBytes := stats.droppedBytes + (Attempt.lostPayloads attempts).flatten.length

variable (stats : Stats)

theorem tally_nil : stats.tally 0 [] = stats :=
  rfl

theorem tally_tally (records more : Nat) (attempts later : List Attempt) :
    (stats.tally records attempts).tally more later =
      stats.tally (records + more) (attempts ++ later) := by
  simp [tally, Attempt.acceptedPayloads, Attempt.lostPayloads, Nat.add_assoc]

theorem countDelivery_eq_tally (attempt : Attempt) :
    stats.countDelivery attempt.payload attempt.accepted = stats.tally 0 [attempt] := by
  obtain ⟨payload, accepted⟩ := attempt
  cases accepted <;>
    simp [countDelivery, tally, Attempt.acceptedPayloads, Attempt.lostPayloads]

theorem ofAttempts_tally (records more : Nat) (attempts later : List Attempt) :
    (ofAttempts records attempts).tally more later =
      ofAttempts (records + more) (attempts ++ later) := by
  simp [tally, ofAttempts, Attempt.acceptedPayloads, Attempt.lostPayloads]

end Stats

/-! ## Watched destinations -/

/-- A destination, and what was attempted on it since it is watched. -/
structure Watched (σ : Type) where
  sink : σ
  attempts : List Attempt

/-- Watches a destination from now on. -/
def Watched.start {σ : Type} (sink : σ) : Watched σ :=
  ⟨sink, []⟩

instance {σ : Type} [Sink σ] : Sink (Watched σ) where
  deliver watched payload :=
    match Sink.deliver watched.sink payload with
    | (accepted, sink) => (accepted, ⟨sink, watched.attempts ++ [⟨payload, accepted⟩]⟩)

theorem Watched.deliver_eq {σ : Type} [Sink σ] (watched : Watched σ) (payload : Bytes) :
    ∃ attempt : Attempt, attempt.payload = payload ∧
      Sink.deliver watched.sink payload =
        (attempt.accepted, (Sink.deliver watched.sink payload).2) ∧
      Sink.deliver watched payload =
        (attempt.accepted,
          ⟨(Sink.deliver watched.sink payload).2, watched.attempts ++ [attempt]⟩) :=
  ⟨⟨payload, (Sink.deliver watched.sink payload).1⟩, rfl, rfl, rfl⟩

namespace Recorder

variable {σ : Type} [Sink σ]

/-- Takes steps one after the other. -/
def run (recorder : Recorder) (sink : σ) : List (StreamStep Record) → Recorder × σ
  | [] => (recorder, sink)
  | .record r :: rest =>
    match recorder.record r sink with
    | (recorder, sink) => recorder.run sink rest
  | .flush :: rest =>
    match recorder.flush sink with
    | (recorder, sink) => recorder.run sink rest

section
variable (recorder : Recorder) (watched : Watched σ)

theorem deliverAll_watched (stats : Stats) (payloads : List Bytes) :
    deliverAll stats watched.sink payloads =
      ((deliverAll stats watched payloads).1, (deliverAll stats watched payloads).2.sink) := by
  induction payloads generalizing stats watched with
  | nil => rfl
  | cons payload rest ih =>
    obtain ⟨attempt, -, hsink, hwatched⟩ := watched.deliver_eq payload
    rw [deliverAll, deliverAll, hsink, hwatched]
    exact ih ⟨_, _⟩ _

theorem flush_watched :
    recorder.flush watched.sink =
      ((recorder.flush watched).1, (recorder.flush watched).2.sink) := by
  simp only [flush, deliverAll_watched]

theorem record_watched (r : Record) :
    recorder.record r watched.sink =
      ((recorder.record r watched).1, (recorder.record r watched).2.sink) := by
  simp only [record, append, deliverAll_watched]

/-- Watching a destination changes nothing. -/
theorem run_watched (steps : List (StreamStep Record)) :
    recorder.run watched.sink steps =
      ((recorder.run watched steps).1, (recorder.run watched steps).2.sink) := by
  induction steps generalizing recorder watched with
  | nil => rfl
  | cons step rest ih =>
    cases step with
    | record r => simp only [run, record_watched, ih]
    | flush => simp only [run, flush_watched, ih]

end

/-- Every payload is attempted once, in order and whatever became of those before it. -/
theorem deliverAll_eq (stats : Stats) (watched : Watched σ) (payloads : List Bytes) :
    ∃ sink attempts, attempts.map Attempt.payload = payloads ∧
      deliverAll stats watched payloads =
        (stats.tally 0 attempts, ⟨sink, watched.attempts ++ attempts⟩) := by
  induction payloads generalizing stats watched with
  | nil => exact ⟨watched.sink, [], rfl, by simp [deliverAll, Stats.tally_nil]⟩
  | cons payload rest ih =>
    obtain ⟨attempt, rfl, -, hstep⟩ := watched.deliver_eq payload
    obtain ⟨sink, attempts, rfl, h⟩ := ih (stats.tally 0 [attempt])
      ⟨(Sink.deliver watched.sink attempt.payload).2, watched.attempts ++ [attempt]⟩
    refine ⟨sink, attempt :: attempts, rfl, ?_⟩
    rw [deliverAll, hstep]
    dsimp only
    rw [Stats.countDelivery_eq_tally, h, Stats.tally_tally, List.append_assoc]
    rfl

theorem deliverAll_attempts (records : Nat) (watched : Watched σ) (payloads : List Bytes) :
    ∃ sink attempts, attempts.map Attempt.payload = payloads ∧
      deliverAll (Stats.ofAttempts records watched.attempts) watched payloads =
        (Stats.ofAttempts records (watched.attempts ++ attempts),
          ⟨sink, watched.attempts ++ attempts⟩) := by
  obtain ⟨sink, attempts, hattempts, h⟩ :=
    deliverAll_eq (Stats.ofAttempts records watched.attempts) watched payloads
  refine ⟨sink, attempts, hattempts, ?_⟩
  rw [h, Stats.ofAttempts_tally]
  rfl

/-! ## Accounts -/

/-- The attempts were at delivering the first of the records, the others are held, and the counters
tell of all of that. -/
structure Accounts (records : List Record) (recorder : Recorder) (attempts : List Attempt) :
    Prop where
  stats_eq : recorder.stats = Stats.ofAttempts records.length attempts
  splits : recorder.buffer.Splits (attempts.map Attempt.payload) records

namespace Accounts

variable {records : List Record} {recorder : Recorder} {attempts : List Attempt}

theorem new (capacity : Nat) (h : 0 < capacity) :
    Accounts [] (Recorder.new (LineBuffer.empty capacity h)) [] :=
  ⟨rfl, [], [], rfl, Batched.nil, LineBuffer.holds_empty capacity h⟩

theorem record {watched : Watched σ} (h : Accounts records recorder watched.attempts)
    (r : Record) :
    Accounts (records ++ [r]) (recorder.record r watched).1
      (recorder.record r watched).2.attempts := by
  obtain ⟨buffer, stats⟩ := recorder
  obtain ⟨rfl, hsplits⟩ := h
  obtain ⟨sink, attempts, hattempts, hdel⟩ :=
    deliverAll_attempts records.length watched (buffer.append r.encode).2
  have hlength : (records ++ [r]).length = records.length + 1 := List.length_append
  have hsplits' := LineBuffer.Splits.append hsplits r
  rw [← hattempts, ← List.map_append] at hsplits'
  simp only [Recorder.record, Recorder.append, hdel]
  exact ⟨by rw [hlength]; rfl, hsplits'⟩

/-- Flushing attempts what is held, if that is anything, and holds nothing afterwards. -/
theorem flush {watched : Watched σ} (h : Accounts records recorder watched.attempts) :
    Accounts records (recorder.flush watched).1 (recorder.flush watched).2.attempts ∧
      Batched ((recorder.flush watched).2.attempts.map Attempt.payload) records ∧
      (recorder.flush watched).2.attempts.map Attempt.payload =
        watched.attempts.map Attempt.payload ++ recorder.buffer.drain.2 := by
  obtain ⟨buffer, stats⟩ := recorder
  obtain ⟨rfl, hsplits⟩ := h
  obtain ⟨sink, attempts, hattempts, hdel⟩ :=
    deliverAll_attempts records.length watched buffer.drain.2
  obtain ⟨hsplits', hall⟩ := LineBuffer.Splits.drain hsplits
  rw [← hattempts, ← List.map_append] at hsplits' hall
  simp only [Recorder.flush, hdel]
  exact ⟨⟨rfl, hsplits'⟩, hall, by rw [List.map_append, hattempts]⟩

theorem run {watched : Watched σ} (h : Accounts records recorder watched.attempts)
    (steps : List (StreamStep Record)) :
    Accounts (records ++ steps.filterMap StreamStep.item?) (recorder.run watched steps).1
      (recorder.run watched steps).2.attempts := by
  induction steps generalizing records recorder watched with
  | nil => rwa [List.filterMap_nil, List.append_nil]
  | cons step rest ih =>
    cases step with
    | record r =>
      have hrest := ih (h.record r)
      rwa [List.append_assoc] at hrest
    | flush => exact ih h.flush.1

/-- All that was recorded was attempted or is held, in order. -/
theorem flatten_append_contents (h : Accounts records recorder attempts) :
    (attempts.map Attempt.payload).flatten ++ recorder.buffer.contents =
      records.flatMap Record.encode := by
  obtain ⟨-, done, held, rfl, hdone, hheld⟩ := h
  rw [hdone.flatten, hheld, List.flatMap_append]

/-- What was accepted are lines of some of the records. -/
theorem batched_acceptedPayloads (h : Accounts records recorder attempts) :
    ∃ kept, kept.Sublist records ∧ Batched (Attempt.acceptedPayloads attempts) kept := by
  obtain ⟨-, done, held, rfl, hdone, -⟩ := h
  obtain ⟨kept, hkept, hb⟩ := hdone.sublist (List.filter_sublist.map Attempt.payload)
  exact ⟨kept, hkept.trans (List.sublist_append_left done held), hb⟩

theorem bytes_add_size (h : Accounts records recorder attempts) :
    recorder.stats.bytesFlushed + recorder.stats.droppedBytes + recorder.buffer.size =
      (records.flatMap Record.encode).length := by
  rw [← h.flatten_append_contents, List.length_append, LineBuffer.length_contents,
    ← Attempt.length_flatten_payloads, h.stats_eq]
  rfl

end Accounts

/-- **No record is lost uncounted, and none is sent twice.** Whatever the capacity, the destination
and the steps, the payloads attempted and then the bytes held are the lines of the records in order,
each of them whole in one payload or held. What was accepted are whole lines of some of the records,
each at most once and in order. The counters tell of the records, of the attempts and of what became
of them, and ending the recorder attempts the rest. -/
theorem conservation {σ : Type} [Sink σ] (capacity : Nat) (hcapacity : 0 < capacity) (sink : σ)
    (steps : List (StreamStep Record)) :
    let records := steps.filterMap StreamStep.item?
    let origin := new (LineBuffer.empty capacity hcapacity)
    let recorder := (origin.run (Watched.start sink) steps).1
    let watched := (origin.run (Watched.start sink) steps).2
    let attempted := watched.attempts.map Attempt.payload
    let ended := recorder.finish watched
    origin.run sink steps = (recorder, watched.sink) ∧
      attempted.flatten ++ recorder.buffer.contents = records.flatMap Record.encode ∧
      (∃ done held, records = done ++ held ∧ Batched attempted done ∧
        recorder.buffer.Holds held) ∧
      (∃ kept, kept.Sublist records ∧
        Batched (Attempt.acceptedPayloads watched.attempts) kept) ∧
      recorder.stats = Stats.ofAttempts records.length watched.attempts ∧
      recorder.stats.bytesFlushed + recorder.stats.droppedBytes + recorder.buffer.size =
        (records.flatMap Record.encode).length ∧
      recorder.finish watched.sink = ended.sink ∧
      ended.attempts.map Attempt.payload =
        (if recorder.buffer.size = 0 then attempted
          else attempted ++ [recorder.buffer.contents]) ∧
      Batched (ended.attempts.map Attempt.payload) records := by
  intro records origin recorder watched attempted ended
  have hstart : Accounts [] origin (Watched.start sink).attempts := Accounts.new capacity hcapacity
  have h : Accounts records recorder watched.attempts := hstart.run steps
  obtain ⟨-, hended, hlast⟩ := h.flush
  refine ⟨run_watched origin (Watched.start sink) steps, h.flatten_append_contents, h.splits,
    h.batched_acceptedPayloads, h.stats_eq, h.bytes_add_size,
    congrArg Prod.snd (flush_watched recorder watched), hlast.trans ?_, hended⟩
  rw [LineBuffer.drain_snd]
  split
  · exact List.append_nil _
  · rfl

/-- An endpoint that takes one request only: the first call is accepted, the definition, which is
longer than the buffer, and the second call are lost, and the third call is still held. -/
theorem conservation_refused :
    let endpoint : Endpoint := ⟨"localhost", 80, "/"⟩
    let world : World := ⟨⟨[], []⟩, [⟨endpoint.address, 1, #[]⟩], fun _ => none, 0, ""⟩
    let sink : Outlet × World := (.http endpoint 1000, world)
    let call : Record := .call ⟨none, some ⟨0, by decide⟩, 5⟩
    let definition : Record :=
      .definition ⟨some ⟨0, by decide⟩, 1, 2, 3, 4, 5, "f", false, "/a.js", 6⟩
    let steps : List (StreamStep Record) :=
      [.record call, .record definition, .record call, .flush, .record call]
    let recorder := ((new (LineBuffer.empty 16 (by decide))).run sink steps).1
    recorder.stats = ⟨4, 3, 7, 2, 29⟩ ∧ recorder.buffer.size = 7 ∧
      7 + 29 + 7 = ([call, definition, call, call].flatMap Record.encode).length := by
  intro endpoint world sink call definition steps recorder
  obtain ⟨hrun, -, -, -, -, hbytes, -⟩ := conservation 16 (by decide) sink steps
  have hstats : recorder.stats = ⟨4, 3, 7, 2, 29⟩ := by decide +kernel
  have hsize : recorder.buffer.size = 7 := by decide +kernel
  rw [← congrArg Prod.fst hrun] at hbytes
  have hbytes : recorder.stats.bytesFlushed + recorder.stats.droppedBytes + recorder.buffer.size =
      ([call, definition, call, call].flatMap Record.encode).length := hbytes
  rw [hstats, hsize] at hbytes
  exact ⟨hstats, hsize, hbytes⟩

end Recorder

end CallTrace
