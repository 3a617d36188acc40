import CallTrace.Proofs.Stream.Conservation

/-!
# What a destination has a say in

A recorder attempts the payloads that its buffer hands on, whatever becomes of them
(`LineBuffer.run`). Its destination has a say only in whether each of them is accepted, and that
shows in the counters alone (`Recorder.run_eq`, `Stream.stats_run`). So recorders that are alike and
take the same steps attempt the same and stay alike, on whatever destinations, as long as the
verdicts are the same (`Recorder.run_congr`, `Stream.run_congr`). A stream keeps its capacity, an
outlet that is not a capturing one, and the environment around it (`Stream.run_keeps`).
-/

namespace CallTrace

/-! ## Steps of a buffer -/

namespace LineBuffer

/-- The buffer after a step, and what it hands on. -/
def take (buffer : LineBuffer) : StreamStep Record → LineBuffer × List Bytes
  | .record r => buffer.append r.encode
  | .flush => buffer.drain

/-- The buffer after steps, and what it hands on. -/
def run (buffer : LineBuffer) : List (StreamStep Record) → LineBuffer × List Bytes
  | [] => (buffer, [])
  | step :: rest =>
    (((buffer.take step).1.run rest).1, (buffer.take step).2 ++ ((buffer.take step).1.run rest).2)

theorem capacity_drain (buffer : LineBuffer) : buffer.drain.1.capacity = buffer.capacity := by
  unfold drain
  split <;> rfl

theorem capacity_take (buffer : LineBuffer) (step : StreamStep Record) :
    (buffer.take step).1.capacity = buffer.capacity := by
  cases step with
  | record r =>
    have hroom : (buffer.makeRoom r.encode).1.capacity = buffer.capacity := by
      unfold makeRoom
      split
      · rfl
      · exact buffer.capacity_drain
    unfold take append
    dsimp only
    split
    · exact hroom
    · exact hroom
  | flush => exact buffer.capacity_drain

theorem capacity_run (buffer : LineBuffer) (steps : List (StreamStep Record)) :
    (buffer.run steps).1.capacity = buffer.capacity := by
  induction steps generalizing buffer with
  | nil => rfl
  | cons step rest ih => exact (ih _).trans (buffer.capacity_take step)

end LineBuffer

/-! ## Steps of a recorder -/

/-- The verdicts on attempts. -/
def Attempt.verdicts (attempts : List Attempt) : List Bool :=
  attempts.map accepted

theorem Attempt.eq_of_payloads_of_verdicts {attempts attempts' : List Attempt}
    (hpayloads : attempts.map payload = attempts'.map payload)
    (hverdicts : verdicts attempts = verdicts attempts') : attempts = attempts' := by
  have hpairs (attempts : List Attempt) :
      attempts = List.zipWith mk (attempts.map payload) (verdicts attempts) := by
    simp [verdicts]
  rw [hpairs attempts, hpairs attempts', hpayloads, hverdicts]

namespace Recorder

variable {σ τ : Type} [Sink σ] [Sink τ]

theorem fst_run (recorder : Recorder) (sink : σ) (steps : List (StreamStep Record)) :
    (recorder.run sink steps).1 = (recorder.run (Watched.start sink) steps).1 :=
  congrArg Prod.fst (recorder.run_watched (Watched.start sink) steps)

theorem run_cons_eq (recorder : Recorder) (watched : Watched σ) (step : StreamStep Record)
    (rest : List (StreamStep Record)) :
    ∃ sink attempts, attempts.map Attempt.payload = (recorder.buffer.take step).2 ∧
      recorder.run watched (step :: rest) =
        run ⟨(recorder.buffer.take step).1,
          recorder.stats.tally step.item?.toList.length attempts⟩
          ⟨sink, watched.attempts ++ attempts⟩ rest := by
  obtain ⟨buffer, stats⟩ := recorder
  obtain ⟨sink, attempts, hattempts, h⟩ := deliverAll_eq stats watched (buffer.take step).2
  refine ⟨sink, attempts, hattempts, ?_⟩
  cases step with
  | record r =>
    unfold LineBuffer.take at h
    simp only [run, record, append, h]
    rfl
  | flush =>
    unfold LineBuffer.take at h
    simp only [run, flush, h]
    rfl

/-- **What a destination has a say in:** the buffer and the payloads do not depend on it, and the
counters tell of the records and of the attempts. -/
theorem run_eq (recorder : Recorder) (watched : Watched σ) (steps : List (StreamStep Record)) :
    ∃ sink attempts, attempts.map Attempt.payload = (recorder.buffer.run steps).2 ∧
      recorder.run watched steps =
        (⟨(recorder.buffer.run steps).1,
          recorder.stats.tally (steps.filterMap StreamStep.item?).length attempts⟩,
          ⟨sink, watched.attempts ++ attempts⟩) := by
  induction steps generalizing recorder watched with
  | nil => exact ⟨watched.sink, [], rfl, by simp [run, LineBuffer.run, Stats.tally_nil]⟩
  | cons step rest ih =>
    obtain ⟨sink, attempts, hattempts, hstep⟩ := recorder.run_cons_eq watched step rest
    obtain ⟨sink', attempts', hattempts', hrest⟩ :=
      ih ⟨(recorder.buffer.take step).1, recorder.stats.tally step.item?.toList.length attempts⟩
        ⟨sink, watched.attempts ++ attempts⟩
    have hlength : ((step :: rest).filterMap StreamStep.item?).length =
        step.item?.toList.length + (rest.filterMap StreamStep.item?).length := by
      cases step with
      | record r => exact Nat.add_comm _ 1
      | flush => exact (Nat.zero_add _).symm
    refine ⟨sink', attempts ++ attempts', ?_, ?_⟩
    · rw [List.map_append, hattempts, hattempts']
      rfl
    · rw [hstep, hrest, Stats.tally_tally, hlength, List.append_assoc]
      rfl

/-- With the same verdicts, recorders that are alike attempt the same and stay alike. -/
theorem run_congr (recorder : Recorder) (sink : σ) (sink' : τ) (steps : List (StreamStep Record))
    (hverdicts :
      Attempt.verdicts (recorder.run (Watched.start sink) steps).2.attempts =
        Attempt.verdicts (recorder.run (Watched.start sink') steps).2.attempts) :
    (recorder.run sink steps).1 = (recorder.run sink' steps).1 ∧
      (recorder.run (Watched.start sink) steps).2.attempts =
        (recorder.run (Watched.start sink') steps).2.attempts := by
  obtain ⟨last, attempts, hpayloads, h⟩ := recorder.run_eq (Watched.start sink) steps
  obtain ⟨last', attempts', hpayloads', h'⟩ := recorder.run_eq (Watched.start sink') steps
  rw [h, h'] at hverdicts
  have hsame : attempts = attempts' :=
    Attempt.eq_of_payloads_of_verdicts (hpayloads.trans hpayloads'.symm) hverdicts
  constructor
  · calc (recorder.run sink steps).1
        = (recorder.run (Watched.start sink) steps).1 := recorder.fst_run sink steps
      _ = (recorder.run (Watched.start sink') steps).1 := by rw [h, h', hsame]
      _ = (recorder.run sink' steps).1 := (recorder.fst_run sink' steps).symm
  · rw [h, h', hsame]
    rfl

/-- What deliveries keep of a destination is kept by steps. -/
theorem run_keeps {P : σ → Prop}
    (hdeliver : ∀ sink payload, P sink → P (Sink.deliver sink payload).2) (recorder : Recorder)
    {sink : σ} (h : P sink) (steps : List (StreamStep Record)) :
    P (recorder.run sink steps).2 := by
  have hall (stats : Stats) (payloads : List Bytes) {sink : σ} (h : P sink) :
      P (deliverAll stats sink payloads).2 := by
    induction payloads generalizing stats sink with
    | nil => exact h
    | cons payload rest ih => exact ih _ (hdeliver sink payload h)
  induction steps generalizing recorder sink with
  | nil => exact h
  | cons step rest ih =>
    obtain ⟨buffer, stats⟩ := recorder
    cases step with
    | record r => exact ih _ (hall stats _ h)
    | flush => exact ih _ (hall stats _ h)

end Recorder

/-! ## Steps of a stream -/

/-- What happens on a stream: the records that it takes, and its attempts to deliver. -/
structure Traffic where
  records : List Record
  attempts : List Attempt

def Traffic.none : Traffic :=
  ⟨[], []⟩

/-- The verdicts of the outlet. -/
def Traffic.verdicts (traffic : Traffic) : List Bool :=
  Attempt.verdicts traffic.attempts

/-- What the delivery of a batch leaves as it is: an outlet that does not capture, and the
environment. -/
theorem Outlet.deliver_keeps (outlet : Outlet) (world : World) (batch : Bytes) :
    ((∀ batches, outlet ≠ capture batches) → (outlet.deliver world batch).2.1 = outlet) ∧
      (outlet.deliver world batch).2.2.environment = world.environment := by
  cases outlet with
  | null => exact ⟨fun _ => rfl, rfl⟩
  | capture batches => exact ⟨fun h => absurd rfl (h batches), rfl⟩
  | file path place =>
    unfold deliver
    dsimp only
    split
    · exact ⟨fun _ => rfl, rfl⟩
    · exact ⟨fun _ => rfl, rfl⟩
  | http endpoint timeout =>
    unfold deliver
    dsimp only
    split
    · exact ⟨fun _ => rfl, rfl⟩
    · exact ⟨fun _ => rfl, rfl⟩

namespace Stream

/-- What happens on a stream that takes steps. -/
def traffic (stream : Stream) (world : World) (steps : List (StreamStep Record)) : Traffic where
  records := steps.filterMap StreamStep.item?
  attempts := (stream.recorder.run (Watched.start (stream.outlet, world)) steps).2.attempts

theorem run_eq (stream : Stream) (world : World) (steps : List (StreamStep Record)) :
    let taken := stream.recorder.run (stream.outlet, world) steps
    stream.run id world steps = (⟨taken.1, taken.2.1⟩, taken.2.2) := by
  induction steps generalizing stream world with
  | nil => rfl
  | cons step rest ih =>
    cases step with
    | record r => exact ih _ _
    | flush => exact ih _ _

theorem recordAll_eq_run (stream : Stream) (world : World) (records : List Record) :
    stream.recordAll world records = stream.run id world (records.map .record) := by
  induction records generalizing stream world with
  | nil => rfl
  | cons r rest ih => exact ih _ _

theorem stats_run (stream : Stream) (world : World) (steps : List (StreamStep Record)) :
    (stream.run id world steps).1.stats =
      stream.stats.tally (stream.traffic world steps).records.length
        (stream.traffic world steps).attempts := by
  obtain ⟨recorder, outlet⟩ := stream
  obtain ⟨sink, attempts, -, h⟩ := recorder.run_eq (Watched.start (outlet, world)) steps
  rw [run_eq, traffic, stats, recorder.fst_run, h]
  rfl

/-- With the same verdicts, the same happens on streams with the same recorder, and they keep it. -/
theorem run_congr {stream stream' : Stream} (h : stream.recorder = stream'.recorder)
    {world world' : World} {steps : List (StreamStep Record)}
    (hverdicts : (stream.traffic world steps).verdicts = (stream'.traffic world' steps).verdicts) :
    (stream.run id world steps).1.recorder = (stream'.run id world' steps).1.recorder ∧
      stream.traffic world steps = stream'.traffic world' steps := by
  obtain ⟨recorder, outlet⟩ := stream
  obtain ⟨_, outlet'⟩ := stream'
  subst h
  obtain ⟨hrecorder, hattempts⟩ :=
    recorder.run_congr (outlet, world) (outlet', world') steps hverdicts
  constructor
  · rw [run_eq, run_eq]
    exact hrecorder
  · exact congrArg (Traffic.mk _) hattempts

theorem run_keeps (stream : Stream) (world : World) (steps : List (StreamStep Record)) :
    (stream.run id world steps).1.recorder.buffer.capacity = stream.recorder.buffer.capacity ∧
      ((∀ batches, stream.outlet ≠ .capture batches) →
        (stream.run id world steps).1.outlet = stream.outlet) ∧
      (stream.run id world steps).2.environment = world.environment := by
  obtain ⟨recorder, outlet⟩ := stream
  rw [run_eq]
  refine ⟨?_, ?_, ?_⟩
  · obtain ⟨sink, attempts, -, h⟩ := recorder.run_eq (Watched.start (outlet, world)) steps
    dsimp only
    rw [recorder.fst_run, h]
    exact recorder.buffer.capacity_run steps
  · intro hcapture
    apply Recorder.run_keeps (P := fun sink : Outlet × World => sink.1 = outlet) _ recorder rfl
    rintro ⟨_, world⟩ payload rfl
    exact (Outlet.deliver_keeps _ world payload).1 hcapture
  · apply Recorder.run_keeps
      (P := fun sink : Outlet × World => sink.2.environment = world.environment) _ recorder rfl
    rintro ⟨outlet, _⟩ payload h
    exact (Outlet.deliver_keeps outlet _ payload).2.trans h

end Stream

end CallTrace
