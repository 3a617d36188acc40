import CallTrace.Record.Line
import CallTrace.LineBuffer

/-!
# Recorder

A recorder collects records in a buffer and delivers what the buffer hands on. A delivery that
fails loses its payload and is counted; which payloads there are does not depend on it.
-/

namespace CallTrace

/-- A destination of payloads: it either accepts a payload whole or loses it whole. -/
class Sink (σ : Type) where
  /-- Whether the payload was accepted, and the destination afterwards. -/
  deliver : σ → Bytes → Bool × σ

/-- What a recorder has done so far. -/
structure Stats where
  /-- Records taken. -/
  records : Nat
  /-- Deliveries attempted. -/
  flushes : Nat
  /-- Bytes of accepted payloads. -/
  bytesFlushed : Nat
  /-- Deliveries that failed. -/
  failedFlushes : Nat
  /-- Bytes of lost payloads. -/
  droppedBytes : Nat
deriving DecidableEq, Repr

namespace Stats

/-- Nothing done yet. -/
def zero : Stats := ⟨0, 0, 0, 0, 0⟩

/-- Counts a record. -/
def countRecord (stats : Stats) : Stats :=
  { stats with records := stats.records + 1 }

/-- Counts a delivery. -/
def countDelivery (stats : Stats) (payload : Bytes) (accepted : Bool) : Stats :=
  if accepted then
    { stats with
      flushes := stats.flushes + 1
      bytesFlushed := stats.bytesFlushed + payload.length }
  else
    { stats with
      flushes := stats.flushes + 1
      failedFlushes := stats.failedFlushes + 1
      droppedBytes := stats.droppedBytes + payload.length }

/-- The lost part of all bytes that were to be delivered; nothing is lost of nothing. -/
def dropRate (stats : Stats) : Float :=
  let total := stats.bytesFlushed + stats.droppedBytes
  if total = 0 then 0.0 else Float.ofNat stats.droppedBytes / Float.ofNat total

end Stats

/-- A buffer of records, and the count of what was done. -/
structure Recorder where
  buffer : LineBuffer
  stats : Stats

namespace Recorder

variable {σ : Type} [Sink σ]

/-- A recorder that has done nothing yet. -/
def new (buffer : LineBuffer) : Recorder :=
  ⟨buffer, Stats.zero⟩

/-- Delivers payloads one after the other. -/
def deliverAll (stats : Stats) (sink : σ) : List Bytes → Stats × σ
  | [] => (stats, sink)
  | payload :: rest =>
    match Sink.deliver sink payload with
    | (accepted, sink) => deliverAll (stats.countDelivery payload accepted) sink rest

/-- Delivers what is in the buffer. -/
def flush : Recorder → σ → Recorder × σ
  | ⟨buffer, stats⟩, sink =>
    match buffer.drain with
    | (buffer, payloads) =>
      match deliverAll stats sink payloads with
      | (stats, sink) => (⟨buffer, stats⟩, sink)

/-- Takes a line. -/
def append : Recorder → Bytes → σ → Recorder × σ
  | ⟨buffer, stats⟩, line, sink =>
    match buffer.append line with
    | (buffer, payloads) =>
      match deliverAll stats sink payloads with
      | (stats, sink) => (⟨buffer, stats.countRecord⟩, sink)

/-- Takes a record. -/
def record (recorder : Recorder) (r : Record) (sink : σ) : Recorder × σ :=
  recorder.append r.encode sink

/-- Ends the recorder: delivers what is in the buffer, and gives the destination back. -/
def finish (recorder : Recorder) (sink : σ) : σ :=
  (recorder.flush sink).2

end Recorder

end CallTrace
