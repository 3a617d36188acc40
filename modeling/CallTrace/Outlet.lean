import CallTrace.Recorder
import CallTrace.World

/-!
# Outlet

Where batches go: nowhere, into memory, to the end of a file, or as requests to an endpoint. An
outlet that cannot be opened as the settings ask gives way to the next best, so that tracing never
stands in the way of the traced program.
-/

namespace CallTrace

/-- Why a batch was lost, or an outlet not opened. -/
inductive OutletError where
  | openFile (path : String) (fault : Fault)
  | writeFile (path : String) (fault : Fault)
  | connect (address : String) (fault : Fault)
deriving DecidableEq, Repr

/-- The wording of a failure. -/
def OutletError.message : OutletError → String
  | openFile path fault => "Failed to open trace file " ++ path ++ ": " ++ fault.message
  | writeFile path fault => "Failed to write trace file " ++ path ++ ": " ++ fault.message
  | connect address fault => "Failed to connect to " ++ address ++ ": " ++ fault.message

/-- A destination of batches. -/
inductive Outlet where
  | null
  /-- Keeps the batches delivered so far. -/
  | capture (batches : Array Bytes)
  /-- The file that was created under the path and stands at the place. -/
  | file (path : String) (place : Place)
  | http (endpoint : Endpoint) (timeout : UInt64)
deriving Repr

namespace Outlet

/-- The short name of a kind of outlet. -/
def kind : Outlet → String
  | null => "null"
  | capture _ => "capture"
  | file .. => "file"
  | http .. => "http"

/-- The batches that the outlet keeps. -/
def batches : Outlet → List Bytes
  | capture batches => batches.toList
  | _ => []

/-! ## Opening -/

/-- Makes the directory that a file is to stand in. -/
def makeParent (path : String) (disk : Disk) : Except Fault Disk :=
  match Path.ancestors path with
  | [] => .ok disk
  | parent :: _ => if parent.isEmpty then .ok disk else disk.makeDirectories parent

/-- Creates a file, after the directory that it stands in. -/
def createFile (path : String) (disk : Disk) : Except OutletError (Outlet × Disk) :=
  match (do (← makeParent path disk).create path) with
  | .ok (place, disk) => .ok (file path place, disk)
  | .error fault => .error (.openFile path fault)

/-- The file that the settings ask for, or nothing if it cannot be created. -/
def fileOfSettings (settings : Settings) (stem : String) (world : World) : Outlet × World :=
  match createFile (settings.traceFilePath stem world.label) world.disk with
  | .ok (outlet, disk) => (outlet, world.withDisk disk)
  | .error _ => (null, world)

/-- The outlet that the settings ask for: the endpoint if they name a usable one, or else the
file. -/
def ofSettings (settings : Settings) (stem : String) (world : World) : Outlet × World :=
  match settings.entrypoint.bind fun url => (Endpoint.ofUrl url).toOption with
  | some endpoint => (http endpoint settings.timeout, world)
  | none => fileOfSettings settings stem world

/-! ## Delivering -/

/-- Delivers a batch. -/
def deliver (outlet : Outlet) (world : World) (batch : Bytes) :
    Except OutletError Unit × Outlet × World :=
  match outlet with
  | null => (.ok (), null, world)
  | capture batches => (.ok (), capture (batches.push batch), world)
  | file path place =>
    match world.disk.append place batch with
    | .ok disk => (.ok (), file path place, world.withDisk disk)
    | .error fault => (.error (.writeFile path fault), file path place, world)
  | http endpoint timeout =>
    match world.network.send? endpoint.address (Request.post endpoint batch) with
    | some network => (.ok (), http endpoint timeout, { world with network := network })
    | none => (.error (.connect endpoint.address .connectionRefused), http endpoint timeout, world)

/-- Lets the destination go; what is delivered afterwards is discarded. -/
def close (_ : Outlet) : Outlet :=
  null

/-- An outlet in its world accepts or loses payloads. -/
instance : Sink (Outlet × World) where
  deliver := fun (outlet, world) batch =>
    match outlet.deliver world batch with
    | (result, outlet, world) => (result.isOk, outlet, world)

end Outlet

/-! ## Streams -/

/-- A recorder together with the outlet to which it delivers. -/
structure Stream where
  recorder : Recorder
  outlet : Outlet

namespace Stream

/-- A stream on which nothing was recorded yet. -/
def new (buffer : LineBuffer) (outlet : Outlet) : Stream :=
  ⟨Recorder.new buffer, outlet⟩

/-- A stream with a buffer of the size that the settings ask for. -/
def ofSettings (settings : Settings) (outlet : Outlet) : Stream :=
  new (LineBuffer.empty settings.capacity settings.capacity_pos) outlet

/-- What was done so far. -/
def stats (stream : Stream) : Stats :=
  stream.recorder.stats

/-- How many bytes wait in the buffer. -/
def buffered (stream : Stream) : Nat :=
  stream.recorder.buffer.size

/-- Records on the stream. -/
def record : Stream → Record → World → Stream × World
  | ⟨recorder, outlet⟩, r, world =>
    match recorder.record r (outlet, world) with
    | (recorder, outlet, world) => (⟨recorder, outlet⟩, world)

/-- Records one after the other. -/
def recordAll (stream : Stream) (world : World) : List Record → Stream × World
  | [] => (stream, world)
  | r :: rest =>
    match stream.record r world with
    | (stream, world) => stream.recordAll world rest

/-- Delivers what waits in the buffer. -/
def flush : Stream → World → Stream × World
  | ⟨recorder, outlet⟩, world =>
    match recorder.flush (outlet, world) with
    | (recorder, outlet, world) => (⟨recorder, outlet⟩, world)

/-- Ends the stream: delivers what waits, and gives the outlet back as it is then. -/
def finish (stream : Stream) (world : World) : Outlet × World :=
  stream.recorder.finish (stream.outlet, world)

end Stream

end CallTrace
