import CallTrace.Disk.Basic
import CallTrace.Request
import CallTrace.Settings

/-!
# World

What surrounds a traced run: a disk, a network, an environment, a clock, and the label by which the
run names its files. A server takes a request at once or refuses it: addresses are not resolved,
answers do not matter, and nothing runs out of time. What a run logs is not part of the world.
-/

namespace CallTrace

/-- A server that takes a number of requests and refuses connections after that. -/
structure Listener where
  address : String
  /-- How many requests it still takes. -/
  patience : Nat
  /-- The requests it has taken. -/
  received : Array Bytes
deriving Repr

namespace Listener

/-- Takes a request, if it still does. -/
def take? (listener : Listener) (request : Bytes) : Option Listener :=
  if listener.patience = 0 then none
  else some { listener with
    patience := listener.patience - 1
    received := listener.received.push request }

end Listener

/-- The servers that can be reached. -/
abbrev Network := List Listener

/-- Brings a request to the server at an address, if there is one that takes it. -/
def Network.send? (address : String) (request : Bytes) : Network → Option Network
  | [] => none
  | listener :: rest =>
    if listener.address = address then (listener.take? request).map (· :: rest)
    else (Network.send? address request rest).map (listener :: ·)

/-- What surrounds a traced run. -/
structure World where
  disk : Disk
  network : Network
  environment : Environment
  /-- Milliseconds since the start of 1970. -/
  clock : Int64
  /-- What tells the files of this run from those of others. -/
  label : String

namespace World

/-- With another disk. -/
def withDisk (world : World) (disk : Disk) : World :=
  { world with disk := disk }

end World

end CallTrace
