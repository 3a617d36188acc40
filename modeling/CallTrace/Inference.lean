import CallTrace.Frame
import CallTrace.Record.Basic
import Std.Data.HashMap
import Std.Data.HashSet

/-!
# Inference of calls

Who called whom, told from the live stack at each entry. The caller is the nearest frame below the
top whose function is known. A function that was handed over as an argument is also called by the
one that handed it over. Each pair is told once.

Where stacks are not collected, entries and exits are told as they come.
-/

namespace CallTrace

/-- What is known of the functions on the stacks seen so far. -/
structure Inference where
  /-- Whether stacks are collected. -/
  collects : Bool
  /-- The pairs of caller and callee told so far. -/
  known : Std.HashSet (FunctionId × FunctionId)
  /-- The ids of function objects. -/
  tracked : Std.HashMap FunctionKey FunctionId
  /-- By whom function objects were handed over. -/
  registrants : Std.HashMap FunctionKey FunctionId
  /-- What the latest top frame was given; the list serves every entry anew. -/
  pending : List FunctionKey

namespace Inference

/-- Nothing known, for a given stack depth: only with more than the top frame is there a caller to
be found. -/
def new (depth : UInt32) : Inference :=
  ⟨1 < depth, ∅, ∅, ∅, []⟩

/-- Tells a pair, unless it was told before. -/
def tell (state : Inference) (caller callee : FunctionId) (clock : Int64) :
    Inference × List Call :=
  if state.known.contains (caller, callee) then (state, [])
  else ({ state with known := state.known.insert (caller, callee) },
    [⟨some caller, some callee, clock⟩])

/-- Learns the id of a function object. -/
def track (state : Inference) (key : FunctionKey) (id : FunctionId) : Inference :=
  { state with tracked := state.tracked.insert key id }

/-- Nothing is pending. -/
def clearPending (state : Inference) : Inference :=
  { state with pending := [] }

/-- Gathers what a frame was given. -/
def gather (state : Inference) (frame : Frame) : Inference :=
  { state with pending := state.pending ++ frame.callables }

/-- Learns by whom the pending function objects were handed over. -/
def handOver (state : Inference) (registrant : FunctionId) : Inference :=
  { state with
    registrants := state.pending.foldl (fun registrants key => registrants.insert key registrant)
      state.registrants }

/-- Meets the top frame of an entry: learns the id of its function and gathers what it was given.
Nothing stays of what earlier entries gathered. -/
def meetTop (state : Inference) (callee : FunctionId) (top : Frame) : Inference :=
  (state.clearPending.track top.key callee).gather top

/-- The nearest of the frames whose function is known. -/
def caller? (state : Inference) (frames : List Frame) : Option FunctionId :=
  frames.findSome? fun frame => state.tracked[frame.key]?

/-- The calls that an entry with the given stack tells: the one by the registrant of the top frame,
and the one by the caller below it. With a caller, what the top frame was given is handed over. -/
def enterStack (state : Inference) (callee : FunctionId) (clock : Int64) :
    List Frame → Inference × List Call
  | [] => (state.clearPending, [])
  | top :: below =>
    let state := state.meetTop callee top
    let viaRegistrant :=
      match state.registrants[top.key]? with
      | some registrant => state.tell registrant callee clock
      | none => (state, [])
    match state.caller? below with
    | none => viaRegistrant
    | some caller =>
      let direct := viaRegistrant.1.tell caller callee clock
      (direct.1.handOver caller, viaRegistrant.2 ++ direct.2)

/-- The calls that an entry tells. What is not traced tells nothing. -/
def enter (state : Inference) (callee : Option FunctionId) (stack : List Frame) (clock : Int64) :
    Inference × List Call :=
  match callee with
  | none => (state, [])
  | some id =>
    if state.collects then state.enterStack id clock stack
    else (state, [Call.entry (some id) clock])

/-- The calls that an exit tells: its own mark, where stacks are not collected. -/
def exit (state : Inference) (callee : Option FunctionId) (clock : Int64) : List Call :=
  match callee with
  | none => []
  | some id => if state.collects then [] else [Call.exit (some id) clock]

/-- Forgets a function object, and tells whether anything was known of it. -/
def forget (state : Inference) (key : FunctionKey) : Bool × Inference :=
  (state.tracked.contains key || state.registrants.contains key,
    { state with
      tracked := state.tracked.erase key
      registrants := state.registrants.erase key })

end Inference

end CallTrace
