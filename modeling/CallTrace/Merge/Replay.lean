import CallTrace.Merge.Edges
import CallTrace.Record.Basic
import Std.Data.HashMap

/-!
# Replay

The calls of one process, turned into edges between global ids. A call with both ends is an edge.
Entries and exits are played on a stack of the functions taken to be open: an entry adds an edge
from the top, and an exit closes the nearest open activation of its function, with all that were
entered in it. Records of functions without a global id are passed over and counted.
-/

namespace CallTrace

/-- The global ids of a process's own ids. -/
abbrev GlobalIds := Std.HashMap (Option FunctionId) Nat

/-- A replay under way. -/
structure Replay where
  globals : GlobalIds
  /-- The functions taken to be open, the innermost one first. -/
  stack : List Nat
  /-- How many ids without a global one were met. -/
  missing : Nat

namespace Replay

/-- A replay that has seen no call. -/
def new (globals : GlobalIds) : Replay :=
  ⟨globals, [], 0⟩

/-- How many functions are taken to be open. -/
def depth (replay : Replay) : Nat :=
  replay.stack.length

/-- The global id of a process's own id. -/
def global? (replay : Replay) (id : Option FunctionId) : Option Nat :=
  replay.globals[id]?

/-- Counts an id that has no global one. -/
def countMissing (replay : Replay) (id : Option FunctionId) : Replay :=
  if (replay.global? id).isSome then replay else { replay with missing := replay.missing + 1 }

/-- Enters a function from the one on top. -/
def enter (replay : Replay) (callee : Nat) (edges : Edges) : Replay × Edges :=
  let edges :=
    match replay.stack with
    | [] => edges
    | top :: _ => edges.connect top callee
  ({ replay with stack := callee :: replay.stack }, edges)

/-- The stack below the nearest activation of a function, if there is one. -/
def unwind {α : Type} [BEq α] (callee : α) (stack : List α) : List α :=
  if stack.contains callee then (stack.dropWhile (· != callee)).drop 1 else stack

/-- Plays one call. -/
def play (replay : Replay) (call : Call) (edges : Edges) : Replay × Edges :=
  if call.isEntry then
    match replay.global? call.callee with
    | none => (replay.countMissing call.callee, edges)
    | some callee => replay.enter callee edges
  else if call.isExit then
    match replay.global? call.caller with
    | none => (replay.countMissing call.caller, edges)
    | some callee => ({ replay with stack := unwind callee replay.stack }, edges)
  else
    match replay.global? call.caller, replay.global? call.callee with
    | some caller, some callee => (replay, edges.connect caller callee)
    | _, _ => ((replay.countMissing call.caller).countMissing call.callee, edges)

/-- Plays calls one after the other. -/
def playAll (replay : Replay) (edges : Edges) : List Call → Replay × Edges
  | [] => (replay, edges)
  | call :: rest =>
    match replay.play call edges with
    | (replay, edges) => replay.playAll edges rest

end Replay

end CallTrace
