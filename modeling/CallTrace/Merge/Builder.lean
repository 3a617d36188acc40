import CallTrace.Merge.Graph
import CallTrace.Merge.Replay

/-!
# Merging processes

Processes are added to a graph one after the other. Functions get global ids in the order in which
their places first come up, and the calls of the process are replayed between these ids.
-/

namespace CallTrace

/-- A graph that processes are being added to. -/
structure GraphBuilder where
  /-- The global ids by the keys of the identities. -/
  keys : Std.HashMap String Nat
  graph : CallGraph
  /-- How many ids without a global one were met. -/
  missing : Nat

namespace GraphBuilder

/-- A builder to which no process was added. -/
def empty : GraphBuilder :=
  ⟨∅, CallGraph.empty, 0⟩

/-- The id under a key; a key that is not there gets the given one. -/
def idUnder (keys : Std.HashMap String Nat) (key : String) (next : Nat) :
    Nat × Std.HashMap String Nat :=
  match keys[key]? with
  | some id => (id, keys)
  | none => (next, keys.insert key next)

/-- The global id of a defined function. It becomes a function of the graph if its id is the one
that comes next. -/
def globalOf (builder : GraphBuilder) (d : Definition) : Nat × GraphBuilder :=
  let next := builder.graph.functions.size
  match idUnder builder.keys (Identity.ofDefinition d).key next with
  | (id, keys) =>
    if id = next then
      (id, { builder with
        keys := keys
        graph := { builder.graph with
          functions := builder.graph.functions.push (GraphFunction.ofDefinition id d) } })
    else (id, { builder with keys := keys })

/-- Adds definitions, and tells the global ids of the process's own ids. If the process uses an id
twice, its last definition counts. -/
def addDefinitions (builder : GraphBuilder) (globals : GlobalIds) :
    List Definition → GlobalIds × GraphBuilder
  | [] => (globals, builder)
  | d :: rest =>
    match builder.globalOf d with
    | (id, builder) => builder.addDefinitions (globals.insert d.id id) rest

/-- Adds calls between functions that have global ids. -/
def addCalls (builder : GraphBuilder) (globals : GlobalIds) (calls : List Call) : GraphBuilder :=
  match (Replay.new globals).playAll builder.graph.edges calls with
  | (replay, edges) =>
    { builder with
      graph := { builder.graph with edges := edges }
      missing := builder.missing + replay.missing }

/-- Adds a process, and tells the global ids of its own ids. -/
def add (builder : GraphBuilder) (definitions : List Definition) (calls : List Call) :
    GlobalIds × GraphBuilder :=
  match builder.addDefinitions ∅ definitions with
  | (globals, builder) => (globals, builder.addCalls globals calls)

end GraphBuilder

end CallTrace
