import Std.Data.TreeMap
import Std.Data.TreeSet

/-!
# Edges

Who calls whom in a merged graph, by global ids and in ascending order.
-/

namespace CallTrace

/-- The callees of each caller. -/
abbrev Edges := Std.TreeMap Nat (Std.TreeSet Nat)

namespace Edges

/-- With an edge from `caller` to `callee`. -/
def connect (edges : Edges) (caller callee : Nat) : Edges :=
  edges.insert caller ((edges.getD caller ∅).insert callee)

/-- The callees of a caller. -/
def callees (edges : Edges) (caller : Nat) : Std.TreeSet Nat :=
  edges.getD caller ∅

/-- How many edges there are. -/
def count (edges : Edges) : Nat :=
  edges.foldl (fun count _ callees => count + callees.size) 0

/-- The callees of all callers, one caller after the other. -/
def targets (edges : Edges) : List Nat :=
  edges.toList.flatMap fun entry => entry.2.toList

end Edges

end CallTrace
