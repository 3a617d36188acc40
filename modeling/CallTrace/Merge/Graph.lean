import CallTrace.Merge.Edges
import CallTrace.Record.Basic
import CallTrace.Text.Blank
import CallTrace.Text.Cut
import CallTrace.Text.Decimal

/-!
# Call graph

The functions of all merged processes and the edges between them. A function is the same in two
processes if its place in the source is: the number of its literal, where it starts and ends, and
the path of its script.

The id of a function is the number of functions before it in the graph. In 32 bits that asks for
fewer than `2 ^ 32` functions, which is assumed throughout; then nothing of an id is lost
(`CallGraph.WellFormed.toNat_id`).
-/

namespace CallTrace

open Text

/-- The place of a function in the source. -/
structure Identity where
  fileIndex : Int32
  positionStart : Int32
  positionEnd : Int32
  path : String
deriving DecidableEq, Repr

/-- How the URL of a local file starts. -/
def fileScheme : List Char := "file://".toList

/-- The path of a script without blanks around it and without the scheme of a local file. -/
def barePath (path : String) : String :=
  let text := trim path.toList
  String.ofList ((afterHead? fileScheme text).getD text)

namespace Identity

/-- The place of a defined function. -/
def ofDefinition (d : Definition) : Identity :=
  ⟨d.fileIndex, d.positionStart, d.positionEnd, barePath d.path⟩

/-- The text by which functions are looked up: the numbers and the path, joined by underscores. -/
def key (identity : Identity) : String :=
  String.ofList <| ['_'].intercalate
    [Decimal.ofInt identity.fileIndex.toInt, Decimal.ofInt identity.positionStart.toInt,
      Decimal.ofInt identity.positionEnd.toInt, identity.path.toList]

end Identity

/-- A name for people: the given one, or one made up from where an unnamed function stands. A
function at the very start is the body of its script and stays without a name. -/
def shownName (name : String) (positionStart positionEnd : Int32) : String :=
  if !name.isEmpty || positionStart = 0 then name
  else ".anonymous_function_" ++ String.ofList (Decimal.ofInt positionStart.toInt) ++ "_"
    ++ String.ofList (Decimal.ofInt positionEnd.toInt)

/-- A function of a merged graph. -/
structure GraphFunction where
  id : Nat
  name : String
  isConstructor : Bool
  fileIndex : Int32
  positionStart : Int32
  positionEnd : Int32
  path : String
deriving DecidableEq, Repr

namespace GraphFunction

/-- A function as it is first defined. -/
def ofDefinition (id : Nat) (d : Definition) : GraphFunction where
  id := id
  name := d.name
  isConstructor := d.isConstructor
  fileIndex := d.fileIndex
  positionStart := d.positionStart
  positionEnd := d.positionEnd
  path := barePath d.path

/-- The place of the function in the source. -/
def identity (f : GraphFunction) : Identity :=
  ⟨f.fileIndex, f.positionStart, f.positionEnd, f.path⟩

/-- A name for people. -/
def shownName (f : GraphFunction) : String :=
  CallTrace.shownName f.name f.positionStart f.positionEnd

end GraphFunction

/-- Functions and the edges between them. -/
structure CallGraph where
  functions : Array GraphFunction
  edges : Edges

namespace CallGraph

/-- A graph without functions. -/
def empty : CallGraph :=
  ⟨#[], ∅⟩

/-- The function with a number. -/
def function? (graph : CallGraph) (number : Nat) : Option GraphFunction :=
  graph.functions[number]?

/-- How many edges there are. -/
def edgeCount (graph : CallGraph) : Nat :=
  graph.edges.count

end CallGraph

end CallTrace
