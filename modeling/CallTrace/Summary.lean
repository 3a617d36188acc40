import CallTrace.Package.Finder

/-!
# Summary

How many functions call each function and how many it calls, the most called ones first.
-/

namespace CallTrace

open Text

/-- The degrees of a function. -/
structure Degree where
  id : Nat
  name : String
  /-- How many functions call it. -/
  fanIn : Nat
  /-- How many functions it calls. -/
  fanOut : Nat
deriving DecidableEq, Repr

/-- The degrees of all functions of a graph. -/
structure Summary where
  degrees : List Degree
  edges : Nat
deriving DecidableEq, Repr

/-- Whether `a` does not come after `b`: more callers come first, then more callees, then the
smaller id. -/
def Degree.notAfter (a b : Degree) : Bool :=
  if a.fanIn ≠ b.fanIn then b.fanIn < a.fanIn
  else if a.fanOut ≠ b.fanOut then b.fanOut < a.fanOut
  else a.id ≤ b.id

namespace Summary

/-- A function and its file, for people. -/
def label [ManifestReader] (finder : PackageFinder) (disk : Disk) (f : GraphFunction) :
    String × PackageFinder :=
  let name := if f.shownName.isEmpty then "<top-level>" else f.shownName
  if PackageFinder.moduleScheme.isPrefixOf f.path.toList then
    (name ++ " (" ++ f.path ++ ")", finder)
  else
    match finder.ownerOf disk f.path with
    | (owner, finder) => (name ++ " (" ++ owner.path ++ ")", finder)

/-- The degrees of functions before callers are counted. -/
def initialDegrees [ManifestReader] (edges : Edges) (finder : PackageFinder) (disk : Disk) :
    List GraphFunction → List Degree
  | [] => []
  | f :: rest =>
    match label finder disk f with
    | (name, finder) =>
      ⟨f.id, name, 0, (edges.callees f.id).size⟩ :: initialDegrees edges finder disk rest

/-- Counts a caller of the function with a number. A number that no function has is passed over. -/
def addCaller (degrees : Array Degree) (callee : Nat) : Array Degree :=
  degrees.modify callee fun degree => { degree with fanIn := degree.fanIn + 1 }

/-- Counts a caller for each of the callees. -/
def addCallers (degrees : Array Degree) (callees : List Nat) : Array Degree :=
  callees.foldl addCaller degrees

/-- The degrees of the functions of a graph, in the order of their numbers. -/
def unsorted [ManifestReader] (graph : CallGraph) (disk : Disk) : Array Degree :=
  addCallers
    (initialDegrees graph.edges PackageFinder.empty disk graph.functions.toList).toArray
    graph.edges.targets

/-- The summary of a graph. -/
def ofGraph [ManifestReader] (graph : CallGraph) (disk : Disk) : Summary where
  degrees := (unsorted graph disk).toList.mergeSort Degree.notAfter
  edges := graph.edgeCount

/-- Whether there are no functions. -/
def isEmpty (summary : Summary) : Bool :=
  summary.degrees.isEmpty

/-! ## The table -/

/-- The text with spaces behind it up to a width. -/
def padRight (width : Nat) (text : List Char) : List Char :=
  text ++ List.replicate (width - text.length) ' '

/-- The text with spaces before it up to a width. -/
def padLeft (width : Nat) (text : List Char) : List Char :=
  List.replicate (width - text.length) ' ' ++ text

/-- How many characters of a label are shown. -/
def labelWidth : Nat := 56

/-- The text, or its start and an ellipsis if it is longer than the width. -/
def truncate (width : Nat) (text : List Char) : List Char :=
  if text.length ≤ width then text else text.take (width - 1) ++ ['…']

/-- A row of the table. -/
def row (id label fanIn fanOut : List Char) : List Char :=
  padRight 8 id ++ [' '] ++ padRight labelWidth label ++ [' '] ++ padLeft 10 fanIn ++ [' ']
    ++ padLeft 10 fanOut

/-- The row of a function. -/
def degreeRow (degree : Degree) : List Char :=
  row (Decimal.ofNat degree.id) (truncate labelWidth degree.name.toList)
    (Decimal.ofNat degree.fanIn) (Decimal.ofNat degree.fanOut)

/-- The width of the box around the title. -/
def boxWidth : Nat := 80

/-- The lines of the box around the title. -/
def box : List (List Char) :=
  [['╔'] ++ List.replicate boxWidth '═' ++ ['╗'],
    ['║'] ++ padRight boxWidth "  Call Graph Summary (sorted by fan-in)".toList ++ ['║'],
    ['╚'] ++ List.replicate boxWidth '═' ++ ['╝']]

/-- The line under the heads of the columns and under the rows. -/
def rule : List Char :=
  List.replicate 87 '─'

/-- The last line of the table. -/
def footer (summary : Summary) : List Char :=
  Decimal.ofNat summary.degrees.length ++ " functions, ".toList ++ Decimal.ofNat summary.edges
    ++ " edges".toList

/-- The lines of the table. -/
def tableLines (summary : Summary) : List (List Char) :=
  if summary.isEmpty then [[], "No call graph data collected.".toList]
  else
    [[]] ++ box ++ [[], row "Id".toList "Function".toList "Fan-in".toList "Fan-out".toList, rule]
      ++ summary.degrees.map degreeRow ++ [rule, summary.footer]

/-- The table as a text. -/
def table (summary : Summary) : String :=
  String.ofList (summary.tableLines.flatMap (· ++ ['\n']))

end Summary

end CallTrace
