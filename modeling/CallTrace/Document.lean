import CallTrace.Json.Printing
import CallTrace.Merge.Directory
import CallTrace.Package.Finder

/-!
# Document

The written form of a merged graph: every function by its URI, and the callees of every caller.
-/

namespace CallTrace

/-- A graph as it is written. -/
structure Document where
  packageName : String
  createTime : String
  functions : Std.TreeMap Nat String
  calls : Std.TreeMap Nat (List Nat)

namespace Document

/-- The URIs of functions, by their ids. -/
def functionUris [ManifestReader] (finder : PackageFinder) (disk : Disk)
    (uris : Std.TreeMap Nat String) : List GraphFunction → Std.TreeMap Nat String
  | [] => uris
  | f :: rest =>
    match finder.uriOf disk f.name f.positionStart f.positionEnd f.path with
    | (uri, finder) => functionUris finder disk (uris.insert f.id uri) rest

/-- The document of a graph whose traces stand in the directory `root`. -/
def ofGraph [ManifestReader] (graph : CallGraph) (disk : Disk) (root : String) : Document :=
  match PackageFinder.empty.ofDirectory disk root with
  | (package, finder) =>
    { packageName := (package.getD Package.unknown).qualified
      createTime := ""
      functions := functionUris finder disk ∅ graph.functions.toList
      calls := graph.edges.map fun _ callees => callees.toList }

/-- An id as a key. -/
def idText (id : Nat) : String :=
  String.ofList (Decimal.ofNat id)

/-- The callees of a caller, printed. -/
def printTargets (callees : List Nat) : List Char :=
  Json.objectBlock 2 [("nodes", Json.arrayBlock 3 (callees.map Decimal.ofNat))]

/-- The text of a document. -/
def toJson (document : Document) : String :=
  String.ofList <| Json.objectBlock 0
    [("packageName", Json.quote document.packageName),
      ("createTime", Json.quote document.createTime),
      ("functionMap", Json.objectBlock 1 <|
        document.functions.toList.map fun entry => (idText entry.1, Json.quote entry.2)),
      ("callgraph", Json.objectBlock 1 <|
        document.calls.toList.map fun entry => (idText entry.1, printTargets entry.2))]

end Document

/-- The name that the written graph has in the directory of its traces. -/
def graphFile : String := "cg.json"

/-- Merges the traces of a directory and writes the graph, and tells where to. -/
def writeGraph [ManifestReader] (disk : Disk) (dir : String) (output : Option String) :
    Except MergeError String × Disk :=
  match CallGraph.ofDirectory disk dir with
  | .error error => (.error error, disk)
  | .ok graph =>
    let path := output.getD (Path.join dir graphFile)
    let text := (Document.ofGraph graph disk dir).toJson
    match disk.write path (Utf8.ofString text) with
    | (.ok (), disk) => (.ok path, disk)
    | (.error fault, disk) => (.error (.writeGraph path fault), disk)

end CallTrace
