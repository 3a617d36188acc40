import CallTrace.Merge.Builder
import CallTrace.Settings
import CallTrace.TraceFile

/-!
# Merging a directory

The trace files of a directory come in pairs, one pair for each process. They are merged in an
order that depends on the labels of the processes alone.
-/

namespace CallTrace

open Text

/-- Why traces cannot be merged, or the result not be written. -/
inductive MergeError where
  | readDirectory (path : String) (fault : Fault)
  | readTrace (cause : TraceFileError)
  | writeGraph (path : String) (fault : Fault)
deriving DecidableEq, Repr

/-- The wording of a failure, from the outermost cause to the innermost. -/
def MergeError.chain : MergeError → List String
  | readDirectory path fault => ["Failed to read trace directory " ++ path, fault.message]
  | readTrace cause => cause.chain
  | writeGraph path fault => ["Failed to write call graph to " ++ path, fault.message]

/-- The trace files of a process. -/
structure ProcessFiles where
  process : String
  definitions : String
  calls : String
deriving DecidableEq, Repr

namespace ProcessFiles

/-- What the names of trace files end with. -/
def fileSuffix : List Char := ".tsv".toList

/-- The label of the process in the name of a definition file. -/
def processOf? (fileName : String) : Option String :=
  ((afterHead? definitionFileStem.toList fileName.toList).bind (beforeTail? fileSuffix)).map
    String.ofList

/-- The files that belong to a definition file of a directory. -/
def ofFileName? (dir fileName : String) : Option ProcessFiles :=
  (processOf? fileName).map fun process =>
    ⟨process, Path.join dir fileName, Path.join dir (callFileStem ++ process ++ ".tsv")⟩

/-- The number that a label denotes, if it denotes one. -/
def number? (files : ProcessFiles) : Option Nat :=
  Decimal.readBelow? UInt64.size files.process.toList

/-- Whether `a` does not come after `b`: labels that are no numbers come first, then numbers by
size, and labels of one number as texts. -/
def notAfter (a b : ProcessFiles) : Bool :=
  let textNotAfter := !decide (b.process < a.process)
  match a.number?, b.number? with
  | none, none => textNotAfter
  | none, some _ => true
  | some _, none => false
  | some m, some n => m < n || (m == n && textNotAfter)

/-- The pairs that the names in a directory make up, in their order. -/
def ofFileNames (dir : String) (fileNames : List String) : List ProcessFiles :=
  (fileNames.filterMap (ofFileName? dir)).mergeSort notAfter

end ProcessFiles

/-- The trace files in a directory. -/
def traceFilesIn (disk : Disk) (dir : String) : Except MergeError (List ProcessFiles) :=
  match disk.list dir with
  | .ok fileNames => .ok (ProcessFiles.ofFileNames dir fileNames)
  | .error fault => .error (.readDirectory dir fault)

namespace Record

/-- The definition that a record is. -/
def definition? : Record → Option Definition
  | definition d => some d
  | call _ => none

/-- The call that a record is. -/
def call? : Record → Option Call
  | definition _ => none
  | call c => some c

end Record

namespace GraphBuilder

/-- The records of a trace file. -/
def readRecords (disk : Disk) (path : String) : Except MergeError (List Record) :=
  (Trace.readAt disk path).mapError MergeError.readTrace

/-- Adds the process whose traces stand in the files. The calls may be missing. -/
def addTraces (builder : GraphBuilder) (disk : Disk) (files : ProcessFiles) :
    Except MergeError GraphBuilder := do
  let definitions ← readRecords disk files.definitions
  let calls ← if disk.contains files.calls then readRecords disk files.calls else pure []
  return (builder.add (definitions.filterMap Record.definition?)
    (calls.filterMap Record.call?)).2

/-- Adds processes one after the other. -/
def addAllTraces (builder : GraphBuilder) (disk : Disk) :
    List ProcessFiles → Except MergeError GraphBuilder
  | [] => .ok builder
  | files :: rest => do (← builder.addTraces disk files).addAllTraces disk rest

end GraphBuilder

/-- The graph of all traces in a directory. -/
def CallGraph.ofDirectory (disk : Disk) (dir : String) : Except MergeError CallGraph := do
  return (← GraphBuilder.empty.addAllTraces disk (← traceFilesIn disk dir)).graph

end CallTrace
