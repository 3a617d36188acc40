import CallTrace.Disk.Basic
import CallTrace.Record.Reader

/-!
# Trace files

Traces that stand on a disk.
-/

namespace CallTrace

/-- Why a trace file cannot be read. -/
inductive TraceFileError where
  | openFile (path : String) (fault : Fault)
  | unreadable (path : String) (cause : TraceError)
deriving DecidableEq, Repr

/-- The wording of a failure, from the outermost cause to the innermost. -/
def TraceFileError.chain : TraceFileError → List String
  | openFile path fault => ["Failed to open trace file " ++ path, fault.message]
  | unreadable path cause => ("Failed to parse trace file " ++ path) :: cause.chain

namespace Trace

/-- The records in the file under a path. What opens but cannot be read fails at its first line. -/
def readAt (disk : Disk) (path : String) : Except TraceFileError (List Record) :=
  match disk.openFile path with
  | .error fault => .error (.openFile path fault)
  | .ok (.error fault) => .error (.unreadable path (.unreadableLine 1 fault))
  | .ok (.ok data) =>
    match read data with
    | .error cause => .error (.unreadable path cause)
    | .ok records => .ok records

end Trace

end CallTrace
