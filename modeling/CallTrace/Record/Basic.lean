import CallTrace.Record.Id

/-!
# Records

What a trace is made of. A definition announces a function before its first call; a call names a
caller and a callee, or marks an entry or an exit when one of the two is missing.
-/

namespace CallTrace

/-- A traced function, announced once. -/
structure Definition where
  id : Option FunctionId
  /-- The number of the function literal within its script. -/
  fileIndex : Int32
  positionStart : Int32
  positionEnd : Int32
  /-- Counted from one; zero when unknown. -/
  line : Int32
  /-- Counted from one; zero when unknown. -/
  column : Int32
  /-- A name for people, possibly empty. -/
  name : String
  isConstructor : Bool
  /-- The path of the script, or a label such as `node:timers`. -/
  path : String
  /-- Milliseconds since the start of 1970. -/
  timestamp : Int64
deriving DecidableEq, Repr

/-- A step from a caller to a callee. -/
structure Call where
  caller : Option FunctionId
  callee : Option FunctionId
  /-- Milliseconds since the start of 1970. -/
  timestamp : Int64
deriving DecidableEq, Repr

namespace Call

/-- The mark for entering `callee` when the caller is not looked for. -/
def entry (callee : Option FunctionId) (timestamp : Int64) : Call :=
  ⟨none, callee, timestamp⟩

/-- The mark for leaving `callee`. -/
def exit (callee : Option FunctionId) (timestamp : Int64) : Call :=
  ⟨callee, none, timestamp⟩

/-- Whether only the callee is known. -/
def isEntry (call : Call) : Bool :=
  call.caller.isNone && call.callee.isSome

/-- Whether only the caller is known. -/
def isExit (call : Call) : Bool :=
  call.caller.isSome && call.callee.isNone

/-- The two ends; two calls with the same ends are the same edge, whenever they took place. -/
def edge (call : Call) : Option FunctionId × Option FunctionId :=
  (call.caller, call.callee)

end Call

/-- One line of a trace. -/
inductive Record where
  | definition (d : Definition)
  | call (c : Call)
deriving DecidableEq, Repr

end CallTrace
