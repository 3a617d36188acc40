import CallTrace.Disk.Path
import CallTrace.Text.Blank
import CallTrace.Text.Decimal
import CallTrace.Text.Quoted

/-!
# Settings

How a run is traced. Settings come from variables of the environment, read at the moment they are
first needed, or are given. A variable with a value that makes no sense counts as missing.
-/

namespace CallTrace

open Text

/-- The smallest capacity of a line buffer. -/
def minCapacity : Nat := 256

/-- The largest capacity of a line buffer. -/
def maxCapacity : Nat := 4194304

/-- The nearest capacity that is allowed. -/
def clampCapacity (size : Nat) : Nat :=
  max minCapacity (min size maxCapacity)

theorem clampCapacity_pos (size : Nat) : 0 < clampCapacity size := by
  simp only [clampCapacity, minCapacity]; omega

/-- How a run is traced. -/
structure Settings where
  /-- How many frames of the stack are of interest: none turns lookups off, one leaves the stack
  alone, more make callers be looked for. -/
  stackDepth : UInt32
  /-- Whether scripts that are usually left out are traced too. -/
  traceAll : Bool
  /-- The URL to post batches to; without one they go to a file. -/
  entrypoint : Option String
  /-- The directory of trace files. -/
  outputDirectory : String
  /-- The size of a line buffer in bytes. -/
  capacity : Nat
  capacity_pos : 0 < capacity
  /-- The patience with the network in milliseconds; zero means no end. -/
  timeout : UInt64
deriving DecidableEq, Repr

/-- What stands before the process label in the name of a definition file. -/
def definitionFileStem : String := "func_"

/-- What stands before the process label in the name of a call file. -/
def callFileStem : String := "cg_"

/-- A variable that holds a number. -/
inductive NumberVariable where
  | depth | capacity | timeout
deriving DecidableEq, Repr

/-- The name of the variable. -/
def NumberVariable.name : NumberVariable → String
  | depth => "TRACE_DEPTH"
  | capacity => "TRACE_BUFFER_SIZE"
  | timeout => "TRACE_TIMEOUT_MS"

/-- Why a variable makes no sense. -/
inductive SettingsError where
  | invalidNumber (variableName : NumberVariable) (value : String)
deriving DecidableEq, Repr

/-- The wording of a refusal. -/
def SettingsError.message : SettingsError → String
  | invalidNumber variableName value =>
    "Invalid value for " ++ variableName.name ++ ": " ++ quoted value

/-- The variables of an environment. -/
abbrev Environment := String → Option String

namespace Settings

/-- What holds unless something else is said. -/
def default : Settings where
  stackDepth := 100
  traceAll := false
  entrypoint := none
  outputDirectory := "."
  capacity := 2048
  capacity_pos := by decide
  timeout := 5000

/-- With the nearest capacity that is allowed. -/
def withCapacity (settings : Settings) (size : Nat) : Settings :=
  { settings with capacity := clampCapacity size, capacity_pos := clampCapacity_pos size }

/-- The nearest stack depth to an integer. -/
def clampDepth (n : Int64) : UInt32 :=
  if n < 0 then 0
  else if 4294967295 < n then 4294967295
  else UInt32.ofNat n.toInt.toNat

/-- Reads a stack depth: negative ones count as zero, and huge ones as the largest. -/
def readDepth (value : String) : Except SettingsError UInt32 :=
  match Decimal.readInt64? (trim value.toList) with
  | some n => .ok (clampDepth n)
  | none => .error (.invalidNumber .depth value)

/-- Reads a number of 64 bits. -/
def readNumber (variableName : NumberVariable) (value : String) : Except SettingsError UInt64 :=
  match Decimal.readBelow? UInt64.size (trim value.toList) with
  | some n => .ok (UInt64.ofNat n)
  | none => .error (.invalidNumber variableName value)

/-- Whether a value turns a switch on: all do but the empty text, `0` and `false`. -/
def readSwitch (value : String) : Bool :=
  let text := trim value.toList
  !(text.isEmpty || text == ['0'] || text.map Char.toLower == ['f', 'a', 'l', 's', 'e'])

/-- The value of a variable, if it is there and makes sense. -/
def readVariable {α : Type} (environment : Environment) (name : String)
    (read : String → Except SettingsError α) : Option α :=
  (environment name).bind fun value => (read value).toOption

/-- The settings of an environment. -/
def ofEnvironment (environment : Environment) : Settings :=
  let depth := readVariable environment NumberVariable.depth.name readDepth
  let capacity := readVariable environment NumberVariable.capacity.name (readNumber .capacity)
  let timeout := readVariable environment NumberVariable.timeout.name (readNumber .timeout)
  let entrypoint := (environment "TRACE_ENTRYPOINT").map fun v => String.ofList (trim v.toList)
  let directory := (environment "TRACE_OUTPUT_DIR").filter fun v => !v.isEmpty
  let settings :=
    { default with
      stackDepth := depth.getD default.stackDepth
      traceAll := (environment "TRACE_ALL").any readSwitch
      entrypoint := entrypoint.filter fun v => !v.isEmpty
      outputDirectory := directory.getD default.outputDirectory
      timeout := timeout.getD default.timeout }
  match capacity with
  | some size => settings.withCapacity size.toNat
  | none => settings

/-- The path of the trace file with the given stem, for the process with the given label. -/
def traceFilePath (settings : Settings) (stem label : String) : String :=
  Path.join settings.outputDirectory (stem ++ label ++ ".tsv")

end Settings

/-- Where settings come from. -/
inductive SettingsSource where
  | environment
  | fixed (settings : Settings)

/-- The settings of a source, in an environment. -/
def SettingsSource.resolve (source : SettingsSource) (environment : Environment) : Settings :=
  match source with
  | .environment => Settings.ofEnvironment environment
  | .fixed settings => settings

end CallTrace
