import CallTrace.Disk.Fault
import CallTrace.Record.Line
import CallTrace.Text.Blank
import CallTrace.Text.Cut
import CallTrace.Text.Lines
import CallTrace.Text.Quoted

/-!
# Reading records

A line is told apart by its number of fields. A faulty line is refused with the cause of its
leftmost fault. In a whole trace faulty lines are passed over, but a line that is not UTF-8 ends the
reading.
-/

namespace CallTrace

open Text

/-- The fields that hold a number. -/
inductive NumberField where
  | id | line | column | fileIndex | positionStart | positionEnd | timestamp | caller | callee
deriving DecidableEq, Repr

/-- The name of a field in messages. -/
def NumberField.name : NumberField → String
  | id => "id"
  | line => "line"
  | column => "column"
  | fileIndex => "file_index"
  | positionStart => "position_start"
  | positionEnd => "position_end"
  | timestamp => "timestamp_ms"
  | caller => "caller"
  | callee => "callee"

/-- Why a line is no record. -/
inductive LineError where
  | fieldCount (count : Nat)
  | invalidInteger (field : NumberField) (value : String)
  | invalidId (value : Int64)
deriving DecidableEq, Repr

/-- The wording of a fault. -/
def LineError.message : LineError → String
  | fieldCount count => "Expected 9 or 3 fields, found " ++ String.ofList (Decimal.ofNat count)
  | invalidInteger field value =>
    "Invalid integer in field " ++ field.name ++ ": " ++ quoted value
  | invalidId value =>
    "Function id out of range: " ++ String.ofList (Decimal.ofInt value.toInt)

namespace Record

/-! ## Fields -/

/-- The integer of 64 bits in a field. -/
def readInt64 (field : NumberField) (text : List Char) : Except LineError Int64 :=
  match Decimal.readInt64? text with
  | some value => .ok value
  | none => .error (.invalidInteger field (String.ofList text))

/-- The integer of 32 bits in a field. -/
def readInt32 (field : NumberField) (text : List Char) : Except LineError Int32 :=
  match Decimal.readInt32? text with
  | some value => .ok value
  | none => .error (.invalidInteger field (String.ofList text))

/-- The id in a field, or its absence. -/
def readId (field : NumberField) (text : List Char) : Except LineError (Option FunctionId) := do
  let value ← readInt64 field text
  match FunctionId.ofWire? value with
  | some id => .ok id
  | none => .error (.invalidId value)

/-- The name in a name field, and whether it is that of a constructor. -/
def splitName (field : List Char) : List Char × Bool :=
  match beforeTail? constructorSuffix field with
  | some name => (name, true)
  | none => (field, false)

/-! ## Lines -/

/-- The id of a definition, which has to be present. -/
def readDefinitionId (text : List Char) : Except LineError FunctionId := do
  match ← readId .id text with
  | some id => .ok id
  | none => .error (.invalidId (-1))

/-- Reads the fields of a definition from left to right. -/
def readDefinition (id name line column fileIndex positionStart positionEnd path timestamp :
    List Char) : Except LineError Definition := do
  let id ← readDefinitionId id
  let line ← readInt32 .line line
  let column ← readInt32 .column column
  let fileIndex ← readInt32 .fileIndex fileIndex
  let positionStart ← readInt32 .positionStart positionStart
  let positionEnd ← readInt32 .positionEnd positionEnd
  let timestamp ← readInt64 .timestamp timestamp
  return {
    id := some id
    fileIndex, positionStart, positionEnd, line, column
    name := String.ofList (splitName name).1
    isConstructor := (splitName name).2
    path := String.ofList path
    timestamp }

/-- Reads the fields of a call from left to right. -/
def readCall (caller callee timestamp : List Char) : Except LineError Call := do
  let caller ← readId .caller caller
  let callee ← readId .callee callee
  let timestamp ← readInt64 .timestamp timestamp
  return ⟨caller, callee, timestamp⟩

/-- Reads the fields of a line. -/
def ofFields : List (List Char) → Except LineError Record
  | [id, name, line, column, fileIndex, positionStart, positionEnd, path, timestamp] =>
    definition <$>
      readDefinition id name line column fileIndex positionStart positionEnd path timestamp
  | [caller, callee, timestamp] => call <$> readCall caller callee timestamp
  | fields => .error (.fieldCount fields.length)

/-- Whether a character belongs to the end of a line. -/
def isLineEnd (c : Char) : Bool :=
  c = '\n' ∨ c = '\r'

/-- Without the line ends that the text ends with. -/
def dropLineEnds (text : List Char) : List Char :=
  (text.reverse.dropWhile isLineEnd).reverse

/-- Reads a line; a blank one holds no record. -/
def ofLine (text : List Char) : Except LineError (Option Record) :=
  let text := dropLineEnds text
  if text.all isBlank then .ok none
  else some <$> ofFields (text.splitOn '\t')

end Record

/-! ## Traces -/

/-- Why a trace cannot be read to its end. -/
inductive TraceError where
  /-- The line, counted from one, cannot be had or is not UTF-8. -/
  | unreadableLine (line : Nat) (fault : Fault)
deriving DecidableEq, Repr

/-- The wording of a failure, from the outermost cause to the innermost. -/
def TraceError.chain : TraceError → List String
  | unreadableLine line fault =>
    ["Failed to read trace line " ++ String.ofList (Decimal.ofNat line), fault.message]

namespace Trace

/-- The lines of a trace, as bytes. -/
def byteLines (data : Bytes) : List Bytes :=
  lines 0x0a 0x0d data

/-- The record of a line, unless the line is blank or faulty. -/
def record? (line : List Char) : Option Record :=
  match Record.ofLine line with
  | .ok r => r
  | .error _ => none

/-- The records of lines of which the first has the given number. -/
def readFrom (number : Nat) : List Bytes → Except TraceError (List Record)
  | [] => .ok []
  | line :: rest =>
    match Utf8.decode? line with
    | none => .error (.unreadableLine number .notUtf8)
    | some text => do
      let records ← readFrom (number + 1) rest
      return (record? text).toList ++ records

/-- The records of a trace. -/
def read (data : Bytes) : Except TraceError (List Record) :=
  readFrom 1 (byteLines data)

end Trace

end CallTrace
