/-!
# Function ids

The number by which a trace names a function. Where a record has no function to name, such as the
caller of an entry, it holds `none`; in the trace that is written as -1.
-/

namespace CallTrace

/-- The raw value that stands for no function; every id is below it. -/
def FunctionId.limit : Nat := 4294967295

/-- The number of a traced function. -/
structure FunctionId where
  val : Nat
  isLt : val < FunctionId.limit
deriving DecidableEq, Hashable, Repr

namespace FunctionId

/-- The id or absence that a raw number below 2^32 stands for. -/
def ofRaw? (raw : Nat) : Option (Option FunctionId) :=
  if h : raw < limit then some (some ⟨raw, h⟩)
  else if raw = limit then some none
  else none

/-- The raw number of an id, or of its absence. -/
def raw : Option FunctionId → Nat
  | none => limit
  | some id => id.val

/-- The value written in a trace. -/
def wire : Option FunctionId → Int64
  | none => -1
  | some id => Int64.ofNat id.val

/-- Reads a written value back. Every negative value stands for no function; a value that needs
more than 32 bits stands for nothing. -/
def ofWire? (value : Int64) : Option (Option FunctionId) :=
  if value < 0 then some none else ofRaw? value.toInt.toNat

end FunctionId

end CallTrace
