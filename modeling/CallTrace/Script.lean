import CallTrace.Text.Utf8

/-!
# Scripts and function literals

What the engine tells about the source of a function. Offsets count bytes; a table of the places
where lines start turns them into a line and a column.
-/

namespace CallTrace

/-- A line and a column, both counted from zero. -/
structure LineColumn where
  line : Int32
  column : Int32
deriving DecidableEq, Repr

/-- The offsets at which the lines of a source start, in ascending order; the first is zero. -/
structure LineTable where
  starts : Array Int32
deriving Repr

namespace LineTable

/-- The largest offset. -/
def maxOffset : Nat := 2147483647

/-- The offset of a byte, or the largest one if it is further away. -/
def clampOffset (n : Nat) : Int32 :=
  if n ≤ maxOffset then Int32.ofNat n else Int32.ofNat maxOffset

/-- The offsets right after the line feeds of bytes of which the first has the given offset. -/
def startsAfter (offset : Nat) : Bytes → List Int32
  | [] => []
  | b :: rest =>
    if b = 0x0a then clampOffset (offset + 1) :: startsAfter (offset + 1) rest
    else startsAfter (offset + 1) rest

/-- The table of a source. -/
def ofSource (source : Bytes) : LineTable :=
  ⟨(0 :: startsAfter 0 source).toArray⟩

/-- How many of the starts from `low` up to `high` are at most `offset`, added to `low`. The starts
before `low` are, and those from `high` on are not. -/
def countUpTo (table : LineTable) (offset : Int32) (low high : Nat) : Nat :=
  if low < high then
    let middle := low + (high - low) / 2
    if (table.starts[middle]?.getD 0) ≤ offset then table.countUpTo offset (middle + 1) high
    else table.countUpTo offset low middle
  else low
termination_by high - low

/-- The line and column of an offset, unless it is negative. An offset behind the end of the source
lies in the last line. -/
def locate (table : LineTable) (offset : Int32) : Option LineColumn :=
  if offset < 0 then none
  else
    let line := table.countUpTo offset 0 table.starts.size - 1
    some ⟨Int32.ofNat line, offset - table.starts[line]?.getD 0⟩

end LineTable

/-- A script, as the engine tells of it. -/
structure Script where
  /-- Missing until the engine knows it as a text. -/
  name : Option String
  /-- The line and column of an offset, if they can be told. -/
  locate : Int32 → Option LineColumn

namespace Script

/-- A script with a name and a source. -/
def named (name : String) (source : Bytes) : Script :=
  ⟨some name, (LineTable.ofSource source).locate⟩

/-- A script of which only the name is known. -/
def withoutSource (name : String) : Script :=
  ⟨some name, fun _ => none⟩

/-- A script of which only the source is known. -/
def unnamed (source : Bytes) : Script :=
  ⟨none, (LineTable.ofSource source).locate⟩

end Script

/-- What stands for an offset that is not known. -/
def noPosition : Int32 := -1

/-- A function literal. -/
structure Literal where
  /-- The number of the literal within its script; zero is the body of the script. -/
  id : Int32
  tokenPosition : Option Int32
  position : Option Int32
  startPosition : Option Int32
  endPosition : Int32
  name : String
deriving DecidableEq, Repr

/-- Where the literal starts, as far as that is known. -/
def Literal.origin (literal : Literal) : Int32 :=
  ((literal.tokenPosition.or literal.position).or literal.startPosition).getD noPosition

end CallTrace
