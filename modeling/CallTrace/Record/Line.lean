import CallTrace.Record.Basic
import CallTrace.Text.Decimal
import CallTrace.Text.Utf8

/-!
# The line of a record

A record is written as one line of fields with tabs between them, nine for a definition and three
for a call. Tabs and line breaks inside a name or a path become spaces, so they can neither add a
field nor end the line.
-/

namespace CallTrace

/-- What follows the name of a constructor in its line. -/
def constructorSuffix : List Char := ".constructor".toList

/-- A space in place of a character that would end a field or a line. -/
def sanitizeChar (c : Char) : Char :=
  if c = '\t' ∨ c = '\n' ∨ c = '\r' then ' ' else c

/-- A text as it stands in a field. -/
def sanitize (text : List Char) : List Char :=
  text.map sanitizeChar

/-- A line of fields. -/
def lineOf (fields : List (List Char)) : List Char :=
  ['\t'].intercalate fields ++ ['\n']

namespace Definition

/-- The name field, which also tells whether the function is a constructor. -/
def nameField (d : Definition) : List Char :=
  sanitize d.name.toList ++ if d.isConstructor then constructorSuffix else []

/-- The nine fields of a definition. -/
def fields (d : Definition) : List (List Char) :=
  [Decimal.ofInt64 (FunctionId.wire d.id), d.nameField, Decimal.ofInt64 d.line.toInt64,
    Decimal.ofInt64 d.column.toInt64, Decimal.ofInt64 d.fileIndex.toInt64,
    Decimal.ofInt64 d.positionStart.toInt64, Decimal.ofInt64 d.positionEnd.toInt64,
    sanitize d.path.toList, Decimal.ofInt64 d.timestamp]

/-- The line of a definition. -/
def toLine (d : Definition) : List Char :=
  lineOf d.fields

end Definition

namespace Call

/-- The three fields of a call. -/
def fields (c : Call) : List (List Char) :=
  [Decimal.ofInt64 (FunctionId.wire c.caller), Decimal.ofInt64 (FunctionId.wire c.callee),
    Decimal.ofInt64 c.timestamp]

/-- The line of a call. -/
def toLine (c : Call) : List Char :=
  lineOf c.fields

end Call

namespace Record

/-- The line of a record. -/
def toLine : Record → List Char
  | definition d => d.toLine
  | call c => c.toLine

/-- The bytes of a record's line. -/
def encode (r : Record) : Bytes :=
  Utf8.encode r.toLine

end Record

end CallTrace
