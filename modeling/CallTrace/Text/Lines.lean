/-!
# Lines

A line feed ends a line, and a carriage return right before it belongs to the end. A last line
needs no line feed, but then it is not empty and keeps its carriage return.
-/

namespace CallTrace.Text

variable {α : Type} [BEq α]

/-- Without one `cr` at the end. -/
def dropReturn (cr : α) (line : List α) : List α :=
  if line.getLast? == some cr then line.dropLast else line

/-- The lines of a text, given its line feed and its carriage return. -/
def lines (lf cr : α) (text : List α) : List (List α) :=
  let pieces := text.splitOn lf
  pieces.dropLast.map (dropReturn cr) ++ (pieces.getLast?.filter fun line => !line.isEmpty).toList

end CallTrace.Text
