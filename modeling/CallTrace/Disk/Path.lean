import CallTrace.Text.Cut

/-!
# Paths

A path is a text in which slashes separate components. Repeated and trailing slashes do not count,
nor does a component `.` that is not the first of a relative path. Two paths with the same
components are the same path. The ancestors of a path and what follows an ancestor are cut out of
its text, so they keep its way of writing.
-/

namespace CallTrace.Path

/-- One component of a path. -/
inductive Part where
  | root
  | current
  | parent
  | name (text : String)
deriving DecidableEq, Hashable, Repr

/-- A component with the offsets in the path's text at which it starts and ends. -/
structure Mark where
  part : Part
  start : Nat
  stop : Nat
deriving DecidableEq, Repr

/-- The component that a piece between slashes stands for, if it counts. Only the first piece of a
path can be a root or a counting `.`. -/
def partOfPiece (isFirst isOnly : Bool) (piece : List Char) : Option Part :=
  if piece.isEmpty then if isFirst && !isOnly then some .root else none
  else if piece = ['.'] then if isFirst then some .current else none
  else if piece = ['.', '.'] then some .parent
  else some (.name (String.ofList piece))

/-- The components among pieces of which the first starts at `offset`. A root is the one slash
after an empty piece. -/
def marksOfPieces (isFirst : Bool) (offset : Nat) : List (List Char) → List Mark
  | [] => []
  | piece :: rest =>
    let stop := offset + piece.length
    let here := (partOfPiece isFirst rest.isEmpty piece).map fun part =>
      Mark.mk part offset (if part = .root then offset + 1 else stop)
    here.toList ++ marksOfPieces false (stop + 1) rest

/-- The components of a path, with the places where they stand. -/
def marks (path : List Char) : List Mark :=
  marksOfPieces true 0 (path.splitOn '/')

/-- The components of a path. -/
def parts (path : String) : List Part :=
  (marks path.toList).map Mark.part

/-- The proper ancestors of a path from the nearest outward. Those of a relative path end with the
empty path. -/
def ancestors (path : String) : List String :=
  let text := path.toList
  let found := marks text
  let outward := found.dropLast.reverse.map fun mark => String.ofList (text.take mark.stop)
  match found.head?.map Mark.part with
  | none => []
  | some .root => outward
  | some _ => outward ++ [""]

/-- What follows the first `count` components, without slashes around it. -/
def dropParts (count : Nat) (path : String) : String :=
  let rest := (marks path.toList).drop count
  match rest.head?, rest.getLast? with
  | some first, some last =>
    String.ofList ((path.toList.take last.stop).drop first.start)
  | _, _ => ""

/-- What follows `dir` in a path that lies below it. -/
def relativeTo? (dir path : String) : Option String :=
  if (parts dir).isPrefixOf (parts path) then some (dropParts (parts dir).length path) else none

/-- The path `right` as seen from the directory `left`. -/
def join (left right : String) : String :=
  let l := left.toList
  if right.toList.head? == some '/' || l.isEmpty then right
  else if l.getLast? == some '/' then left ++ right
  else left ++ "/" ++ right

end CallTrace.Path
