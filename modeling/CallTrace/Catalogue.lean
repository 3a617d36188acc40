import CallTrace.Record.Basic
import CallTrace.Scope
import CallTrace.Script
import Std.Data.HashMap

/-!
# Catalogue

The ids of the functions seen so far. A function is known by the path of its script and the number
of its literal, whatever else is said about it, and gets the next free id when it is first seen.
-/

namespace CallTrace

/-- What a function is known by. -/
abbrev FunctionName := String × Int32

/-- The ids given so far, to functions of the scripts in scope. -/
structure Catalogue where
  scope : Scope
  /-- The ids of each script's functions, by the numbers of their literals. -/
  scripts : Std.HashMap String (Std.HashMap Int32 FunctionId)
  /-- The raw number of the next id. -/
  next : Nat

namespace Catalogue

/-- A catalogue without functions. -/
def empty (scope : Scope) : Catalogue :=
  ⟨scope, ∅, 0⟩

/-- How many functions have an id. -/
def size (catalogue : Catalogue) : Nat :=
  catalogue.scripts.fold (fun count _ ids => count + ids.size) 0

/-- The next free id, as long as there is one. -/
def nextId? (catalogue : Catalogue) : Option FunctionId :=
  if h : catalogue.next < FunctionId.limit then some ⟨catalogue.next, h⟩ else none

/-- The id under a name. -/
def id? (catalogue : Catalogue) (name : FunctionName) : Option FunctionId :=
  catalogue.scripts[name.1]?.bind fun ids => ids[name.2]?

/-- With an id under a name, and the number after it for the next one. -/
def insert (catalogue : Catalogue) (name : FunctionName) (id : FunctionId) : Catalogue :=
  { catalogue with
    scripts := catalogue.scripts.insert name.1
      ((catalogue.scripts.getD name.1 ∅).insert name.2 id)
    next := catalogue.next + 1 }

/-- What a function is known by, if it is traced: its script has a name and is in scope, and it is
not the body of the script. -/
def nameOf? (catalogue : Catalogue) (script : Script) (literal : Literal) : Option FunctionName :=
  script.name.bind fun path =>
    if catalogue.scope.contains path && literal.id != 0 then some (path, literal.id) else none

/-- The id of a function that has one. -/
def lookup (catalogue : Catalogue) (script : Script) (literal : Literal) : Option FunctionId :=
  (catalogue.nameOf? script literal).bind catalogue.id?

/-- The line and column of a literal, counted from one, or two zeros if they cannot be told. -/
def lineColumn (script : Script) (literal : Literal) : Int32 × Int32 :=
  if literal.origin = noPosition then (0, 0)
  else
    match script.locate literal.origin with
    | some place => (place.line + 1, place.column + 1)
    | none => (0, 0)

/-- What is announced of a function. -/
def define (id : FunctionId) (path : String) (script : Script) (literal : Literal)
    (isConstructor : Bool) (clock : Int64) : Definition where
  id := some id
  fileIndex := literal.id
  positionStart := literal.origin
  positionEnd := literal.endPosition
  line := (lineColumn script literal).1
  column := (lineColumn script literal).2
  name := literal.name
  isConstructor := isConstructor
  path := path
  timestamp := clock

/-- The id of a traced function, and its definition if the id is new. -/
def register (catalogue : Catalogue) (script : Script) (literal : Literal) (isConstructor : Bool)
    (clock : Int64) : Option FunctionId × Catalogue × Option Definition :=
  match catalogue.nameOf? script literal with
  | none => (none, catalogue, none)
  | some name =>
    match catalogue.id? name with
    | some id => (some id, catalogue, none)
    | none =>
      match catalogue.nextId? with
      | none => (none, catalogue, none)
      | some id =>
        (some id, catalogue.insert name id,
          some (define id name.1 script literal isConstructor clock))

end Catalogue

end CallTrace
