/-!
# Frames

What the tracer sees of a call stack. A function is known by the address of its object together
with the generation of that object, since addresses are used again.
-/

namespace CallTrace

/-- The identity of a function object. -/
structure FunctionKey where
  address : UInt64
  generation : UInt32
deriving DecidableEq, Hashable, Repr

/-- An argument of a call. -/
inductive Argument where
  | callable (key : FunctionKey)
  | value
deriving DecidableEq, Repr

/-- A call in progress. -/
structure Frame where
  key : FunctionKey
  arguments : List Argument
deriving DecidableEq, Repr

namespace Frame

/-- An argument by its number; those that are not there are plain values. -/
def argument (frame : Frame) (index : Nat) : Argument :=
  frame.arguments[index]?.getD .value

/-- The functions among the arguments. -/
def callables (frame : Frame) : List FunctionKey :=
  frame.arguments.filterMap fun
    | .callable key => some key
    | .value => none

end Frame

end CallTrace
