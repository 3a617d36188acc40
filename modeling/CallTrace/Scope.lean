import CallTrace.Text.Cut

/-!
# Scope

Which scripts are traced. The inner workings of the runtime and of development tools are left out,
unless everything is asked for.
-/

namespace CallTrace

open Text

/-- A choice of scripts. -/
structure Scope where
  /-- Whether no script is left out. -/
  everything : Bool
deriving DecidableEq, Repr

namespace Scope

/-- How the paths of the runtime's own scripts start. -/
def internalHead : List Char := "node:".toList

/-- How the paths start of those that are traced all the same, as they call the program back. -/
def timersHead : List Char := "node:timers".toList

/-- What the paths of development tools hold. -/
def toolFragments : List (List Char) :=
  ["/ts-node/".toList, "/typescript/".toList, "/npm/".toList, "/source-map-support/".toList]

/-- Whether the functions of a script are traced. -/
def contains (scope : Scope) (path : String) : Bool :=
  let text := path.toList
  scope.everything ||
    ((!internalHead.isPrefixOf text || timersHead.isPrefixOf text)
      && !toolFragments.any fun fragment => occursIn fragment text)

end Scope

end CallTrace
