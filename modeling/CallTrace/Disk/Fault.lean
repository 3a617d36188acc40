import CallTrace.Text.Decimal

/-!
# System faults

Why the system refuses to open, read, write or connect.
-/

namespace CallTrace

/-- A refusal by the system. -/
inductive Fault where
  | noEntry
  | alreadyExists
  | notDirectory
  | isDirectory
  | noSpace
  | nameTooLong
  | connectionRefused
  /-- What was read as text is not UTF-8. -/
  | notUtf8
  /-- A file name holds the character that ends names. -/
  | nulInName
  /-- Not even the first directory of a path can be made. -/
  | noTree
deriving DecidableEq, Repr

namespace Fault

/-- The wording of a fault with a number of its own. -/
def numbered (text : String) (code : Nat) : String :=
  text ++ " (os error " ++ String.ofList (Decimal.ofNat code) ++ ")"

/-- The wording of a fault. -/
def message : Fault → String
  | noEntry => numbered "No such file or directory" 2
  | alreadyExists => numbered "File exists" 17
  | notDirectory => numbered "Not a directory" 20
  | isDirectory => numbered "Is a directory" 21
  | noSpace => numbered "No space left on device" 28
  | nameTooLong => numbered "File name too long" 36
  | connectionRefused => numbered "Connection refused" 111
  | notUtf8 => "stream did not contain valid UTF-8"
  | nulInName => "file name contained an unexpected NUL byte"
  | noTree => "failed to create whole tree"

end Fault

end CallTrace
