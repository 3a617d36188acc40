import CallTrace.Document
import CallTrace.Summary

/-!
# Commands

What a command prints, writes and exits with.
-/

namespace CallTrace

open Text

/-- What the program is asked to do. -/
inductive Command where
  /-- Write the graph of the traces in a directory, to a file of its own if one is named. -/
  | merge (dir : String) (output : Option String)
  /-- Print the degrees of the functions in the traces of a directory. -/
  | summary (dir : String)
deriving DecidableEq, Repr

/-- What a run of the program leaves behind. -/
structure Outcome where
  exitCode : Nat
  output : String
  errors : String
  disk : Disk

namespace Report

/-- A text whose further lines are indented like its first one. -/
def indented (head continuation text : List Char) : List Char :=
  head ++ ('\n' :: continuation).intercalate (text.splitOn '\n')

/-- The number of a cause, right-aligned. -/
def numberHead (number : Nat) : List Char :=
  let digits := Decimal.ofNat number
  List.replicate (5 - digits.length) ' ' ++ digits ++ [':', ' ']

/-- Causes with numbers from the given one. -/
def numbered (number : Nat) : List String → List (List Char)
  | [] => []
  | cause :: rest =>
    indented (numberHead number) (List.replicate 7 ' ') cause.toList :: numbered (number + 1) rest

/-- The lines for the causes of a failure; a single cause needs no number. -/
def causes : List String → List (List Char)
  | [cause] => [indented (List.replicate 4 ' ') (List.replicate 4 ' ') cause.toList]
  | all => numbered 0 all

/-- The report of a failure, from its outermost cause inward. -/
def ofChain : List String → String
  | [] => ""
  | top :: rest =>
    let tail :=
      if rest.isEmpty then []
      else "\n\nCaused by:".toList ++ (causes rest).flatMap fun cause => '\n' :: cause
    String.ofList ("Error: ".toList ++ top.toList ++ tail ++ ['\n'])

end Report

namespace Command

/-- A run that came to its end. -/
def succeed (output : String) (disk : Disk) : Outcome :=
  ⟨0, output, "", disk⟩

/-- A run that failed. -/
def fail (error : MergeError) (disk : Disk) : Outcome :=
  ⟨1, "", Report.ofChain error.chain, disk⟩

/-- Runs a command. -/
def run [ManifestReader] (command : Command) (disk : Disk) : Outcome :=
  match command with
  | .merge dir output =>
    match writeGraph disk dir output with
    | (.ok path, disk) => succeed ("Call graph written to " ++ path ++ "\n") disk
    | (.error error, disk) => fail error disk
  | .summary dir =>
    match CallGraph.ofDirectory disk dir with
    | .ok graph => succeed (Summary.ofGraph graph disk).table disk
    | .error error => fail error disk

end Command

end CallTrace
