import CallTrace.Command.Arguments
import CallTrace.Command.Manifest

/-!
# Running the program

What is left open elsewhere is put in here: the command line is read by `Arguments.read`, and
manifests are read as JSON.
-/

namespace CallTrace

/-- Commands read manifests as JSON. -/
instance : ManifestReader :=
  Json.manifestReader

/-- The text that tells the version. -/
def versionText : String := "cgtrace 0.1.0\n"

/-- Runs a command line, without the name of the program. -/
def runArguments (arguments : List String) (disk : Disk) : Outcome :=
  match Arguments.read arguments with
  | .ok invocation => invocation.command.run disk
  | .error error =>
    ⟨error.exitCode, if error = .displayVersion then versionText else "", "", disk⟩

end CallTrace
