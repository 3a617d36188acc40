import CallTrace.Json.Value
import CallTrace.Package.Basic

/-!
# Manifests in JSON

The reader of manifests that the program runs with. A manifest has to be JSON as a whole; members
other than the name and the version do not matter.

Nothing about packages rests on how this reader works: it is only handed to the commands.
-/

namespace CallTrace.Json

/-- A text or its absence; other values have no place in a manifest. -/
def optionalText? : Json → Option (Option String)
  | .null => some none
  | .string (some text) => some (some text)
  | _ => none

/-- The text of a member or its absence; a member must not occur twice. -/
def member? (key : String) (members : List (Option String × Json)) : Option (Option String) :=
  match members.filter fun member => member.1 == some key with
  | [] => some none
  | [(_, value)] => optionalText? value
  | _ => none

/-- What a value says as a manifest, which is an object or a pair. -/
def manifest? : Json → Option Manifest
  | .object members =>
    if members.all fun member => member.1.isSome then do
      return ⟨← member? "name" members, ← member? "version" members⟩
    else none
  | .array [name, version] => do return ⟨← optionalText? name, ← optionalText? version⟩
  | _ => none

/-- The reader of manifests in JSON. -/
abbrev manifestReader : ManifestReader where
  read? text := (ofText? text).bind manifest?

end CallTrace.Json
