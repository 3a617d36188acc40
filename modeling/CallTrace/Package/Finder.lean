import CallTrace.Merge.Graph
import CallTrace.Package.Basic
import Std.Data.HashMap

/-!
# Finding packages

The package of a file is that of the nearest directory above it that has one. A directory is looked
at once; what was found there holds from then on. Manifests are read by a reader that is given from
outside.
-/

namespace CallTrace

open Text

/-- The package of a file, and where in it the file stands. -/
structure Ownership where
  package : Package
  /-- Seen from the package, without the extension of a script. -/
  path : String
deriving DecidableEq, Repr

/-- What was found in the directories looked at so far. -/
structure PackageFinder where
  found : Std.HashMap (List Path.Part) (Option Package)

/-- The extensions of scripts. -/
def scriptExtensions : List (List Char) :=
  [".js".toList, ".ts".toList]

/-- A path without the extension of a script. -/
def dropScriptExtension (path : String) : String :=
  match scriptExtensions.findSome? fun extension => beforeTail? extension path.toList with
  | some rest => String.ofList rest
  | none => path

namespace PackageFinder

/-- A finder that has looked nowhere. -/
def empty : PackageFinder :=
  ⟨∅⟩

/-- How many directories were looked at. -/
def size (finder : PackageFinder) : Nat :=
  finder.found.size

/-- The package of a directory itself. -/
def ofDirectory [ManifestReader] (finder : PackageFinder) (disk : Disk) (dir : String) :
    Option Package × PackageFinder :=
  let key := Path.parts dir
  match finder.found[key]? with
  | some package => (package, finder)
  | none =>
    let package := Package.ofDirectory? disk dir
    (package, ⟨finder.found.insert key package⟩)

/-- The first of the directories that has a package, with that package. -/
def firstPackage [ManifestReader] (finder : PackageFinder) (disk : Disk) :
    List String → Option (String × Package) × PackageFinder
  | [] => (none, finder)
  | dir :: rest =>
    match finder.ofDirectory disk dir with
    | (some package, finder) => (some (dir, package), finder)
    | (none, finder) => finder.firstPackage disk rest

/-- The package of a file. The search goes outward from the file, and for a relative path it stops
short of the working directory. -/
def ownerOf [ManifestReader] (finder : PackageFinder) (disk : Disk) (file : String) :
    Ownership × PackageFinder :=
  match finder.firstPackage disk ((Path.ancestors file).takeWhile fun dir => !dir.isEmpty) with
  | (some (dir, package), finder) =>
    (⟨package, dropScriptExtension ((Path.relativeTo? dir file).getD file)⟩, finder)
  | (none, finder) => (⟨Package.unknown, dropScriptExtension file⟩, finder)

/-- How the paths of the runtime's own modules start. -/
def moduleScheme : List Char := "node:".toList

/-- The name of a function that holds in every process and run. -/
def uriOf [ManifestReader] (finder : PackageFinder) (disk : Disk) (name : String)
    (positionStart positionEnd : Int32) (path : String) : String × PackageFinder :=
  let name := shownName name positionStart positionEnd
  match afterHead? moduleScheme path.toList with
  | some module =>
    ("node://node/[node:" ++ String.ofList module ++ "]/" ++ name ++ "()", finder)
  | none =>
    match finder.ownerOf disk path with
    | (⟨package, path⟩, finder) =>
      ("javascript://" ++ package.name ++ "$" ++ package.version ++ "/[" ++ package.name ++ ":"
        ++ package.version ++ ":" ++ path ++ "]/" ++ name ++ "()", finder)

end PackageFinder

end CallTrace
