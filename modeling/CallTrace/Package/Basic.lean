import CallTrace.Disk.Basic

/-!
# Packages

A package is a directory with a manifest that gives a name and a version. How a manifest is written
is not said here: what reads its text is given from outside (`ManifestReader`). A manifest that is
no file, is not UTF-8, or is refused by the reader counts as none; why it was refused is not kept.
-/

namespace CallTrace

/-- The name and version of a package. -/
structure Package where
  name : String
  version : String
deriving DecidableEq, Repr

/-- What a manifest says about its package. -/
structure Manifest where
  name : Option String
  version : Option String
deriving DecidableEq, Repr

/-- A reader of manifests, which takes a text or refuses it. -/
class ManifestReader where
  read? (text : List Char) : Option Manifest

/-- The package of a manifest, which has to give both a name and a version. -/
def Manifest.package? (manifest : Manifest) : Option Package := do
  return ⟨← manifest.name, ← manifest.version⟩

namespace Package

/-- What stands for a package that is not known. -/
def unknown : Package :=
  ⟨"<name>", "<version>"⟩

/-- Name and version in one. -/
def qualified (package : Package) : String :=
  package.name ++ "@" ++ package.version

/-- The name of manifest files. -/
def manifestFile : String := "package.json"

/-- The package of a directory, if its manifest can be read and describes one. -/
def ofDirectory? [ManifestReader] (disk : Disk) (dir : String) : Option Package := do
  let bytes ← (disk.read (Path.join dir manifestFile)).toOption
  let text ← Utf8.decode? bytes
  let manifest ← ManifestReader.read? text
  manifest.package?

end Package

end CallTrace
