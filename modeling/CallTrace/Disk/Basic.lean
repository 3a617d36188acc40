import CallTrace.Disk.Fault
import CallTrace.Disk.Path
import CallTrace.Text.Utf8

/-!
# Disk

A tree of directories and files, and a working directory in it. A path is walked component by
component: each one but the last has to be an existing directory, also where `..` leads back out of
it. What a path leads to is a place, the list of names from the root.

Names are texts, so a name that is not UTF-8 does not occur. A directory is listed as a whole or not
at all; single entries do not fail.
-/

namespace CallTrace

/-- What stands at a place. -/
inductive Node where
  | directory
  | file (content : Bytes)
  /-- A device that opens like a file, holds nothing and has no space left. -/
  | fullDevice
deriving DecidableEq, Repr

/-- The names from the root to a node. -/
abbrev Place := List String

/-- The root directory is always there; every other node is listed with its place. -/
structure Disk where
  nodes : List (Place × Node)
  workingDirectory : Place
deriving Repr

namespace Disk

/-! ## Places -/

/-- What stands at a place. -/
def at? (disk : Disk) (place : Place) : Option Node :=
  if place.isEmpty then some .directory else disk.nodes.lookup place

/-- Puts a node at a place. -/
def put (disk : Disk) (place : Place) (node : Node) : Disk :=
  if (disk.nodes.lookup place).isSome then
    { disk with
      nodes := disk.nodes.map fun entry => if entry.1 = place then (place, node) else entry }
  else
    { disk with nodes := disk.nodes ++ [(place, node)] }

/-- Takes a place and all below it away. -/
def erase (disk : Disk) (place : Place) : Disk :=
  { disk with nodes := disk.nodes.filter fun entry => !place.isPrefixOf entry.1 }

/-! ## Walking -/

/-- The longest name, in bytes. -/
def nameLimit : Nat := 255

/-- The length, in bytes, at which a path is too long. -/
def pathLimit : Nat := 4096

/-- A path as the system takes it: where to start, the pieces to walk, and whether a slash at the
end asks for a directory. -/
structure Route where
  start : Place
  pieces : List String
  toDirectory : Bool
deriving Repr

/-- The route of a path, unless the path is refused as a text. -/
def route (disk : Disk) (path : String) : Except Fault Route :=
  let text := path.toList
  if text.contains '\x00' then .error .nulInName
  else if text.isEmpty then .error .noEntry
  else if pathLimit ≤ path.utf8ByteSize then .error .nameTooLong
  else .ok {
    start := if text.head? == some '/' then [] else disk.workingDirectory
    pieces := ((text.splitOn '/').filter fun piece => !piece.isEmpty).map String.ofList
    toDirectory := text.getLast? == some '/' }

/-- One step from a place. -/
def step (disk : Disk) (place : Place) (piece : String) : Except Fault Place :=
  match disk.at? place with
  | some .directory =>
    if piece = "." then .ok place
    else if piece = ".." then .ok place.dropLast
    else if nameLimit < piece.utf8ByteSize then .error .nameTooLong
    else match disk.at? (place ++ [piece]) with
      | some _ => .ok (place ++ [piece])
      | none => .error .noEntry
  | some _ => .error .notDirectory
  | none => .error .noEntry

/-- All steps along the pieces. -/
def walk (disk : Disk) : Place → List String → Except Fault Place
  | place, [] => .ok place
  | place, piece :: rest => do disk.walk (← disk.step place piece) rest

/-- What a path leads to, and where. -/
def resolve (disk : Disk) (path : String) : Except Fault (Place × Node) := do
  let route ← disk.route path
  let place ← disk.walk route.start route.pieces
  match disk.at? place with
  | some .directory => .ok (place, .directory)
  | some node => if route.toDirectory then .error .notDirectory else .ok (place, node)
  | none => .error .noEntry

/-! ## Looking -/

/-- Whether the path leads to something. -/
def contains (disk : Disk) (path : String) : Bool :=
  (disk.resolve path).isOk

/-- Whether the path leads to a directory. -/
def isDirectory (disk : Disk) (path : String) : Bool :=
  match disk.resolve path with
  | .ok (_, .directory) => true
  | _ => false

/-- The names in a directory. -/
def list (disk : Disk) (path : String) : Except Fault (List String) := do
  match ← disk.resolve path with
  | (place, .directory) =>
    .ok <| disk.nodes.filterMap fun entry =>
      if entry.1.dropLast = place then entry.1.getLast? else none
  | _ => .error .notDirectory

/-- What can be opened at a path: a directory opens, but cannot be read. -/
def openFile (disk : Disk) (path : String) : Except Fault (Except Fault Bytes) := do
  match ← disk.resolve path with
  | (_, .directory) => .ok (.error .isDirectory)
  | (_, .file content) => .ok (.ok content)
  | (_, .fullDevice) => .ok (.ok [])

/-- The content of a file. -/
def read (disk : Disk) (path : String) : Except Fault Bytes := do
  ← disk.openFile path

/-! ## Changing -/

/-- The place that a new entry takes: its directory has to exist, and its last piece has to be a
name. A path without a name at its end is refused with `nameless`. -/
def newPlace (disk : Disk) (nameless : Fault) (route : Route) : Except Fault Place := do
  let directory ← disk.walk route.start route.pieces.dropLast
  match disk.at? directory with
  | some .directory =>
    match route.pieces.getLast? with
    | some name =>
      if name = "." ∨ name = ".." then .error nameless
      else if nameLimit < name.utf8ByteSize then .error .nameTooLong
      else .ok (directory ++ [name])
    | none => .error nameless
  | some _ => .error .notDirectory
  | none => .error .noEntry

/-- Makes one directory. -/
def makeDirectory (disk : Disk) (path : String) : Except Fault Disk := do
  let route ← disk.route path
  let place ← disk.newPlace .alreadyExists route
  match disk.at? place with
  | some _ => .error .alreadyExists
  | none => .ok (disk.put place .directory)

/-- Makes the first of the paths, and the ones after it where they are missing. Each path is the
parent of the one before it, and a directory that is already there is as good as a new one. -/
def makeOutward (disk : Disk) : List String → Except Fault Disk
  | [] => .error .noTree
  | path :: parents =>
    if path.isEmpty then .ok disk
    else match disk.makeDirectory path with
      | .ok disk => .ok disk
      | .error .noEntry => do
        let disk ← disk.makeOutward parents
        match disk.makeDirectory path with
        | .ok disk => .ok disk
        | .error fault => if disk.isDirectory path then .ok disk else .error fault
      | .error fault => if disk.isDirectory path then .ok disk else .error fault

/-- Makes a directory and its missing ancestors. -/
def makeDirectories (disk : Disk) (path : String) : Except Fault Disk :=
  disk.makeOutward (path :: Path.ancestors path)

/-- Creates or empties a file, and tells where it is. -/
def create (disk : Disk) (path : String) : Except Fault (Place × Disk) := do
  let route ← disk.route path
  if route.toDirectory then
    let directory ← disk.walk route.start route.pieces.dropLast
    match disk.at? directory with
    | some .directory => .error .isDirectory
    | some _ => .error .notDirectory
    | none => .error .noEntry
  else
    let place ← disk.newPlace .isDirectory route
    match disk.at? place with
    | some .directory => .error .isDirectory
    | some .fullDevice => .ok (place, disk)
    | some (.file _) | none => .ok (place, disk.put place (.file []))

/-- Adds bytes to the end of the file at a place. -/
def append (disk : Disk) (place : Place) (bytes : Bytes) : Except Fault Disk :=
  match disk.at? place with
  | some (.file content) => .ok (disk.put place (.file (content ++ bytes)))
  | some .fullDevice => if bytes.isEmpty then .ok disk else .error .noSpace
  | _ => .ok disk

/-- Creates a file with the given content. When only the writing fails, the file is there. -/
def write (disk : Disk) (path : String) (bytes : Bytes) : Except Fault Unit × Disk :=
  match disk.create path with
  | .error fault => (.error fault, disk)
  | .ok (place, disk) =>
    match disk.append place bytes with
    | .error fault => (.error fault, disk)
    | .ok disk => (.ok (), disk)

end Disk

end CallTrace
