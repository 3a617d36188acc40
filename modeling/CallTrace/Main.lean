import CallTrace.Command.Run

/-!
# Command line

The part of the program that touches the system. It takes a picture of the files that a command
can ask for, runs the command on the picture, and carries out what the command wrote.
-/

namespace CallTrace.Main

/-- The text for a command line that leads to no command. -/
def usage : String :=
  "Merge and inspect dynamic call-graph traces\n\n"
    ++ "Usage: cgtrace [--debug] merge [-o FILE] DIR\n"
    ++ "       cgtrace [--debug] summary DIR\n"
    ++ "       cgtrace help | --help | --version\n"

/-- The node that the system has under a path. What is neither a directory nor a plain file counts
as an empty file. -/
def nodeOf (path : String) : IO (Option Node) := do
  try
    let metadata ← (System.mkFilePath [path]).metadata
    match metadata.type with
    | .dir => return some .directory
    | .file => return some (.file (← IO.FS.readBinFile path).toList)
    | _ => return some (.file [])
  catch _ => return none

/-- Adds what stands under a path, and under its ancestors, to a picture. -/
def addPath (disk : Disk) (path : String) : IO Disk := do
  let mut disk := disk
  for path in (path :: Path.ancestors path).reverse do
    if !path.isEmpty && !disk.contains path then
      if let some node ← nodeOf path then
        if let .ok (route : Disk.Route) := disk.route path then
          if let .ok place := disk.newPlace .alreadyExists route then
            disk := disk.put place node
  return disk

/-- Adds the trace files of a directory to a picture. -/
def addTraces (disk : Disk) (dir : String) : IO Disk := do
  let mut disk ← addPath disk dir
  if disk.isDirectory dir then
    for entry in ← (System.mkFilePath [dir]).readDir do
      if let some files := ProcessFiles.ofFileName? dir entry.fileName then
        disk ← addPath disk files.definitions
        disk ← addPath disk files.calls
  return disk

/-- Adds the manifests that can matter for the functions of a graph to a picture. -/
def addManifests (disk : Disk) (dir : String) (graph : CallGraph) : IO Disk := do
  let mut disk ← addPath disk (Path.join dir Package.manifestFile)
  for f in graph.functions do
    for ancestor in Path.ancestors f.path do
      if !ancestor.isEmpty then
        disk ← addPath disk (Path.join ancestor Package.manifestFile)
  return disk

/-- A picture without files, with the working directory of the system. -/
def bareDisk : IO Disk := do
  let path := (← IO.currentDir).toString
  let place := ((path.toList.splitOn '/').filter fun piece => !piece.isEmpty).map String.ofList
  let above := (List.range place.length).map fun n => (place.take (n + 1), Node.directory)
  return ⟨above, place⟩

/-- The picture that a command needs. -/
def picture (command : Command) : IO Disk := do
  let dir := match command with
    | .merge dir _ => dir
    | .summary dir => dir
  let disk ← addTraces (← bareDisk) dir
  match CallGraph.ofDirectory disk dir with
  | .error _ => return disk
  | .ok graph =>
    let disk ← addManifests disk dir graph
    match command with
    | .merge dir output => addPath disk (output.getD (Path.join dir graphFile))
    | .summary _ => return disk

/-- Carries out what a successful command wrote, and tells what is to be reported. -/
def carryOut (command : Command) (outcome : Outcome) : IO Outcome := do
  match command with
  | .merge dir output =>
    let path := output.getD (Path.join dir graphFile)
    match outcome.disk.read path with
    | .ok content =>
      try
        IO.FS.withFile path .write fun file => do
          file.write content.toByteArray
          file.flush
        return outcome
      catch e =>
        let chain := ["Failed to write call graph to " ++ path, toString e]
        return ⟨1, "", Report.ofChain chain, outcome.disk⟩
    | .error _ => return outcome
  | .summary _ => return outcome

end CallTrace.Main

open CallTrace in
/-- Runs the program. -/
def main (arguments : List String) : IO UInt32 := do
  match Arguments.read arguments with
  | .error error =>
    let outcome := runArguments arguments ⟨[], []⟩
    if error = .displayVersion then IO.print outcome.output
    else if error.isAnswer then IO.print Main.usage
    else IO.eprint Main.usage
    return UInt32.ofNat outcome.exitCode
  | .ok invocation =>
    let planned := invocation.command.run (← Main.picture invocation.command)
    let outcome ←
      if planned.exitCode = 0 then Main.carryOut invocation.command planned else pure planned
    IO.print outcome.output
    IO.eprint outcome.errors
    return UInt32.ofNat outcome.exitCode
