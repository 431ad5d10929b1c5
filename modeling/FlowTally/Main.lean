import FlowTally.Command.Basic
import Std.Time.DateTime.Timestamp

/-!
# The program

Reads from the disk what the command needs, runs it, and writes what it
published, the manifest last. A database file comes in as its bytes alone, so
here it is refused as a database.
-/

namespace FlowTally.Program

def place (files : FileTree) (path : String) (entry : Entry) : FileTree :=
  let above := "/".intercalate (FileTree.names path).dropLast
  let files := (files.makeDirectories above).toOption.getD files
  match entry with
  | .directory => (files.makeDirectories path).toOption.getD files
  | entry => (files.put path entry).toOption.getD files

def mountOne (files : FileTree) (path : String) : IO FileTree := do
  let real := (← IO.currentDir) / path
  if ← real.isDir then
    return place files path .directory
  else if ← real.pathExists then
    let bytes ← IO.FS.readBinFile real
    return place files path (.file (.ofBytes bytes.toList))
  else
    return files

def mount (files : FileTree) (path : String) : IO FileTree := do
  let mut files ← mountOne files path
  let real := (← IO.currentDir) / path
  if ← real.isDir then
    for entry in ← real.readDir do
      files ← mountOne files (FileTree.join path entry.fileName)
  return files

/-- Files that a run with a configuration reads or replaces. -/
def mountInputs (files : FileTree) (o : Options) (c : Config) : IO FileTree := do
  let inputs := o.graph.toList ++ o.sqlite.toList ++ c.vocabulary.seed.toList
  mount (← inputs.foldlM mountOne files) c.output.directory

/-- Writes what changed in the output directory. An older manifest goes first and the new one
comes last. -/
def store (before after : FileTree) (directory : String) : IO Unit := do
  let changed (name : String) : Option String :=
    let path := FileTree.join directory name
    if (before.find path).toOption = (after.find path).toOption then none else some path
  if after.exists? directory then
    IO.FS.createDirAll directory
  if let some path := changed Export.manifestFile then
    if before.exists? path then
      IO.FS.removeFile path
  for name in [Export.matrixFile, Export.vocabularyFile, Export.labelsFile, Export.manifestFile] do
    if let some path := changed name then
      if let .ok content := after.read path then
        IO.FS.writeFile path (content.text?.getD "")

def freshStamp : IO Stamp := do
  let noise ← IO.getRandomBytes 16
  let id := RunId.ofRandom (noise.toList.foldl (fun n b => n * 256 + b.toNat) 0)
  let now := (← Std.Time.Timestamp.now).toNanosecondsSinceUnixEpoch.toInt
  let second := now / 1000000000
  let day := second / Instant.secondsPerDay
  let instant : Instant :=
    ⟨day, (second % Instant.secondsPerDay).toNat, (now % 1000000000).toNat⟩
  return ⟨id, instant, ".staging-" ++ String.ofList (RunId.group id.value 6)⟩

def runOptions (o : Options) : IO UInt32 := do
  let mut files ← o.config.toList.foldlM mountOne {}
  let effective := (o.effectiveConfig files).toOption
  if let some c := effective then
    files ← mountInputs files o c
  let outcome := Command.runOptions files (← freshStamp) 1 o
  for event in outcome.events do
    if Level.info.rank ≤ event.level.rank then
      IO.eprintln s!"{event.level.name} {event.text}"
  if let some c := effective then
    store files outcome.files c.output.directory
  match outcome.result with
  | .printed text => IO.print text
  | .failed failure => IO.eprintln failure.report
  | _ => pure ()
  return outcome.result.exitCode.toUInt32

def usage : String :=
  "Usage: flowtally [OPTIONS] <--graph <GRAPH>|--sqlite <SQLITE>>"

end FlowTally.Program

open FlowTally in
def main (arguments : List String) : IO UInt32 := do
  match Options.read arguments with
  | .ok .help =>
    IO.println Program.usage
    return 0
  | .ok (.run o) => Program.runOptions o
  | .error fault =>
    IO.eprintln s!"error: {fault.message}\n\n{Program.usage}"
    return 2
