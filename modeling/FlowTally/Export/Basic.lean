import FlowTally.Event
import FlowTally.Export.Labels
import FlowTally.Export.Manifest
import FlowTally.Files
import FlowTally.Key.Lines
import FlowTally.Matrix.Basic
import FlowTally.Matrix.Market
import FlowTally.Text.Quoted
import FlowTally.Vocabulary.File

/-!
# Exports

An export publishes matrix, vocabulary, labels and manifest in one directory.
The parts have to fit together before anything is written. The files are then
written in a staging directory inside the output directory and moved into their
places, the manifest last; an older manifest is removed first. So a manifest
never stands beside files of another export, at whichever action the file
system fails.
-/

namespace FlowTally

structure ExportParts where
  matrix : CountMatrix := {}
  vocabulary : Vocabulary := {}
  labels : LabelRegistry := {}
deriving DecidableEq, Repr, Inhabited

structure ExportTarget where
  directory : String
  labelStyle : LabelStyle
deriving DecidableEq, Repr, Inhabited

/-- What is new with each export: its id, its time, and the name of its staging directory. -/
structure Stamp where
  runId : RunId
  createdAt : Instant
  staging : String
deriving DecidableEq, Repr, Inhabited

namespace Export

def matrixFile : String := "features.mtx"
def vocabularyFile : String := "graphs.txt"
def labelsFile : String := "labels.txt"
def manifestFile : String := "manifest.json"

/-! ### Alignment -/

def holdsLineBreak (id : String) : Bool := id.toList.any fun c => c == '\n' || c == '\r'

/-- The parts agree in rows and columns, and every sample id fits on one line. -/
def checkAlignment (p : ExportParts) : Except RunError Unit :=
  (p.vocabulary.check.mapError Vocabulary.Fault.error).bind fun _ =>
    if p.matrix.rows ≠ p.labels.size then
      .error (.consistency s!"{p.labels.size} labels for {p.matrix.rows} matrix rows")
    else if p.vocabulary.size < p.matrix.columns then
      .error (.consistency
        s!"matrix has {p.matrix.columns} columns but vocabulary has {p.vocabulary.size} keys")
    else
      match p.labels.entries.find? fun e => holdsLineBreak e.sampleId with
      | some e => .error (.consistency s!"sample id {Text.quote e.sampleId} contains a line break")
      | none => .ok ()

def table (p : ExportParts) : CellTable := p.matrix.crop p.labels.size p.vocabulary.size

/-! ### Actions -/

inductive Action where
  | makeOutput (directory : String)
  | removeManifest (path : String)
  | makeStaging (directory path : String)
  | create (path : String)
  | write (path : String) (content : Content)
  | flush (path : String)
  | sync (path : String)
  | publish (source target : String)
  | publishManifest (source target : String)
deriving DecidableEq, Repr

namespace Action

def failure (a : Action) (fault : IoFault) : RunError :=
  let report (what path : String) : RunError := .publish s!"{what} {path}: {fault.message}"
  match a with
  | makeOutput directory => report "create output directory" directory
  | removeManifest path => report "remove stale manifest" path
  | makeStaging directory _ => report "create staging directory" directory
  | create path => report "create" path
  | write path _ => report "write" path
  | flush path => report "flush" path
  | sync path => report "sync" path
  | publish _ target => report "publish artifact" target
  | publishManifest _ target => report "publish manifest" target

def apply (files : FileTree) : Action → Except IoFault FileTree
  | makeOutput directory => files.makeDirectories directory
  | removeManifest path => files.removeFile path
  | makeStaging _ path => files.makeDirectory path
  | create path => files.write path []
  | write path content => files.write path content
  | flush _ => .ok files
  | sync _ => .ok files
  | publish source target => files.rename source target
  | publishManifest source target => files.rename source target

end Action

/-- Runs actions up to the first that fails; `fails` may make the action with a number fail. -/
def perform (fails : Nat → Option IoFault) (number : Nat) (files : FileTree) :
    List Action → Except RunError Unit × FileTree
  | [] => (.ok (), files)
  | action :: rest =>
    match fails number with
    | some fault => (.error (action.failure fault), files)
    | none =>
      match action.apply files with
      | .error fault => (.error (action.failure fault), files)
      | .ok files => perform fails (number + 1) files rest

/-- Writes one file so that it is on the disk. -/
def writeActions (path : String) (content : List Char) : List Action :=
  [.create path, .write path (.ofChars content), .flush path, .sync path]

def artifacts (style : LabelStyle) (p : ExportParts) : List (String × List Char) :=
  [(matrixFile, Market.write (table p)), (vocabularyFile, FlowKey.writeLines p.vocabulary.keys),
    (labelsFile, LabelEntry.writeLines style p.labels.entries)]

def manifest (stamp : Stamp) (style : LabelStyle) (p : ExportParts) : Manifest where
  runId := stamp.runId
  createdAt := stamp.createdAt
  rows := p.labels.size
  columns := p.vocabulary.size
  nonZero := (table p).cells.length
  labelStyle := style
  matrixFile := matrixFile
  vocabularyFile := vocabularyFile
  labelsFile := labelsFile

/-- Actions in the staging directory, up to the manifest in its place. -/
def stagedActions (target : ExportTarget) (stamp : Stamp) (p : ExportParts) : List Action :=
  let staging := FileTree.join target.directory stamp.staging
  let files := artifacts target.labelStyle p
  let content := (manifest stamp target.labelStyle p).write
  let stagedManifest := FileTree.join staging manifestFile
  files.flatMap (fun (name, content) => writeActions (FileTree.join staging name) content) ++
    files.map (fun (name, _) =>
      .publish (FileTree.join staging name) (FileTree.join target.directory name)) ++
    writeActions stagedManifest content ++
    [.publishManifest stagedManifest (FileTree.join target.directory manifestFile)]

/-- Actions between the output and the staging directory; an older manifest is removed if there
is one. -/
def prepareActions (target : ExportTarget) (stamp : Stamp) (stale : Bool) : List Action :=
  (if stale then [.removeManifest (FileTree.join target.directory manifestFile)] else []) ++
    [.makeStaging target.directory (FileTree.join target.directory stamp.staging)]

/-- The staging directory goes away however the export ends. -/
def removeStaging (target : ExportTarget) (stamp : Stamp) (files : FileTree) : FileTree :=
  (files.removeAll (FileTree.join target.directory stamp.staging)).toOption.getD files

structure Outcome where
  result : Except RunError Manifest
  files : FileTree
  events : List Event := []

def run (fails : Nat → Option IoFault) (files : FileTree) (target : ExportTarget) (stamp : Stamp)
    (p : ExportParts) : Outcome :=
  match checkAlignment p with
  | .error e => ⟨.error e, files, []⟩
  | .ok _ =>
    match perform fails 0 files [.makeOutput target.directory] with
    | (.error e, files) => ⟨.error e, files, []⟩
    | (.ok _, files) =>
      let stale := files.exists? (FileTree.join target.directory manifestFile)
      let staging := FileTree.join target.directory stamp.staging
      let prepared := perform fails 1 files (prepareActions target stamp stale)
      match prepared with
      | (.error e, files) => ⟨.error e, files, []⟩
      | (.ok _, files) =>
        let number := 1 + (prepareActions target stamp stale).length
        let (result, files) := perform fails number files (stagedActions target stamp p)
        let files := removeStaging target stamp files
        match result with
        | .error e => ⟨.error e, files, [.exportStaged staging]⟩
        | .ok _ =>
          let m := manifest stamp target.labelStyle p
          ⟨.ok m, files, [.exportStaged staging,
            .exported m.rows m.columns m.nonZero target.directory m.runId.text]⟩

def noFailure (_ : Nat) : Option IoFault := none

end Export

end FlowTally
