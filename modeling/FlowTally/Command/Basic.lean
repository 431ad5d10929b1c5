import FlowTally.Command.Options
import FlowTally.Config.Printer
import FlowTally.Config.Reader
import FlowTally.Run.Publish
import FlowTally.Source.FromGraph

/-!
# The command

The command loads a configuration, overrides it by options, opens the graph,
runs the extraction and publishes its output. It works on a file tree, so what
it does is a function of its arguments and the files.
-/

namespace FlowTally

/-- What ends the command early: the error that is shown, and the one behind it. -/
structure Failure where
  text : String
  cause : Option String := none
deriving DecidableEq, Repr, Inhabited

namespace Failure

def ofConfig (e : ConfigError) : Failure :=
  let cause := match e with
    | .io fault => some fault.message
    | .yaml reason => some reason
    | _ => none
  ⟨e.message, cause⟩

def ofRun (e : RunError) : Failure :=
  let cause := match e with
    | .config error => some error.message
    | .io fault => some fault.message
    | _ => none
  ⟨e.message, cause⟩

def report (f : Failure) : String :=
  match f.cause with
  | none => s!"Error: {f.text}"
  | some cause => s!"Error: {f.text}\n\nCaused by:\n    {cause}"

end Failure

inductive CommandResult where
  | usage (fault : Options.Fault)
  | help
  | printed (text : String)
  | failed (failure : Failure)
  | published (output : RunOutput) (manifest : Manifest)

def CommandResult.exitCode : CommandResult → Nat
  | .usage _ => 2
  | .failed _ => 1
  | _ => 0

namespace Options

def override (o : Options) (c : Config) : Config :=
  { c with
    output :=
      { directory := o.output.getD c.output.directory
        labelStyle := o.labelStyle.getD c.output.labelStyle }
    parallel :=
      { enabled := c.parallel.enabled || o.workers.isSome
        workers := o.workers.getD c.parallel.workers
        batchSize := o.batchSize.getD c.parallel.batchSize }
    vocabulary :=
      match o.vocabulary with
      | some path => ⟨some path, o.frozen⟩
      | none => c.vocabulary }

def baseConfig (o : Options) (files : FileTree) : Except Failure Config :=
  match o.config with
  | none => .ok {}
  | some path =>
    (Config.load files path).mapError fun e => ⟨s!"loading {path}", some e.message⟩

def effectiveConfig (o : Options) (files : FileTree) : Except Failure Config :=
  (o.baseConfig files).bind fun base =>
    let c := o.override base
    (c.check.mapError Failure.ofConfig).map fun _ => c

def openSource (o : Options) (files : FileTree) (c : Config) : Except Failure GraphSource :=
  match o.graph, o.sqlite with
  | some path, _ =>
    (GraphSource.load files path c.samples c.traversal).mapError fun e =>
      ⟨s!"opening graph export {path}", some e.message⟩
  | none, some path =>
    (GraphSource.loadDatabase files path c.samples c.traversal).mapError fun e =>
      ⟨s!"opening SQLite graph store {path}", some e.message⟩
  | none, none => .error ⟨"one of --graph or --sqlite is required", none⟩

end Options

namespace Command

structure Outcome where
  result : CommandResult
  files : FileTree
  events : List Event := []

def extract (files : FileTree) (stamp : Stamp) (processors : Nat) (g : GraphSource) (c : Config) :
    Outcome :=
  match Run.ofConfig files g.source c with
  | .error e => ⟨.failed (.ofRun e), files, []⟩
  | .ok (run, seeded) =>
    let published := { run with processors := processors }.extractAndPublish (fun _ => false)
      Export.noFailure files ⟨c.output.directory, c.output.labelStyle⟩ stamp
    let events := seeded ++ published.outcome.events
    match published.outcome.result with
    | .error e => ⟨.failed (.ofRun e), published.files, events⟩
    | .ok (output, m) => ⟨.published output m, published.files, events⟩

def runOptions (files : FileTree) (stamp : Stamp) (processors : Nat) (o : Options) : Outcome :=
  match o.effectiveConfig files with
  | .error failure => ⟨.failed failure, files, []⟩
  | .ok c =>
    if o.dumpConfig then ⟨.printed c.print, files, []⟩
    else match o.openSource files c with
      | .error failure => ⟨.failed failure, files, []⟩
      | .ok g => extract files stamp processors g c

def run (files : FileTree) (stamp : Stamp) (processors : Nat) (arguments : List String) : Outcome :=
  match Options.read arguments with
  | .error fault => ⟨.usage fault, files, []⟩
  | .ok .help => ⟨.help, files, []⟩
  | .ok (.run o) => runOptions files stamp processors o

end Command

end FlowTally
