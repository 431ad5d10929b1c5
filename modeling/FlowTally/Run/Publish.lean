import FlowTally.Export.Basic
import FlowTally.Run.Basic

/-!
# Publishing a run

The output of a run is exported once. Whether that is allowed is decided by the
state of the run; an export that fails ends the run.
-/

namespace FlowTally.Run

def parts (output : RunOutput) : ExportParts :=
  ⟨output.tally.matrix, output.tally.vocabulary, output.tally.labels⟩

structure Published (α : Type) where
  outcome : Outcome α
  files : FileTree

def publish (run : Run) (fails : Nat → Option IoFault) (files : FileTree) (target : ExportTarget)
    (stamp : Stamp) (output : RunOutput) : Published Manifest :=
  match run.state.beginExport output.report.cancelled with
  | .error e => ⟨⟨.error e, run, []⟩, files⟩
  | .ok state =>
    let exported := Export.run fails files target stamp (parts output)
    match exported.result with
    | .error e => ⟨run.abort ⟨e, state, exported.events⟩, exported.files⟩
    | .ok m =>
      match state.finish with
      | .error e => ⟨⟨.error e, { run with state := state }, exported.events⟩, exported.files⟩
      | .ok state => ⟨⟨.ok m, { run with state := state }, exported.events⟩, exported.files⟩

def extractAndPublish (run : Run) (raised : List Sample → Bool) (fails : Nat → Option IoFault)
    (files : FileTree) (target : ExportTarget) (stamp : Stamp) :
    Published (RunOutput × Manifest) :=
  let extracted := run.extract raised
  match extracted.result with
  | .error e => ⟨⟨.error e, extracted.run, extracted.events⟩, files⟩
  | .ok output =>
    let published := extracted.run.publish fails files target stamp output
    ⟨⟨published.outcome.result.map fun m => (output, m), published.outcome.run,
      extracted.events ++ published.outcome.events⟩, published.files⟩

end FlowTally.Run
