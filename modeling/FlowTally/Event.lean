import FlowTally.Binary64.Decimal
import FlowTally.Error
import FlowTally.Source.Basic

/-!
# Events

What a run reports while it goes on, each event with a level and a text.
-/

namespace FlowTally

inductive Level where
  | debug
  | info
  | warn
  | error
deriving DecidableEq, Repr

def Level.name : Level → String
  | .debug => "DEBUG"
  | .info => "INFO"
  | .warn => "WARN"
  | .error => "ERROR"

def Level.rank : Level → Nat
  | .debug => 0
  | .info => 1
  | .warn => 2
  | .error => 3

inductive Event where
  | graphSaved (nodes edges : Nat)
  | graphLoaded (path : String) (nodes edges : Nat)
  | directoriesIndexed (count : Nat) (pattern : String)
  | vocabularySeeded (keys : Nat) (path : String) (frozen : Bool)
  | samplesFound (count : Nat)
  | workersStarted (workers batchSize : Nat)
  | sampleFailed (error : RunError) (row : Nat)
  | entryFailed (error : RunError)
  | entryRead (entry : Int) (sampleId : String) (flows : Nat)
  | sampleProcessed (done total : Nat) (sampleId : String) (rows columns : Nat)
  | runCancelled (done total : Nat)
  | runAnalyzed (samples features failures : Nat) (cancelled : Bool)
  | unknownSkipped (count : Nat)
  | runFailed (error : RunError)
  | exportStaged (path : String)
  | exported (rows columns nonZero : Nat) (directory run : String)
deriving DecidableEq, Repr

namespace Event

def percent (done total : Nat) : String :=
  let share := do
    let scaled ← (← Binary64.ofNat done).mul (← Binary64.ofNat 100)
    scaled.div (← Binary64.ofNat (max total 1))
  String.ofList (share.getD (.zero false)).tenths

def level : Event → Level
  | .graphSaved .. | .graphLoaded .. | .directoriesIndexed .. | .entryRead ..
  | .exportStaged .. => .debug
  | .sampleFailed .. | .entryFailed .. | .unknownSkipped .. => .warn
  | .runFailed .. => .error
  | _ => .info

def text : Event → String
  | .graphSaved nodes edges => s!"Saved graph snapshot ({nodes} nodes, {edges} edges)"
  | .graphLoaded path nodes edges => s!"Loaded graph export {path} ({nodes} nodes, {edges} edges)"
  | .directoriesIndexed count pattern => s!"Indexed {count} sample directories matching '{pattern}'"
  | .vocabularySeeded keys path frozen =>
    let ending := if frozen then " (frozen)" else ""
    s!"Seeded vocabulary with {keys} keys from {path}{ending}"
  | .samplesFound count => s!"Found {count} samples"
  | .workersStarted workers batchSize =>
    s!"Decoding samples on {workers} workers in batches of {batchSize}"
  | .sampleFailed error row => s!"{error.message}; sample row {row} stays empty"
  | .entryFailed error => s!"{error.message}; counted as zero paths"
  | .entryRead entry sampleId flows => s!"{entryName entry} in {sampleId}: {flows} paths"
  | .sampleProcessed done total sampleId rows columns =>
    let share := percent done total
    s!"Processed {done}/{total} ({share}%) {sampleId} -> matrix {rows}x{columns}"
  | .runCancelled done total => s!"Cancelled after {done} of {total} samples"
  | .runAnalyzed samples features failures cancelled =>
    let ending := if cancelled then ", cancelled" else ""
    s!"Analyzed {samples} samples, extracting {features} unique features ({failures} recoverable failures{ending})"
  | .unknownSkipped count =>
    s!"{count} patterns were not in the frozen vocabulary and were skipped"
  | .runFailed error => s!"Extraction failed ({error.severity.name}): {error.message}"
  | .exportStaged path => s!"Staging export in {path}"
  | .exported rows columns nonZero directory run =>
    s!"Exported {rows}x{columns} matrix ({nonZero} non-zero) to {directory} [run {run}]"

end Event

end FlowTally
