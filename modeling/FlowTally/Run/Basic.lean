import FlowTally.Config.Basic
import FlowTally.Json.Value
import FlowTally.Phase
import FlowTally.Run.Tally

/-!
# Runs

A run discovers the samples of a source, gives each its row in the order of
ids, decodes them and adds them to a tally in row order. Decoding goes sample
by sample or in batches; either way the tally is fed in the same order. Before
each sample, or each batch, a raised flag cancels the rest. The state keeps
track of the phase, and a failure moves it to the failed phase.
-/

namespace FlowTally

structure Report where
  discovered : Nat
  processed : Nat
  vocabularySize : Nat
  nonZero : Nat
  counted : Nat
  entryFailures : Nat
  sampleFailures : Nat
  unknown : Nat
  cancelled : Bool
deriving DecidableEq, Repr, Inhabited

def Report.recoverableFailures (r : Report) : Nat := r.entryFailures + r.sampleFailures

/-- The report as a record, together with the count of failures that the run survived. -/
def Report.toJson (r : Report) : Json :=
  .obj [("samples_discovered", .int r.discovered), ("samples_processed", .int r.processed),
    ("vocabulary_size", .int r.vocabularySize), ("nnz", .int r.nonZero),
    ("patterns_counted", .int r.counted), ("entry_point_failures", .int r.entryFailures),
    ("sample_failures", .int r.sampleFailures), ("unknown_patterns", .int r.unknown),
    ("cancelled", .bool r.cancelled), ("recoverable_failures", .int r.recoverableFailures)]

structure RunOutput where
  samples : List Sample
  tally : Tally
  report : Report
deriving DecidableEq, Repr, Inhabited

structure Run where
  source : SampleSource
  parallel : ParallelConfig := {}
  /-- Processors of the machine, for a count of workers that is not given. -/
  processors : Nat := 1
  seed : Vocabulary := {}
  state : RunState := {}

namespace Run

structure Trace where
  state : RunState
  tally : Tally
  events : List Event
deriving Repr, Inhabited

structure Halt where
  error : RunError
  state : RunState
  events : List Event
deriving Repr, Inhabited

/-! ### Discovery -/

def sortSamples (found : List SampleInfo) : List SampleInfo :=
  found.mergeSort fun a b => decide (a.id ≤ b.id)

def repeatedId? : List SampleInfo → Option String
  | a :: b :: rest => if a.id = b.id then some a.id else repeatedId? (b :: rest)
  | _ => none

def withRows (found : List SampleInfo) : List Sample :=
  found.zipIdx.map fun (info, row) => ⟨info.id, info.isPositive, row⟩

/-- Samples by id, numbered by rows. -/
def samples (source : SampleSource) : Except RunError (List Sample) :=
  match source.samples with
  | .error e => .error (.connection s!"sample discovery failed: {e.message}")
  | .ok found =>
    match repeatedId? (sortSamples found) with
    | some id => .error (.consistency s!"sample '{id}' discovered twice")
    | none => .ok (withRows (sortSamples found))

/-! ### Accumulation -/

/-- Takes over a decoded sample; `more` was reported while it was decoded. -/
def Trace.take (total : Nat) (t : Trace) (sample : Sample) (decoded : Except String Decoded)
    (more : List Event) : Except Halt Trace :=
  match t.state.begin sample.row total with
  | .error e => .error ⟨e, t.state, t.events⟩
  | .ok state =>
    let events := t.events ++ more
    match decoded with
    | .error text => .error ⟨.connection text, state, events⟩
    | .ok decoded =>
      match state.accumulate with
      | .error e => .error ⟨e, state, events⟩
      | .ok state =>
        match t.tally.add sample decoded with
        | .error e => .error ⟨e, state, events⟩
        | .ok tally =>
          let shown := Event.sampleProcessed (sample.row + 1) total sample.id tally.matrix.rows
            tally.matrix.columns
          .ok ⟨state, tally, events ++ [shown]⟩

def Trace.cancel (t : Trace) (done total : Nat) : Trace :=
  { t with events := t.events ++ [.runCancelled done total] }

/-- Processes samples one by one; the answer says whether the run was cancelled. `raised` tells
whether the flag is raised once the given samples have been decoded. -/
def sequential (about : Sample → SampleAnswer) (raised : List Sample → Bool) (total : Nat)
    (done : List Sample) (t : Trace) : List Sample → Except Halt (Trace × Bool)
  | [] => .ok (t, false)
  | sample :: rest =>
    if raised done then .ok (t.cancel sample.row total, true)
    else
      let (decoded, events) := Decoded.ofAnswer sample (about sample)
      (t.take total sample decoded events).bind fun t =>
        sequential about raised total (done ++ [sample]) t rest

/-- Takes over the samples of a batch. What workers report is not passed on. -/
def takeBatch (about : Sample → SampleAnswer) (total : Nat) (t : Trace) :
    List Sample → Except Halt Trace
  | [] => .ok t
  | sample :: rest =>
    (t.take total sample (Decoded.ofAnswer sample (about sample)).1 []).bind fun t =>
      takeBatch about total t rest

def chunks (size : Nat) (xs : List α) : List (List α) :=
  if xs = [] ∨ size = 0 then [] else xs.take size :: chunks size (xs.drop size)
termination_by xs.length
decreasing_by
  rename_i h
  have : xs.length ≠ 0 := fun e => h (.inl (List.length_eq_zero_iff.mp e))
  simp only [List.length_drop]
  omega

/-- Processes samples batch by batch; a batch is decoded as a whole before it is taken over. -/
def batched (about : Sample → SampleAnswer) (raised : List Sample → Bool) (total : Nat)
    (done : List Sample) (t : Trace) : List (List Sample) → Except Halt (Trace × Bool)
  | [] => .ok (t, false)
  | batch :: rest =>
    if raised done then .ok (t.cancel done.length total, true)
    else
      (takeBatch about total t batch).bind fun t =>
        batched about raised total (done ++ batch) t rest

def process (run : Run) (about : Sample → SampleAnswer) (raised : List Sample → Bool)
    (found : List Sample) (t : Trace) : Except Halt (Trace × Bool) :=
  if run.parallel.enabled then
    let size := max run.parallel.batchSize 1
    let started := Event.workersStarted (run.parallel.workersOn run.processors) size
    batched about raised found.length [] { t with events := t.events ++ [started] }
      (chunks size found)
  else sequential about raised found.length [] t found

/-! ### Extraction -/

structure Outcome (α : Type) where
  result : Except RunError α
  run : Run
  events : List Event

/-- Ends a run with an error; a state that is final already stays as it is. -/
def abort (run : Run) (h : Halt) : Outcome α :=
  ⟨.error h.error, { run with state := (h.state.fail h.error).toOption.getD h.state },
    h.events ++ [.runFailed h.error]⟩

def report (found : List Sample) (tally : Tally) (cancelled : Bool) : Report where
  discovered := found.length
  processed := tally.labels.size
  vocabularySize := tally.vocabulary.size
  nonZero := tally.matrix.nonZero
  counted := tally.counted
  entryFailures := tally.entryFailures
  sampleFailures := tally.sampleFailures
  unknown := tally.unknown
  cancelled := cancelled

def summary (r : Report) : List Event :=
  .runAnalyzed r.processed r.vocabularySize r.recoverableFailures r.cancelled ::
    (if 0 < r.unknown then [.unknownSkipped r.unknown] else [])

/-- An extraction that meets these answers about its samples. -/
def extractFrom (run : Run) (about : Sample → SampleAnswer) (raised : List Sample → Bool) :
    Outcome RunOutput :=
  match run.state.discover with
  | .error e => run.abort ⟨e, run.state, []⟩
  | .ok state =>
    match samples run.source with
    | .error e => run.abort ⟨e, state, []⟩
    | .ok found =>
      let start : Trace := ⟨state, { vocabulary := run.seed }, [.samplesFound found.length]⟩
      match run.process about raised found start with
      | .error halt => run.abort halt
      | .ok (t, cancelled) =>
        let r := report found t.tally cancelled
        ⟨.ok ⟨found, t.tally, r⟩, { run with state := t.state }, t.events ++ summary r⟩

def extract (run : Run) (raised : List Sample → Bool) : Outcome RunOutput :=
  run.extractFrom run.source.about raised

def ofConfig (files : FileTree) (source : SampleSource) (config : Config) :
    Except RunError (Run × List Event) :=
  match config.check with
  | .error e => .error (.config e)
  | .ok _ =>
    let run : Run := { source := source, parallel := config.parallel }
    match config.vocabulary.seed with
    | none => .ok (run, [])
    | some path =>
      (Vocabulary.load files path config.vocabulary.frozen).map fun v =>
        ({ run with seed := v }, [.vocabularySeeded v.size path v.frozen])

end Run

end FlowTally
