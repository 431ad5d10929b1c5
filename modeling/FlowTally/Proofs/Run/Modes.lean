import FlowTally.Proofs.Run.Steps

/-!
# Parallel and sequential runs

`extract_parallel`: with a flag that keeps its value, a run in batches answers
what the run sample by sample answers, and leaves the same state. Whatever the
source does, the same samples are reached and go through the same steps in the
order of rows; a batch is only a part of that order.
-/

namespace FlowTally.Run

def inParallel (run : Run) (workers batchSize : Nat) : Run :=
  { run with parallel := ⟨true, workers, batchSize⟩ }

def inSequence (run : Run) : Run := { run with parallel := { run.parallel with enabled := false } }

variable {done found : List Sample} {batches : List (List Sample)}

theorem reached_const (flag : Bool) :
    reached (fun _ => flag) done found = if flag then [] else found := by
  induction found generalizing done with
  | nil => cases flag <;> rfl
  | cons sample rest ih =>
    cases flag with
    | true => rfl
    | false => exact congrArg (sample :: ·) ih

theorem reachedBatches_const (flag : Bool) :
    reachedBatches (fun _ => flag) done batches = if flag then [] else batches.flatten := by
  induction batches generalizing done with
  | nil => cases flag <;> rfl
  | cons batch rest ih =>
    cases flag with
    | true => rfl
    | false => exact congrArg (batch ++ ·) ih

theorem reachedSamples_const (run : Run) (flag : Bool) (found : List Sample) :
    run.reachedSamples (fun _ => flag) found = if flag then [] else found := by
  unfold reachedSamples
  split
  · rw [reachedBatches_const, flatten_chunks (by omega)]
  · exact reached_const flag

/-- Batches of any size on any count of workers give the result and the state of a run that
takes one sample after the other. -/
theorem extract_parallel (run : Run) (workers batchSize : Nat) (flag : Bool) :
    ((run.inParallel workers batchSize).extract fun _ => flag).result =
        (run.inSequence.extract fun _ => flag).result ∧
      ((run.inParallel workers batchSize).extract fun _ => flag).run.state =
        (run.inSequence.extract fun _ => flag).run.state := by
  have hparallel := extract_eq (run.inParallel workers batchSize) fun _ => flag
  have hsequence := extract_eq run.inSequence fun _ => flag
  simp only [reachedSamples_const] at hparallel hsequence
  exact Prod.mk.inj (hparallel.trans hsequence.symm)

end FlowTally.Run
