import FlowTally.Proofs.Run.Cancellation
import FlowTally.Proofs.Run.Failures

/-!
# What a run has accounted for

`Tally.Accounted` is what adding samples keeps, whatever is answered about them:
a row and a label for each sample in turn, and the counts of the records that
they contribute. A sample can be added if it is the next one, none of its answers
is a lost connection and the counts fit (`Accounted.add`); and however it came to
be added, it is accounted for (`Accounted.add_ok`). `extractFrom_ok` says of a run
that succeeds which samples these are.
-/

namespace FlowTally

namespace Tally

structure Labelled (done : List Sample) (t : Tally) : Prop where
  labels : t.labels.entries = done.map fun s => ⟨s.label, s.id⟩
  numbered : done.map (·.row) = List.range done.length

/-- The tally holds what these samples contribute by the answers about them. -/
structure Accounted (about : Sample → SampleAnswer) (seed : Vocabulary) (done : List Sample)
    (t : Tally) : Prop extends Labelled done t where
  counts : Counts seed (done.flatMap fun s => (about s).records) (logBy about done) t
  rows : t.matrix.rows = done.length

variable {about : Sample → SampleAnswer} {seed : Vocabulary} {t t' : Tally} {sample : Sample}
  {done rest : List Sample} {decoded : Decoded}

theorem Labelled.size (h : Labelled done t) : t.labels.size = done.length := by
  rw [LabelRegistry.size, h.labels, List.length_map]

theorem labelled_nil : Labelled [] { vocabulary := seed } := ⟨rfl, rfl⟩

theorem Labelled.add_ok (h : Labelled done t) (hadd : t.add sample decoded = .ok t') :
    Labelled (done ++ [sample]) t' := by
  obtain ⟨hrow, hlabels⟩ := add_labels hadd
  refine ⟨by simp [hlabels, h.labels], ?_⟩
  rw [List.map_append, h.numbered, List.map_singleton, hrow, h.size, List.length_append,
    List.length_singleton, List.range_succ]

theorem logBy_concat (done : List Sample) (sample : Sample) :
    logBy about (done ++ [sample]) =
      logBy about done ++ (about sample).records.map (sample.row, ·) := by
  simp [logBy]

theorem accounted_nil (about : Sample → SampleAnswer) (seed : Vocabulary) :
    Accounted about seed [] { vocabulary := seed } where
  toLabelled := labelled_nil
  counts :=
    { vocabulary := by simp [Vocabulary.after]
      requested := by simp [logBy]
      wellFormed := CountMatrix.wellFormed_empty
      columns := Nat.zero_le _
      cells := fun _ _ _ _ => rfl
      counted := rfl
      unknown := rfl }
  rows := rfl

theorem lt_rows_openRow (m : CountMatrix) (row : Nat) : row < (m.openRow row).rows := by
  simp only [CountMatrix.openRow]
  omega

/-- A sample that was added is accounted for. -/
theorem Accounted.add_ok (h : Accounted about seed done t) (hseed : seed.keys.Nodup)
    (hdecoded : (Decoded.ofAnswer sample (about sample)).1 = .ok decoded)
    (hadd : t.add sample decoded = .ok t') : Accounted about seed (done ++ [sample]) t' := by
  have hlabelled := h.toLabelled.add_ok hadd
  have hrow : sample.row = done.length := row_of_rows hlabelled.numbered
  obtain ⟨next, hcount, hlabel⟩ := bind_ok.mp hadd
  rw [(Decoded.ofAnswer_ok hdecoded).2] at hcount
  obtain ⟨hframe, hcounts⟩ := (h.counts.openRow sample.row).countAll_ok hseed
    (lt_rows_openRow t.matrix sample.row) hcount
  split at hlabel
  · cases hlabel
  · cases hlabel
    refine ⟨hlabelled, ?_, ?_⟩
    · rw [logBy_concat, List.flatMap_append, List.flatMap_singleton]
      exact ⟨hcounts.vocabulary, hcounts.requested, hcounts.wellFormed, hcounts.columns,
        hcounts.cells, hcounts.counted, hcounts.unknown⟩
    · rw [List.length_append, List.length_singleton, hframe.rows]
      simp only [CountMatrix.openRow, h.rows, hrow]
      omega

theorem Accounted.add (h : Accounted about seed done t) (hseed : seed.keys.Nodup)
    (hlosses : (about sample).losses = []) (hrow : sample.row = done.length)
    (hfits : Fits (logBy about (done ++ [sample]))) :
    ∃ decoded t', (Decoded.ofAnswer sample (about sample)).1 = .ok decoded ∧
      t.add sample decoded = .ok t' := by
  rw [logBy_concat] at hfits
  obtain ⟨next, hcount, hframe, -⟩ := (h.counts.openRow sample.row).countAll hseed sample.row
    (about sample).records (lt_rows_openRow t.matrix sample.row) hfits
  have hsize : next.labels.size = sample.row := by
    rw [hframe.labels, hrow]
    exact h.size
  have hrecord : next.labels.record sample.row sample.label sample.id =
      .ok ⟨next.labels.entries ++ [⟨sample.label, sample.id⟩]⟩ := by
    simp only [LabelRegistry.record, hsize, Nat.lt_irrefl, if_false]
  have hadd (decoded : Decoded) (hkeys : decoded.keys = (about sample).records) :
      ∃ t', t.add sample decoded = .ok t' := by
    simp only [Tally.add, hkeys, hcount, Except.bind, hrecord]
    exact ⟨_, rfl⟩
  rw [Decoded.ofAnswer_eq, hlosses]
  obtain ⟨t', ht'⟩ := hadd { keys := _, entryFailures := _, sampleFailed := _ } rfl
  exact ⟨_, t', rfl, ht'⟩

end Tally

namespace Run

open Tally (Accounted Labelled row_of_rows)

variable {about : Sample → SampleAnswer} {raised : List Sample → Bool} {seed : Vocabulary}
  {done rest found : List Sample} {total : Nat} {p p' : Progress} {sample : Sample} {run : Run}
  {output : RunOutput}

theorem Progress.step_labelled (h : Labelled done p.tally)
    (hstate : p.state = .between done.length total) (hstep : p.step about total sample = .ok p') :
    Labelled (done ++ [sample]) p'.tally ∧
      p'.state = .between (done ++ [sample]).length total := by
  obtain ⟨begun, decoded, hbegin, -, haccumulate, hadd⟩ := Progress.step_ok hstep
  have hlabelled := h.add_ok hadd
  refine ⟨hlabelled, ?_⟩
  have hrow : sample.row = done.length := row_of_rows hlabelled.numbered
  have hlt := (RunState.begin_ok hbegin).1
  rw [hrow] at hlt hbegin
  rw [hstate, RunState.begin_between hlt] at hbegin
  cases hbegin
  rw [RunState.accumulate_processing] at haccumulate
  rw [List.length_append, List.length_singleton]
  exact (Except.ok.inj haccumulate).symm

theorem Progress.steps_labelled (h : Labelled done p.tally)
    (hstate : p.state = .between done.length total) (hsteps : p.steps about total rest = .ok p') :
    Labelled (done ++ rest) p'.tally ∧ p'.state = .between (done ++ rest).length total := by
  induction rest generalizing done p with
  | nil =>
    cases hsteps
    simpa using ⟨h, hstate⟩
  | cons sample rest ih =>
    obtain ⟨next, hstep, hsteps⟩ := bind_ok.mp hsteps
    obtain ⟨hlabelled, hnext⟩ := Progress.step_labelled h hstate hstep
    rw [List.append_cons]
    exact ih hlabelled hnext hsteps

theorem Progress.step_accounted (h : Accounted about seed done p.tally) (hseed : seed.keys.Nodup)
    (hstep : p.step about total sample = .ok p') :
    Accounted about seed (done ++ [sample]) p'.tally := by
  obtain ⟨begun, decoded, -, hdecoded, -, hadd⟩ := Progress.step_ok hstep
  exact h.add_ok hseed hdecoded hadd

theorem Progress.steps_accounted (h : Accounted about seed done p.tally) (hseed : seed.keys.Nodup)
    (hsteps : p.steps about total rest = .ok p') : Accounted about seed (done ++ rest) p'.tally := by
  induction rest generalizing done p with
  | nil =>
    cases hsteps
    simpa using h
  | cons sample rest ih =>
    obtain ⟨next, hstep, hsteps⟩ := bind_ok.mp hsteps
    rw [List.append_cons]
    exact ih (Progress.step_accounted h hseed hstep) hsteps

/-- A run that succeeds has taken the steps of the first samples, in a pipeline that was idle. -/
theorem extractFrom_ok (h : (run.extractFrom about raised).result = .ok output) :
    ∃ found count p, samples run.source = .ok found ∧ count ≤ found.length ∧
      run.state.phase = .idle ∧
      Progress.steps about found.length
        ⟨{ run.state with phase := .discovering }, { vocabulary := run.seed }⟩ (found.take count) =
          .ok p ∧
      output = outputOf found count p.tally ∧
      (run.extractFrom about raised).run.state = p.state := by
  have heq := run.extractFrom_eq about raised
  cases hdiscover : run.state.discover with
  | error e =>
    simp only [hdiscover] at heq
    cases h.symm.trans (Prod.mk.inj heq).1
  | ok state =>
    obtain ⟨hidle, rfl⟩ := RunState.discover_ok hdiscover
    cases hsamples : samples run.source with
    | error e =>
      simp only [hdiscover, hsamples] at heq
      cases h.symm.trans (Prod.mk.inj heq).1
    | ok found =>
      obtain ⟨rounds, -, hreached⟩ := reachedSamples_eq_take run raised found
      rw [List.take_eq_take_min] at hreached
      simp only [hdiscover, hsamples, hreached] at heq
      split at heq
      · cases h.symm.trans (Prod.mk.inj heq).1
      · rename_i p hsteps
        obtain ⟨hresult, hstate⟩ := Prod.mk.inj heq
        refine ⟨found, _, p, rfl, Nat.min_le_right _ _, hidle, hsteps, ?_, hstate⟩
        rw [List.length_take, Nat.min_assoc, Nat.min_self] at hresult
        exact Except.ok.inj (h.symm.trans hresult)

theorem extractFrom_accounted (h : (run.extractFrom about raised).result = .ok output)
    (hseed : run.seed.keys.Nodup) :
    output.report.processed ≤ output.samples.length ∧
      output = outputOf output.samples output.report.processed output.tally ∧
      Accounted about run.seed (output.samples.take output.report.processed) output.tally := by
  obtain ⟨found, count, p, -, hcount, -, hsteps, rfl, -⟩ := extractFrom_ok h
  have haccounted := Progress.steps_accounted (Tally.accounted_nil about run.seed) hseed hsteps
  obtain rfl : p.tally.labels.size = count := by
    rw [haccounted.size, List.nil_append, List.length_take, Nat.min_eq_left hcount]
  exact ⟨hcount, rfl, haccounted⟩

end Run

end FlowTally
