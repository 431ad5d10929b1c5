import FlowTally.Proofs.Export.RoundTrip
import FlowTally.Proofs.Run.Accounts
import FlowTally.Proofs.Run.Totals

/-!
# Outputs fit together

Rows, columns, labels and report of an output are counted apart from each other,
and agree for every run that succeeds (`extractFrom_aligned`). So an export refuses
an output for a line break in a sample id only, and leaves no count out.
-/

namespace FlowTally.Run

variable {about : Sample → SampleAnswer} {raised : List Sample → Bool} {run : Run}
  {output : RunOutput}

def processedSamples (output : RunOutput) : List Sample :=
  output.samples.take output.report.processed

/-- The parts of an output fit together, and its export holds all that was counted. -/
structure Aligned (output : RunOutput) : Prop where
  rows : output.tally.matrix.rows = output.report.processed
  labels : output.tally.labels.entries = (processedSamples output).map fun s => ⟨s.label, s.id⟩
  size : output.tally.labels.size = output.report.processed
  columns : output.tally.matrix.columns ≤ output.tally.vocabulary.size
  vocabulary : output.tally.vocabulary.check = .ok ()
  checked : Export.checkAlignment (parts output) = .ok () ↔
    ∀ s ∈ processedSamples output, Export.holdsLineBreak s.id = false
  table : (Export.table (parts output)).cells = output.tally.matrix.cells
  entries : (Export.table (parts output)).cells.length = output.report.nonZero
  positive : ∀ cell ∈ (Export.table (parts output)).cells, 0 < cell.count
  total : ((Export.table (parts output)).cells.map (·.count)).sum = output.report.counted

theorem checkAlignment_iff {p : ExportParts} (hcheck : p.vocabulary.check = .ok ())
    (hrows : p.matrix.rows = p.labels.size) (hcolumns : p.matrix.columns ≤ p.vocabulary.size) :
    Export.checkAlignment p = .ok () ↔
      ∀ e ∈ p.labels.entries, Export.holdsLineBreak e.sampleId = false := by
  simp only [Export.checkAlignment, hcheck, Except.mapError, Except.bind, hrows, ne_eq,
    not_true_eq_false, if_false, Nat.not_lt.mpr hcolumns]
  constructor
  · intro h
    split at h
    · cases h
    · rename_i hfind
      simpa using hfind
  · intro h
    have hfind : p.labels.entries.find? (fun e => Export.holdsLineBreak e.sampleId) = none := by
      simpa using h
    rw [hfind]

/-- The output of every run that succeeds is aligned, whatever was answered, in every mode, from
every seed, whenever the flag was raised. -/
theorem extractFrom_aligned (run : Run) (about : Sample → SampleAnswer)
    (raised : List Sample → Bool) (hseed : run.seed.Reached)
    (hok : (run.extractFrom about raised).result = .ok output) : Aligned output := by
  obtain ⟨hle, heq, haccounted⟩ := extractFrom_accounted hok hseed.nodup
  have hn : output.tally.vocabulary.keys.Nodup := by
    rw [haccounted.counts.vocabulary]
    exact Vocabulary.nodup_after hseed.nodup _
  have hlength : (processedSamples output).length = output.report.processed := by
    rw [processedSamples, List.length_take, Nat.min_eq_left hle]
  have hrows : output.tally.matrix.rows = output.report.processed := haccounted.rows.trans hlength
  have hsize : output.tally.labels.size = output.report.processed := haccounted.size.trans hlength
  have hcheck := checkAlignment_iff (p := parts output) (Vocabulary.check_ok hn)
    (hrows.trans hsize.symm) haccounted.counts.columns
  have htable : (Export.table (parts output)).cells = output.tally.matrix.cells :=
    haccounted.counts.wellFormed.crop_cells (hrows.trans hsize.symm).le haccounted.counts.columns
  have hreport : output.report =
      report output.samples output.tally
        (decide (output.report.processed < output.samples.length)) := congrArg (·.report) heq
  refine ⟨hrows, haccounted.labels, hsize, haccounted.counts.columns, Vocabulary.check_ok hn, ?_,
    htable, ?_, ?_, ?_⟩
  · rw [hcheck, parts, haccounted.labels]
    exact List.forall_mem_map
  · rw [htable, hreport]
    rfl
  · rw [htable]
    exact haccounted.counts.wellFormed.positive
  · rw [htable, haccounted.counts.total hn, hreport]
    rfl

def frozenRun : Run where
  source := mixedSource.source
  parallel := ⟨true, 2, 2⟩
  seed := ⟨[⟨["return"], ["flows"], ["call"]⟩, ⟨["call"], ["flows"], ["call"]⟩], true⟩

def changingAnswers (sample : Sample) : SampleAnswer :=
  if sample.row = 0 then
    .ok [(0, .ok [⟨["call"], ["flows"], ["call"]⟩, ⟨["name"], ["flows"], ["call"]⟩]),
      (0, .ok [⟨["call"], ["flows"], ["call"]⟩])]
  else .error (.query "no entry points")

theorem extractFrom_aligned_frozenRun :
    frozenRun.seed.Reached ∧
      ∃ output, (frozenRun.extractFrom changingAnswers fun done => !done.isEmpty).result =
          .ok output ∧
        output.report.processed = 2 ∧ output.report.counted = 2 ∧ Aligned output := by
  have hseed : frozenRun.seed.Reached := .seed frozenRun.seed.keys true rfl
  have hnumbers :
      ((frozenRun.extractFrom changingAnswers fun done => !done.isEmpty).result.toOption.map
        fun output => (output.report.processed, output.report.counted)) = some (2, 2) := by
    cbv
  cases hresult : (frozenRun.extractFrom changingAnswers fun done => !done.isEmpty).result with
  | error e =>
    rw [hresult] at hnumbers
    cases hnumbers
  | ok output =>
    rw [hresult] at hnumbers
    obtain ⟨hprocessed, hcounted⟩ := Prod.mk.inj (Option.some.inj hnumbers)
    exact ⟨hseed, output, rfl, hprocessed, hcounted,
      extractFrom_aligned frozenRun changingAnswers _ hseed hresult⟩

end FlowTally.Run
