import FlowTally.Proofs.Run.Additions
import FlowTally.Proofs.Run.Discovery
import FlowTally.Source.Memory
import Mathlib

/-!
# What a run owes its source

`extract_complete`: a fresh run that is not cancelled, over a source that stays
connected, succeeds, and its output is determined by what the samples
contribute. The induction is over the samples in row order, with
`Tally.Tallied` and `between` as the invariant of tally and state.
-/

namespace FlowTally

open CountMatrix (countBound)

namespace Run

open Tally (Tallied logOf)

variable {source : SampleSource} {seed : Vocabulary} {done rest : List Sample} {total : Nat}
  {p : Progress} {infos : List SampleInfo}

theorem Progress.steps_tallied (done rest : List Sample) (total : Nat) (hs : source.Connected)
    (hseed : seed.keys.Nodup)
    (hrows : (done ++ rest).map (·.row) = List.range (done ++ rest).length)
    (htotal : (done ++ rest).length ≤ total)
    (hfits : (logOf source (done ++ rest)).length < countBound)
    (hstate : p.state = .between done.length total) (htally : Tallied source seed done p.tally) :
    ∃ p', p.steps source.about total rest = .ok p' ∧
      p'.state = .between (done ++ rest).length total ∧
      Tallied source seed (done ++ rest) p'.tally := by
  obtain ⟨t, hadd, ht⟩ := htally.addAll hs hseed hrows (Tally.fits_of_length hfits)
  have hsteps := steps_between source total done rest p.tally hrows htotal
  rw [hadd, ← hstate] at hsteps
  exact ⟨_, hsteps, rfl, ht⟩

/-- Records that samples contribute, in the order in which they are counted. -/
def contributed (source : SampleSource) (found : List Sample) : List FlowKey :=
  found.flatMap fun s => source.records s.id

/-- An output that accounts for every record of the source. -/
structure Complete (source : SampleSource) (seed : Vocabulary) (infos : List SampleInfo)
    (output : RunOutput) : Prop where
  samples : Discovered infos output.samples
  labels : output.tally.labels.entries = output.samples.map fun s => ⟨s.label, s.id⟩
  vocabulary : output.tally.vocabulary = seed.after (contributed source output.samples)
  matrix : output.tally.matrix.WellFormed
  rows : output.tally.matrix.rows = output.samples.length
  columns : output.tally.matrix.columns ≤ output.tally.vocabulary.size
  cells : ∀ sample ∈ output.samples, ∀ column key,
    output.tally.vocabulary.key? column = some key →
      output.tally.matrix.get sample.row column = (source.records sample.id).count key
  report : output.report =
    { discovered := infos.length
      processed := infos.length
      vocabularySize := output.tally.vocabulary.size
      nonZero := output.tally.matrix.nonZero
      counted := (contributed source output.samples).countP (seed.Accepts ·)
      entryFailures :=
        (output.samples.flatMap fun s => source.listed s.id).countP (source.EntryFails ·)
      sampleFailures := output.samples.countP fun s => source.ListingFails s.id
      unknown := (contributed source output.samples).countP fun key => ¬ seed.Accepts key
      cancelled := false }

theorem map_logOf (found : List Sample) :
    (logOf source found).map (·.2) = contributed source found := by
  simp [logOf, contributed, List.map_flatMap, Function.comp_def]

theorem countP_logOf (accept : FlowKey → Bool) (found : List Sample) :
    (logOf source found).countP (fun e => accept e.2) = (contributed source found).countP accept := by
  rw [← map_logOf, List.countP_map]
  rfl

theorem complete_of_tallied {found : List Sample} {tally : Tally} (hfound : Discovered infos found)
    (h : Tallied source seed found tally) :
    Complete source seed infos ⟨found, tally, report found tally false⟩ := by
  have hlength : found.length = infos.length := by simpa using hfound.perm.length_eq
  refine ⟨hfound, h.labels, h.counts.vocabulary, h.counts.wellFormed, h.rows, h.counts.columns, ?_, ?_⟩
  · intro sample hm column key hkey
    exact (h.counts.cells _ _ _ hkey).trans (Tally.count_logOf hfound.nodup_rows hm)
  · have hprocessed : tally.labels.size = infos.length := by
      rw [LabelRegistry.size, h.labels, List.length_map, hlength]
    have hcounted := h.counts.counted.trans (countP_logOf (fun key => seed.Accepts key) found)
    have hunknown := h.counts.unknown.trans (countP_logOf (fun key => ¬ seed.Accepts key) found)
    simp only [report, hlength, hprocessed, h.entryFailures, h.sampleFailures, hcounted, hunknown]

/-- A fresh run that nothing cancels and no lost connection breaks succeeds, and its output
accounts for every record. -/
theorem extract_complete (run : Run) (hfresh : run.state = {}) (hseed : run.seed.Reached)
    (hinfos : run.source.samples = .ok infos) (hids : (infos.map (·.id)).Nodup)
    (hs : run.source.Connected)
    (hfits : (infos.flatMap fun info => run.source.records info.id).length < countBound) :
    ∃ output, (run.extract fun _ => false).result = .ok output ∧
      Complete run.source run.seed infos output := by
  obtain ⟨found, hsamples, hfound⟩ := samples_ok hinfos hids
  have hrecords : (logOf run.source found).length < countBound := by
    have hperm := (hfound.perm.flatMap_right fun info => run.source.records info.id).length_eq
    rw [← hperm] at hfits
    simpa [logOf, List.length_flatMap, Function.comp_def, List.flatMap_map] using hfits
  have hstart : Tallied run.source run.seed [] { vocabulary := run.seed } := Tally.tallied_seed ..
  obtain ⟨p, hsteps, -, htally⟩ := Progress.steps_tallied [] found found.length
    (p := ⟨.between 0 found.length, _⟩) hs hseed.nodup hfound.rows (Nat.le_refl _) hrecords rfl hstart
  have heq := extract_eq run fun _ => false
  have hdiscover : run.state.discover = .ok (.between 0 found.length) := by rw [hfresh]; rfl
  simp only [hdiscover, hsamples, reachedSamples_const, Bool.false_eq_true, if_false, hsteps] at heq
  refine ⟨_, (Prod.mk.inj heq).1, ?_⟩
  simpa [report] using complete_of_tallied hfound htally

def mixedSource : MemorySource where
  samples :=
    [⟨"b", true, [[⟨["call"], ["flows"], ["call"]⟩, ⟨["name"], ["flows"], ["call"]⟩],
        [⟨["call"], ["flows"], ["call"]⟩]]⟩,
      ⟨"a", false, [[⟨["name"], ["flows"], ["call"]⟩], [⟨["name"], [], ["call"]⟩]]⟩,
      ⟨"c", true, [[⟨["call"], ["flows"], ["call"]⟩]]⟩]
  failingSamples := ["c"]
  failingEntries := [1]

def mixedRun : Run := { source := mixedSource.source }

theorem mixedSource_connected : mixedSource.source.Connected := by
  constructor
  · intro id text
    simp only [mixedSource, MemorySource.source, MemorySource.entries]
    split
    · rename_i h
      cases h
    · split <;> simp
  · intro entry text
    simp only [mixedSource, MemorySource.source, MemorySource.flows]
    split
    · simp
    · split <;> simp

theorem extract_complete_mixedRun :
    mixedRun.state = {} ∧ mixedRun.seed.Reached ∧
      mixedRun.source.samples = .ok mixedSource.infos ∧ (mixedSource.infos.map (·.id)).Nodup ∧
      mixedRun.source.Connected ∧
      (mixedSource.infos.flatMap fun info => mixedRun.source.records info.id).length < countBound ∧
      ∃ output, (mixedRun.extract fun _ => false).result = .ok output ∧
        Complete mixedRun.source mixedRun.seed mixedSource.infos output := by
  have hseed : mixedRun.seed.Reached := .seed [] false rfl
  have hids : (mixedSource.infos.map (·.id)).Nodup := by
    have hlist : mixedSource.infos.map (·.id) = ["a", "b", "c"] := by cbv
    rw [hlist]
    decide
  have hfits :
      (mixedSource.infos.flatMap fun info => mixedRun.source.records info.id).length < countBound := by
    have hlength :
        (mixedSource.infos.flatMap fun info => mixedRun.source.records info.id).length = 3 := by cbv
    rw [hlength]
    decide
  exact ⟨rfl, hseed, rfl, hids, mixedSource_connected, hfits,
    extract_complete mixedRun rfl hseed rfl hids mixedSource_connected hfits⟩

end Run

end FlowTally
