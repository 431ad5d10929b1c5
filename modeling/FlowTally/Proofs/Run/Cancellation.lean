import FlowTally.Proofs.Run.Additions
import FlowTally.Proofs.Run.Complete
import FlowTally.Run.Publish

/-!
# Cancelled runs

The flag is looked at before each round of samples, so a run that sees it
raised has processed the rounds before that check and nothing of the others
(`reachedSamples_eq_take`). `extract_cancelled`: whenever the flag is raised, the
run answers what a run over the first samples alone answers, and its state
accepts the export.
-/

namespace FlowTally

namespace Run

open Tally (addAll Tallied logOf)
open CountMatrix (countBound)

variable {source : SampleSource} {raised : List Sample → Bool} {done rest found : List Sample}
  {size rounds total : Nat} {infos : List SampleInfo} {t : Tally}

-- ---------------------------------------------------------------------------
-- Rounds
-- ---------------------------------------------------------------------------

/-- Samples from one check of the flag to the next; a batch of no samples counts as one. -/
def stride (run : Run) : Nat := if run.parallel.enabled then max run.parallel.batchSize 1 else 1

theorem stride_pos (run : Run) : 0 < run.stride := by
  unfold stride
  split
  · omega
  · exact Nat.one_pos

/-- So many rounds are begun: the flag is down at the check before each of them, and then it is
raised or no sample is left. -/
structure Begun (raised : List Sample → Bool) (found : List Sample) (size rounds : Nat) : Prop where
  down : ∀ k < rounds, size * k < found.length ∧ raised (found.take (size * k)) = false
  ended : found.length ≤ size * rounds ∨ raised (found.take (size * rounds)) = true

theorem begun_zero (h : raised [] = true ∨ found = []) : Begun raised found size 0 := by
  refine ⟨fun k hk => absurd hk (Nat.not_lt_zero k), ?_⟩
  rcases h with h | rfl
  · exact .inr (by simpa using h)
  · exact .inl (Nat.zero_le _)

theorem Begun.succ (hne : found ≠ []) (hdown : raised [] = false)
    (h : Begun (fun more => raised (found.take size ++ more)) (found.drop size) size rounds) :
    Begun raised found size (rounds + 1) := by
  have htake (k : Nat) :
      found.take (size * (k + 1)) = found.take size ++ (found.drop size).take (size * k) := by
    rw [Nat.mul_succ, Nat.add_comm, List.take_add]
  have hpos : 0 < found.length := List.length_pos_iff.mpr hne
  refine ⟨fun k hk => ?_, ?_⟩
  · cases k with
    | zero => simpa using ⟨hpos, hdown⟩
    | succ k =>
      obtain ⟨hlt, hk⟩ := h.down k (Nat.lt_of_succ_lt_succ hk)
      rw [List.length_drop] at hlt
      rw [htake, Nat.mul_succ]
      exact ⟨by omega, hk⟩
  · refine h.ended.imp (fun hle => ?_) fun hraised => ?_
    · rw [List.length_drop] at hle
      rw [Nat.mul_succ]
      omega
    · rw [htake]
      exact hraised

theorem reachedBatches_eq_take (raised : List Sample → Bool) (done found : List Sample)
    (hsize : 0 < size) :
    ∃ rounds, Begun (fun more => raised (done ++ more)) found size rounds ∧
      reachedBatches raised done (chunks size found) = found.take (size * rounds) := by
  induction hn : found.length using Nat.strongRecOn generalizing done found with
  | ind n ih =>
    rw [chunks]
    split
    · rename_i hnil
      obtain rfl := hnil.resolve_right (Nat.ne_of_gt hsize)
      exact ⟨0, begun_zero (.inr rfl), rfl⟩
    · rename_i hne
      have hne : found ≠ [] := fun h => hne (.inl h)
      have hpos : 0 < found.length := List.length_pos_iff.mpr hne
      cases hr : raised done with
      | true => exact ⟨0, begun_zero (.inl (by simpa using hr)), by simp [reachedBatches, hr]⟩
      | false =>
        obtain ⟨rounds, hbegun, hreached⟩ := ih _ (by rw [List.length_drop]; omega)
          (done ++ found.take size) (found.drop size) rfl
        refine ⟨rounds + 1, Begun.succ hne (by simpa using hr) (by simpa using hbegun), ?_⟩
        rw [reachedBatches, hr, hreached, Nat.mul_succ, Nat.add_comm, List.take_add]
        rfl

theorem reached_eq (raised : List Sample → Bool) (done found : List Sample) :
    reached raised done found = reachedBatches raised done (chunks 1 found) := by
  induction found generalizing done with
  | nil =>
    rw [chunks]
    rfl
  | cons sample rest ih =>
    rw [chunks]
    simp [reached, reachedBatches, ih]

theorem reachedSamples_eq_take (run : Run) (raised : List Sample → Bool) (found : List Sample) :
    ∃ rounds, Begun raised found run.stride rounds ∧
      run.reachedSamples raised found = found.take (run.stride * rounds) := by
  have hreached :
      run.reachedSamples raised found = reachedBatches raised [] (chunks run.stride found) := by
    unfold reachedSamples stride
    split
    · rfl
    · exact reached_eq raised [] found
  rw [hreached]
  exact reachedBatches_eq_take raised [] found run.stride_pos

theorem extract_of_samples (run : Run) (raised : List Sample → Bool) (hfresh : run.state = {})
    (hsamples : samples run.source = .ok found)
    (hrows : found.map (·.row) = List.range found.length) :
    ∃ rounds count, Begun raised found run.stride rounds ∧
      count = min (run.stride * rounds) found.length ∧
      (run.extract raised).result =
        (addAll run.source { vocabulary := run.seed } (found.take count)).map
          (outputOf found count) ∧
      ∀ output, (run.extract raised).result = .ok output →
        (run.extract raised).run.state = .between count found.length := by
  obtain ⟨rounds, hbegun, hreached⟩ := reachedSamples_eq_take run raised found
  rw [List.take_eq_take_min] at hreached
  exact ⟨rounds, _, hbegun, rfl,
    extract_of_reached hfresh hsamples hrows (Nat.min_le_right ..) hreached⟩

-- ---------------------------------------------------------------------------
-- The first samples alone
-- ---------------------------------------------------------------------------

def overFirst (run : Run) (infos : List SampleInfo) (count : Nat) : Run :=
  { run with
    source := { run.source with samples := .ok ((sortSamples infos).take count) }
    parallel := { run.parallel with enabled := false } }

/-- The output as one of a run that found these samples and processed the first `count`. -/
def among (found : List Sample) (count : Nat) (o : RunOutput) : RunOutput :=
  ⟨found, o.tally,
    { o.report with discovered := found.length, cancelled := decide (count < found.length) }⟩

theorem ofSample_samples (source : SampleSource) (listing : Except SourceError (List SampleInfo))
    (sample : Sample) :
    Decoded.ofSample { source with samples := listing } sample = Decoded.ofSample source sample :=
  rfl

theorem addAll_samples (source : SampleSource) (listing : Except SourceError (List SampleInfo))
    (t : Tally) (rest : List Sample) :
    addAll { source with samples := listing } t rest = addAll source t rest := by
  induction rest generalizing t with
  | nil => rfl
  | cons sample rest ih =>
    simp only [addAll, ofSample_samples, ih]

theorem extract_overFirst (run : Run) (hfresh : run.state = {}) (hids : (infos.map (·.id)).Nodup)
    {count : Nat} (hcount : count ≤ infos.length) :
    ((run.overFirst infos count).extract fun _ => false).result =
      (addAll run.source { vocabulary := run.seed } ((withRows (sortSamples infos)).take count)).map
        (outputOf ((withRows (sortSamples infos)).take count) count) := by
  have hsamples : samples (run.overFirst infos count).source =
      .ok ((withRows (sortSamples infos)).take count) := by
    rw [samples_eq rfl (nodup_sortSamples_take hids count), sortSamples_take, withRows_take]
  have hlength : ((withRows (sortSamples infos)).take count).length = count := by
    simpa using hcount
  have hresult := extract_uncancelled (run.overFirst infos count) hfresh hsamples
    (rows_withRows_take _ count)
  rw [hresult, hlength]
  exact congrArg (Except.map _) (addAll_samples ..)

-- ---------------------------------------------------------------------------
-- Publishing
-- ---------------------------------------------------------------------------

theorem beginExport_between {count : Nat} (h : count ≤ total) :
    (RunState.between count total).beginExport (decide (count < total)) =
      .ok ⟨.exporting (decide (count < total)), count⟩ := by
  cases count with
  | zero => rfl
  | succ count =>
    have hdone : decide (count + 1 < total) = true ∨ count + 1 = total := by
      simpa using Nat.lt_or_eq_of_le h
    simp only [RunState.between, RunState.beginExport, if_pos hdone]

theorem publish_between {run : Run} (output : RunOutput) {count : Nat} (h : count ≤ total)
    (hstate : run.state = .between count total)
    (hcancelled : output.report.cancelled = decide (count < total))
    (fails : Nat → Option IoFault) (files : FileTree) (target : ExportTarget) (stamp : Stamp) :
    (run.publish fails files target stamp output).outcome.result =
        (Export.run fails files target stamp (parts output)).result ∧
      ∀ m, (run.publish fails files target stamp output).outcome.result = .ok m →
        (run.publish fails files target stamp output).outcome.run.state.phase =
          if count < total then .cancelled count else .done total := by
  unfold publish
  rw [hstate, hcancelled, beginExport_between h]
  simp only
  cases (Export.run fails files target stamp (parts output)).result with
  | error e =>
    refine ⟨rfl, fun m hm => ?_⟩
    cases hm
  | ok m =>
    by_cases hlt : count < total
    · simp [RunState.finish, hlt]
    · obtain rfl : count = total := Nat.le_antisymm h (Nat.le_of_not_lt hlt)
      simp [RunState.finish]

/-- Whenever the flag is raised, a run answers what a run over the samples before that moment
answers: `p` of them, in whole rounds. Its export ends it as cancelled exactly if samples are left. -/
theorem extract_cancelled (run : Run) (raised : List Sample → Bool) (hfresh : run.state = {})
    (hinfos : run.source.samples = .ok infos) (hids : (infos.map (·.id)).Nodup) :
    ∃ rounds p, Begun raised (withRows (sortSamples infos)) run.stride rounds ∧
      p = min (run.stride * rounds) infos.length ∧
      (run.extract raised).result =
        ((run.overFirst infos p).extract fun _ => false).result.map
          (among (withRows (sortSamples infos)) p) ∧
      (∀ output, (run.extract raised).result = .ok output →
        output.report.processed = p ∧ output.report.discovered = infos.length ∧
        (output.report.cancelled = true ↔ p < infos.length) ∧
        ∀ fails files target stamp,
          ((run.extract raised).run.publish fails files target stamp output).outcome.result =
              (Export.run fails files target stamp (parts output)).result ∧
            ∀ m, ((run.extract raised).run.publish fails files target stamp output).outcome.result =
                .ok m →
              ((run.extract raised).run.publish fails files target stamp output).outcome.run.state.phase
                = if p < infos.length then .cancelled p else .done infos.length) ∧
      (run.source.Connected → run.seed.Reached →
        (((sortSamples infos).take p).flatMap fun info => run.source.records info.id).length <
          countBound →
        ∃ output, (run.extract raised).result = .ok output) := by
  have hrows : (withRows (sortSamples infos)).map (·.row) =
      List.range (withRows (sortSamples infos)).length := by
    rw [rows_withRows, length_withRows]
  obtain ⟨rounds, p, hbegun, hp, hresult, hstate⟩ :=
    extract_of_samples run raised hfresh (samples_eq hinfos hids) hrows
  rw [length_withRows, length_sortSamples] at hp hstate
  have hle : p ≤ infos.length := by omega
  refine ⟨rounds, p, hbegun, hp, ?_, fun output houtput => ?_, fun hs hseed hfits => ?_⟩
  · rw [hresult, extract_overFirst run hfresh hids hle]
    cases addAll run.source { vocabulary := run.seed } ((withRows (sortSamples infos)).take p) with
    | error e => rfl
    | ok t => rfl
  · have hpublish := publish_between output hle (hstate output houtput)
    rw [hresult] at houtput
    cases hadd : addAll run.source { vocabulary := run.seed }
        ((withRows (sortSamples infos)).take p) with
    | error e =>
      rw [hadd] at houtput
      cases houtput
    | ok t =>
      rw [hadd] at houtput
      obtain rfl : outputOf (withRows (sortSamples infos)) p t = output := Except.ok.inj houtput
      have hsize : t.labels.size = p := by
        rw [LabelRegistry.size, Tally.addAll_labels hadd]
        simpa using hle
      refine ⟨hsize, by simp [outputOf, report], by simp [outputOf, report], hpublish ?_⟩
      simp [outputOf, report]
  · have hinfos' : ((withRows (sortSamples infos)).take p).map
        (fun s => (⟨s.id, s.label⟩ : SampleInfo)) = (sortSamples infos).take p := by
      rw [← withRows_take, map_withRows]
    have hlog : (logOf run.source ((withRows (sortSamples infos)).take p)).length < countBound := by
      rw [← hinfos', List.flatMap_map] at hfits
      rwa [← List.length_map (·.2), map_logOf]
    obtain ⟨t, hadd, -⟩ := (Tally.tallied_seed run.source run.seed).addAll hs hseed.nodup
      (rows_withRows_take _ p) (Tally.fits_of_length hlog)
    exact ⟨_, by rw [hresult, hadd]; rfl⟩

def cutRun : Run := { source := mixedSource.source, parallel := ⟨true, 2, 2⟩ }

theorem extract_cancelled_cutRun :
    cutRun.state = {} ∧ cutRun.source.samples = .ok mixedSource.infos ∧
      (mixedSource.infos.map (·.id)).Nodup ∧
      ∃ output, (cutRun.extract fun done => !done.isEmpty).result = .ok output ∧
        output.report.processed = 2 ∧ output.report.discovered = 3 ∧
        output.report.cancelled = true := by
  have hids : (mixedSource.infos.map (·.id)).Nodup := by
    have hlist : mixedSource.infos.map (·.id) = ["a", "b", "c"] := by cbv
    rw [hlist]
    decide
  have hlength : mixedSource.infos.length = 3 := by cbv
  obtain ⟨rounds, p, hbegun, hp, -, houtput, hok⟩ :=
    extract_cancelled cutRun (fun done => !done.isEmpty) rfl rfl hids
  have hstride : cutRun.stride = 2 := rfl
  rw [hstride] at hbegun hp
  have hrounds : rounds = 1 := by
    rcases Nat.lt_trichotomy rounds 1 with hlt | heq | hlt
    · obtain rfl : rounds = 0 := by omega
      have hended := hbegun.ended
      simp [hlength] at hended
    · exact heq
    · have hdown := (hbegun.down 1 hlt).2
      simp [List.isEmpty_iff, ← List.length_eq_zero_iff, hlength] at hdown
  obtain rfl : p = 2 := by omega
  have hfits : (((sortSamples mixedSource.infos).take 2).flatMap fun info =>
      cutRun.source.records info.id).length < countBound := by
    have hrecords : (((sortSamples mixedSource.infos).take 2).flatMap fun info =>
        cutRun.source.records info.id).length = 3 := by cbv
    rw [hrecords]
    decide
  obtain ⟨output, hresult⟩ := hok mixedSource_connected (.seed [] false rfl) hfits
  obtain ⟨hprocessed, hdiscovered, hcancelled, -⟩ := houtput output hresult
  rw [hlength] at hdiscovered hcancelled
  exact ⟨rfl, rfl, hids, output, hresult, hprocessed, hdiscovered, hcancelled.mpr (by decide)⟩

end Run

end FlowTally
