import FlowTally.Proofs.Run.Accounts

/-!
# Outcomes of a run

A fresh run that nothing cancels ends in one of four ways, and which one it is
can be read off the answers of the source (`extract_outcome`). Overflows, labels out
of order and refused transitions are errors that the code provides for; here they
are shown not to happen. What carries the induction is that everything before the
next sample is accounted for, and the state stands between samples.
-/

namespace FlowTally

open CountMatrix (countBound)

namespace Run

open Tally (Accounted Fits logBy row_of_rows)

variable {about : Sample → SampleAnswer} {seed : Vocabulary} {done rest found : List Sample}
  {total : Nat} {p : Progress} {sample : Sample} {text : String} {more : List String}
  {infos : List SampleInfo} {source : SampleSource}

theorem Progress.step_between (h : Accounted about seed done p.tally) (hseed : seed.keys.Nodup)
    (hstate : p.state = .between done.length total) (hrow : sample.row = done.length)
    (hlt : done.length < total) :
    (∀ text more, (about sample).losses = text :: more →
        ∃ state, p.step about total sample = .error (.connection text, state)) ∧
      ((about sample).losses = [] → Fits (logBy about (done ++ [sample])) →
        ∃ p', p.step about total sample = .ok p') := by
  constructor
  · intro text more hlosses
    have hdecoded : (Decoded.ofAnswer sample (about sample)).1 = .error text := by
      rw [Decoded.ofAnswer_eq, hlosses]
    simp only [Progress.step, hstate, hrow, RunState.begin_between hlt, hdecoded]
    exact ⟨_, rfl⟩
  · intro hlosses hfits
    obtain ⟨decoded, t, hdecoded, hadd⟩ := h.add hseed hlosses hrow hfits
    simp only [Progress.step, hstate, hrow, RunState.begin_between hlt, hdecoded,
      RunState.accumulate_processing, hadd]
    exact ⟨_, rfl⟩

theorem Progress.steps_between_ok (h : Accounted about seed done p.tally)
    (hseed : seed.keys.Nodup) (hstate : p.state = .between done.length total)
    (hrows : (done ++ rest).map (·.row) = List.range (done ++ rest).length)
    (htotal : (done ++ rest).length ≤ total) (hfits : Fits (logBy about (done ++ rest))) :
    match rest.flatMap fun s => (about s).losses with
    | [] => ∃ p', p.steps about total rest = .ok p'
    | text :: _ => ∃ state, p.steps about total rest = .error (.connection text, state) := by
  induction rest generalizing done p with
  | nil => exact ⟨p, rfl⟩
  | cons sample rest ih =>
    have hrow : sample.row = done.length := row_of_rows hrows
    have hlt : done.length < total := by
      rw [List.length_append, List.length_cons] at htotal
      omega
    obtain ⟨hlost, htaken⟩ := Progress.step_between h hseed hstate hrow hlt
    rw [List.append_cons] at hrows htotal hfits
    cases hlosses : (about sample).losses with
    | cons text more =>
      obtain ⟨state, hstep⟩ := hlost text more hlosses
      simp only [List.flatMap_cons, hlosses, List.cons_append, Progress.steps, hstep]
      exact ⟨state, rfl⟩
    | nil =>
      have hfirst : Fits (logBy about (done ++ [sample])) := by
        rw [logBy, List.flatMap_append] at hfits
        exact hfits.of_append
      obtain ⟨next, hstep⟩ := htaken hlosses hfirst
      have hnext := Progress.step_accounted h hseed hstep
      have hstate' := (Progress.step_labelled h.toLabelled hstate hstep).2
      simp only [List.flatMap_cons, hlosses, List.nil_append, Progress.steps, hstep]
      exact ih hnext hstate' hrows htotal hfits

theorem extract_of_samples_error {e : RunError} (run : Run) (hfresh : run.state = {})
    (hsamples : samples run.source = .error e) (raised : List Sample → Bool) :
    (run.extract raised).result = .error e := by
  have hdiscover : run.state.discover = .ok ⟨.discovering, 0⟩ := by
    rw [hfresh]
    rfl
  have heq := extract_eq run raised
  simp only [hdiscover, hsamples] at heq
  exact (Prod.mk.inj heq).1

theorem extract_of_found (run : Run) (hfresh : run.state = {}) (hseed : run.seed.keys.Nodup)
    (hsamples : samples run.source = .ok found)
    (hrows : found.map (·.row) = List.range found.length)
    (hfits : Fits (logBy run.source.about found)) :
    match found.flatMap fun s => (run.source.about s).losses with
    | [] => ∃ output, (run.extract fun _ => false).result = .ok output
    | text :: _ => (run.extract fun _ => false).result = .error (.connection text) := by
  have hdiscover : run.state.discover = .ok (.between 0 found.length) := by
    rw [hfresh]
    rfl
  have hsteps := Progress.steps_between_ok (p := ⟨.between 0 found.length, _⟩)
    (Tally.accounted_nil run.source.about run.seed) hseed rfl hrows (Nat.le_refl found.length) hfits
  have heq := extract_eq run fun _ => false
  simp only [hdiscover, hsamples, reachedSamples_const, Bool.false_eq_true, if_false] at heq
  cases hlosses : found.flatMap fun s => (run.source.about s).losses with
  | nil =>
    rw [hlosses] at hsteps
    obtain ⟨p, hsteps⟩ := hsteps
    rw [hsteps] at heq
    exact ⟨_, (Prod.mk.inj heq).1⟩
  | cons text more =>
    rw [hlosses] at hsteps
    obtain ⟨state, hsteps⟩ := hsteps
    rw [hsteps] at heq
    exact (Prod.mk.inj heq).1

/-- Texts of the lost connections over all samples, by rows. -/
def lossesByRow (source : SampleSource) (infos : List SampleInfo) : List String :=
  (sortSamples infos).flatMap fun info => source.losses info.id

theorem lossesByRow_eq_nil :
    lossesByRow source infos = [] ↔ ∀ info ∈ infos, source.ConnectedFor info.id := by
  simp only [lossesByRow, List.flatMap_eq_nil_iff, SampleSource.losses_eq_nil, sortSamples,
    List.mem_mergeSort]

theorem flatMap_losses (source : SampleSource) (infos : List SampleInfo) :
    ((withRows (sortSamples infos)).flatMap fun s => (source.about s).losses) =
      lossesByRow source infos := by
  simp only [SampleSource.losses_about, lossesByRow]
  conv_rhs => rw [← map_withRows (sortSamples infos), List.flatMap_map]

theorem length_logBy (source : SampleSource) (infos : List SampleInfo) :
    (logBy source.about (withRows (sortSamples infos))).length =
      (infos.flatMap fun info => source.records info.id).length := by
  have hperm : (sortSamples infos).Perm infos := List.mergeSort_perm ..
  rw [← (hperm.flatMap_right fun info => source.records info.id).length_eq]
  conv_rhs => rw [← map_withRows (sortSamples infos), List.flatMap_map]
  simp [logBy, List.length_flatMap, SampleSource.records_about]

/-- A fresh run that nothing cancels fails if the samples cannot be listed, if an id is listed
twice, or at the first lost connection in the order of the questions; and in no other way. Then it
is failed with its error, which is fatal. -/
theorem extract_outcome (run : Run) (hfresh : run.state = {}) (hseed : run.seed.Reached)
    (hfits : ∀ infos, run.source.samples = .ok infos →
      (infos.flatMap fun info => run.source.records info.id).length < countBound) :
    ((∃ output, (run.extract fun _ => false).result = .ok output) ↔
        ∃ infos, run.source.samples = .ok infos ∧ (infos.map (·.id)).Nodup ∧
          ∀ info ∈ infos, run.source.ConnectedFor info.id) ∧
      (∀ fault, run.source.samples = .error fault →
        (run.extract fun _ => false).result =
          .error (.connection s!"sample discovery failed: {fault.message}")) ∧
      (∀ infos, run.source.samples = .ok infos → ¬ (infos.map (·.id)).Nodup →
        ∃ id, [id, id].Sublist (infos.map (·.id)) ∧ (run.extract fun _ => false).result =
          .error (.consistency s!"sample '{id}' discovered twice")) ∧
      (∀ infos text more, run.source.samples = .ok infos → (infos.map (·.id)).Nodup →
        lossesByRow run.source infos = text :: more →
        (run.extract fun _ => false).result = .error (.connection text)) ∧
      ∀ e, (run.extract fun _ => false).result = .error e →
        (∀ scope text, e ≠ .query scope text) ∧ e.severity = .fatal ∧
          (run.extract fun _ => false).run.state.phase = .failed e.message .fatal := by
  have hunlisted (fault : SourceError) (hinfos : run.source.samples = .error fault) :
      (run.extract fun _ => false).result =
        .error (.connection s!"sample discovery failed: {fault.message}") :=
    extract_of_samples_error run hfresh (by simp only [samples, hinfos]) _
  have hrepeated (infos : List SampleInfo) (hinfos : run.source.samples = .ok infos)
      (hids : ¬ (infos.map (·.id)).Nodup) :
      ∃ id, [id, id].Sublist (infos.map (·.id)) ∧ (run.extract fun _ => false).result =
        .error (.consistency s!"sample '{id}' discovered twice") := by
    obtain ⟨id, hsamples, htwice⟩ := samples_repeated hinfos hids
    exact ⟨id, htwice, extract_of_samples_error run hfresh hsamples _⟩
  have hfound (infos : List SampleInfo) (hinfos : run.source.samples = .ok infos)
      (hids : (infos.map (·.id)).Nodup) := by
    have hlog := hfits infos hinfos
    rw [← length_logBy] at hlog
    have hresult := extract_of_found run hfresh hseed.nodup (samples_eq hinfos hids)
      (by rw [rows_withRows, length_withRows]) (Tally.fits_of_length hlog)
    rwa [flatMap_losses] at hresult
  refine ⟨⟨?_, ?_⟩, hunlisted, hrepeated, ?_, ?_⟩
  · rintro ⟨output, hok⟩
    cases hinfos : run.source.samples with
    | error fault => cases hok.symm.trans (hunlisted fault hinfos)
    | ok infos =>
      have hids : (infos.map (·.id)).Nodup := by
        by_contra hids
        obtain ⟨id, -, herror⟩ := hrepeated infos hinfos hids
        cases hok.symm.trans herror
      refine ⟨infos, rfl, hids, lossesByRow_eq_nil.mp ?_⟩
      have hresult := hfound infos hinfos hids
      cases hlosses : lossesByRow run.source infos with
      | nil => rfl
      | cons text more =>
        rw [hlosses] at hresult
        cases hok.symm.trans hresult
  · rintro ⟨infos, hinfos, hids, hconnected⟩
    have hresult := hfound infos hinfos hids
    rwa [lossesByRow_eq_nil.mpr hconnected] at hresult
  · intro infos text more hinfos hids hlosses
    have hresult := hfound infos hinfos hids
    rwa [hlosses] at hresult
  · intro e herror
    obtain ⟨hfatal, hphase⟩ := extractFrom_error herror (by rw [hfresh]; rfl)
    refine ⟨?_, hfatal, by rw [← hfatal]; exact hphase⟩
    rintro scope text rfl
    cases hfatal

def lostRun : Run where
  source := { mixedSource.source with
    flows := fun entry =>
      if entry = 0 ∨ entry = 3 then .error (.connection s!"no answer about {entryName entry}")
      else mixedSource.flows entry }
  parallel := ⟨true, 2, 2⟩

theorem extract_outcome_lostRun :
    lostRun.state = {} ∧ lostRun.seed.Reached ∧
      (∀ infos, lostRun.source.samples = .ok infos →
        (infos.flatMap fun info => lostRun.source.records info.id).length < countBound) ∧
      (lostRun.extract fun _ => false).result = .error (.connection "no answer about entry#3") ∧
      (lostRun.extract fun _ => false).run.state.phase =
        .failed "Connection failure: no answer about entry#3" .fatal := by
  have hseed : lostRun.seed.Reached := .seed [] false rfl
  have hfits (infos : List SampleInfo) (hinfos : lostRun.source.samples = .ok infos) :
      (infos.flatMap fun info => lostRun.source.records info.id).length < countBound := by
    obtain rfl : mixedSource.infos = infos := Except.ok.inj hinfos
    have hlength :
        (mixedSource.infos.flatMap fun info => lostRun.source.records info.id).length = 1 := by cbv
    rw [hlength]
    decide
  have hids : (mixedSource.infos.map (·.id)).Nodup := by
    have hlist : mixedSource.infos.map (·.id) = ["a", "b", "c"] := by cbv
    rw [hlist]
    decide
  have hlosses : lossesByRow lostRun.source mixedSource.infos =
      ["no answer about entry#3", "no answer about entry#0"] := by
    cbv
  obtain ⟨-, -, -, hlost, hfailed⟩ := extract_outcome lostRun rfl hseed hfits
  have hresult := hlost mixedSource.infos _ _ rfl hids hlosses
  exact ⟨rfl, hseed, hfits, hresult, (hfailed _ hresult).2.2⟩

end Run

end FlowTally
