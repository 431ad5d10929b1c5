import FlowTally.Proofs.Files.Operations
import FlowTally.Proofs.Run.Modes
import FlowTally.Proofs.Run.Tallies

/-!
# Runs as additions

A run takes its samples in the order of their rows, and in that order its state
refuses none of them (`Progress.steps_between`). So what is left of a run is the
decoding and adding of the samples that it reaches, `Tally.addAll`, and
`extract_of_reached` gives the answer of a fresh run in these terms.
-/

namespace FlowTally

/-- The state of a run of `total` samples, `done` of which are accumulated. -/
def RunState.between : Nat → Nat → RunState
  | 0, _ => ⟨.discovering, 0⟩
  | done + 1, total => ⟨.accumulating done total, done + 1⟩

theorem RunState.begin_between {done total : Nat} (h : done < total) :
    (between done total).begin done total = .ok ⟨.processing done total, done⟩ := by
  cases done with
  | zero => simp [between, RunState.begin, h]
  | succ done => simp [between, RunState.begin, h]

theorem RunState.accumulate_processing (done total : Nat) :
    RunState.accumulate ⟨.processing done total, done⟩ = .ok (between (done + 1) total) :=
  rfl

namespace Tally

def addAll (source : SampleSource) (t : Tally) : List Sample → Except RunError Tally
  | [] => .ok t
  | sample :: rest =>
    match (Decoded.ofSample source sample).1 with
    | .error text => .error (.connection text)
    | .ok decoded => (t.add sample decoded).bind fun t => addAll source t rest

variable {source : SampleSource} {seed : Vocabulary} {t t' : Tally} {sample : Sample}
  {done rest : List Sample} {decoded : Decoded} {row : Nat} {key : FlowKey} {keys : List FlowKey}

theorem count_labels (h : t.count row key = .ok t') : t'.labels = t.labels := by
  unfold count at h
  simp only at h
  split at h
  · cases h
    rfl
  · split at h
    · cases h
      rfl
    · cases h

theorem countAll_labels (h : countAll row t keys = .ok t') : t'.labels = t.labels := by
  induction keys generalizing t with
  | nil =>
    cases h
    rfl
  | cons key rest ih =>
    obtain ⟨next, hnext, h⟩ := bind_ok.mp h
    exact (ih h).trans (count_labels hnext)

theorem add_labels (h : t.add sample decoded = .ok t') :
    sample.row = t.labels.size ∧
      t'.labels.entries = t.labels.entries ++ [⟨sample.label, sample.id⟩] := by
  obtain ⟨next, hnext, h⟩ := bind_ok.mp h
  have hlabels : next.labels = t.labels := (countAll_labels hnext).trans rfl
  split at h
  · cases h
  · rename_i labels hrecord
    cases h
    rw [← hlabels]
    exact LabelRegistry.record_ok hrecord

theorem addAll_labels (h : addAll source t rest = .ok t') :
    t'.labels.entries = t.labels.entries ++ rest.map fun s => ⟨s.label, s.id⟩ := by
  induction rest generalizing t with
  | nil =>
    cases h
    simp
  | cons sample rest ih =>
    unfold addAll at h
    split at h
    · cases h
    · obtain ⟨next, hnext, h⟩ := bind_ok.mp h
      rw [ih h, (add_labels hnext).2]
      simp

theorem row_of_rows
    (hrows : (done ++ sample :: rest).map (·.row) = List.range (done ++ sample :: rest).length) :
    sample.row = done.length := by
  have hget := congrArg (·[done.length]?) hrows
  simpa using hget

theorem Tallied.addAll (h : Tallied source seed done t) (hs : source.Connected)
    (hseed : seed.keys.Nodup)
    (hrows : (done ++ rest).map (·.row) = List.range (done ++ rest).length)
    (hfits : Fits (logOf source (done ++ rest))) :
    ∃ t', Tally.addAll source t rest = .ok t' ∧ Tallied source seed (done ++ rest) t' := by
  induction rest generalizing done t with
  | nil => exact ⟨t, rfl, by simpa using h⟩
  | cons sample rest ih =>
    have hrow : sample.row = done.length := row_of_rows hrows
    rw [List.append_cons] at hrows hfits ⊢
    have hfirst : Fits (logOf source (done ++ [sample])) := by
      rw [logOf_append (done ++ [sample])] at hfits
      exact hfits.of_append
    obtain ⟨decoded, next, hdecoded, hadd, hnext⟩ := h.add hs hseed hrow hfirst
    obtain ⟨t', hok, ht'⟩ := ih hnext hrows hfits
    refine ⟨t', ?_, ht'⟩
    simp only [Tally.addAll, hdecoded, hadd]
    exact hok

theorem Tallied.addAll_overflow (h : Tallied source seed done t) (hs : source.Connected)
    (hseed : seed.keys.Nodup) (hgrows : seed.frozen = false)
    (hrows : (done ++ rest).map (·.row) = List.range (done ++ rest).length)
    (hold : Fits (logOf source done)) (hfits : ¬ Fits (logOf source (done ++ rest))) :
    ∃ text, Tally.addAll source t rest = .error (.consistency text) := by
  induction rest generalizing done t with
  | nil => exact absurd hold (by simpa using hfits)
  | cons sample rest ih =>
    have hrow : sample.row = done.length := row_of_rows hrows
    rw [List.append_cons] at hrows hfits
    by_cases hfirst : Fits (logOf source (done ++ [sample]))
    · obtain ⟨decoded, next, hdecoded, hadd, hnext⟩ := h.add hs hseed hrow hfirst
      obtain ⟨text, herror⟩ := ih hnext hrows hfirst hfits
      refine ⟨text, ?_⟩
      simp only [Tally.addAll, hdecoded, hadd]
      exact herror
    · obtain ⟨decoded, text, hdecoded, hadd⟩ := h.add_overflow hs hseed hgrows hrow hold hfirst
      refine ⟨text, ?_⟩
      simp only [Tally.addAll, hdecoded, hadd]
      rfl

end Tally

namespace Run

open Tally (addAll row_of_rows)

variable {source : SampleSource} {raised : List Sample → Bool} {done rest found : List Sample}
  {total count : Nat} {t : Tally}

/-- In the order of rows the state refuses nothing, so the steps of a run do what `addAll` does. -/
theorem Progress.steps_between (source : SampleSource) (total : Nat) (done rest : List Sample)
    (t : Tally) (hrows : (done ++ rest).map (·.row) = List.range (done ++ rest).length)
    (htotal : (done ++ rest).length ≤ total) :
    match addAll source t rest with
    | .error e => ∃ state, Progress.steps source.about total ⟨.between done.length total, t⟩ rest =
        .error (e, state)
    | .ok t' => Progress.steps source.about total ⟨.between done.length total, t⟩ rest =
        .ok ⟨.between (done ++ rest).length total, t'⟩ := by
  induction rest generalizing done t with
  | nil => simp [Progress.steps, addAll]
  | cons sample rest ih =>
    have hrow : sample.row = done.length := row_of_rows hrows
    have hlt : done.length < total := by
      rw [List.length_append, List.length_cons] at htotal
      omega
    simp only [Progress.steps, Progress.step, addAll, Decoded.ofSample, hrow,
      RunState.begin_between hlt]
    cases (Decoded.ofAnswer sample (source.about sample)).1 with
    | error text => exact ⟨_, rfl⟩
    | ok decoded =>
      simp only [RunState.accumulate_processing]
      cases t.add sample decoded with
      | error e => exact ⟨_, rfl⟩
      | ok next =>
        rw [List.append_cons] at hrows htotal ⊢
        have hnext := ih (done ++ [sample]) next hrows htotal
        rw [List.length_append, List.length_singleton] at hnext
        exact hnext

/-- What a run answers that has added `t` of the samples it found, `reached` of them. -/
def outputOf (found : List Sample) (reached : Nat) (t : Tally) : RunOutput :=
  ⟨found, t, report found t (decide (reached < found.length))⟩

theorem extract_of_reached {run : Run} (hfresh : run.state = {})
    (hsamples : samples run.source = .ok found)
    (hrows : found.map (·.row) = List.range found.length) (hcount : count ≤ found.length)
    (hreached : run.reachedSamples raised found = found.take count) :
    (run.extract raised).result =
        (addAll run.source { vocabulary := run.seed } (found.take count)).map (outputOf found count) ∧
      ∀ output, (run.extract raised).result = .ok output →
        (run.extract raised).run.state = .between count found.length := by
  have hlength : (found.take count).length = count := by
    rw [List.length_take, Nat.min_eq_left hcount]
  have hdiscover : run.state.discover = .ok (.between 0 found.length) := by
    rw [hfresh]
    rfl
  have hrows' : (([] : List Sample) ++ found.take count).map (·.row) =
      List.range (([] : List Sample) ++ found.take count).length := by
    rw [List.nil_append, List.map_take, hrows, List.take_range, hlength, Nat.min_eq_left hcount]
  have hsteps := Progress.steps_between run.source found.length [] (found.take count)
    { vocabulary := run.seed } hrows' (by
      rw [List.nil_append, hlength]
      exact hcount)
  rw [List.nil_append, hlength, List.length_nil] at hsteps
  have heq := extract_eq run raised
  simp only [hdiscover, hsamples, hreached, hlength] at heq
  cases hadd : addAll run.source { vocabulary := run.seed } (found.take count) with
  | error e =>
    rw [hadd] at hsteps
    obtain ⟨state, hs⟩ := hsteps
    rw [hs] at heq
    have hresult := (Prod.mk.inj heq).1
    refine ⟨hresult, fun output ho => ?_⟩
    rw [hresult] at ho
    cases ho
  | ok t =>
    rw [hadd] at hsteps
    rw [hsteps] at heq
    obtain ⟨hresult, hstate⟩ := Prod.mk.inj heq
    exact ⟨hresult, fun output _ => hstate⟩

theorem extract_uncancelled (run : Run) (hfresh : run.state = {})
    (hsamples : samples run.source = .ok found)
    (hrows : found.map (·.row) = List.range found.length) :
    (run.extract fun _ => false).result =
      (addAll run.source { vocabulary := run.seed } found).map (outputOf found found.length) := by
  have hreached : run.reachedSamples (fun _ => false) found = found.take found.length := by
    rw [reachedSamples_const, List.take_length]
    rfl
  have hresult := (extract_of_reached hfresh hsamples hrows (Nat.le_refl _) hreached).1
  rwa [List.take_length] at hresult

end Run

end FlowTally
