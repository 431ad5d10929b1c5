import FlowTally.Proofs.Run.Steps
import Mathlib.Tactic.SplitIfs

/-!
# Failed runs

Whatever is answered to a run, each error that ends it is fatal: a failed query
costs records and nothing else. The error is met in a state that is not final,
so the run is failed with the text of its error afterwards (`extractFrom_error`).
A run that is final already answers an error and stays as it is
(`extractFrom_terminal`).
-/

namespace FlowTally

-- ---------------------------------------------------------------------------
-- Transitions
-- ---------------------------------------------------------------------------

namespace RunState

variable {s s' : RunState} {e : RunError} {index total : Nat}

theorem discover_ok (h : s.discover = .ok s') :
    s.phase = .idle ∧ s' = { s with phase := .discovering } := by
  unfold discover at h
  split at h
  · rename_i hphase
    cases h
    exact ⟨hphase, rfl⟩
  · cases h

theorem discover_error (h : s.discover = .error e) : e.severity = .fatal := by
  unfold discover at h
  split at h
  · cases h
  · cases h
    rfl

theorem begin_ok (h : s.begin index total = .ok s') :
    index < total ∧ s' = { s with phase := .processing index total } := by
  unfold RunState.begin at h
  simp only at h
  split_ifs at h with hallowed
  · cases h
    exact ⟨of_decide_eq_true (Bool.and_eq_true_iff.mp hallowed).2, rfl⟩
  · cases h

theorem begin_error (h : s.begin index total = .error e) : e.severity = .fatal := by
  unfold RunState.begin at h
  simp only at h
  split_ifs at h
  cases h
  rfl

theorem fail_of_not_terminal (h : s.phase.isTerminal = false) (e : RunError) :
    s.fail e = .ok { s with phase := .failed e.message e.severity } := by
  unfold fail
  rw [if_neg (by simp [h])]

theorem fail_of_terminal (h : s.phase.isTerminal = true) (e : RunError) :
    (s.fail e).toOption = none := by
  unfold fail
  rw [if_pos h]
  rfl

end RunState

-- ---------------------------------------------------------------------------
-- Counting
-- ---------------------------------------------------------------------------

namespace Tally

variable {t t' : Tally} {e : RunError} {row : Nat} {key : FlowKey} {keys : List FlowKey}
  {sample : Sample} {decoded : Decoded}

theorem count_error (h : t.count row key = .error e) : e.severity = .fatal := by
  unfold count at h
  simp only at h
  split at h
  · cases h
  · split at h
    · cases h
    · cases h
      rfl

theorem countAll_error (h : countAll row t keys = .error e) : e.severity = .fatal := by
  induction keys generalizing t with
  | nil => cases h
  | cons key rest ih =>
    unfold countAll at h
    cases hcount : t.count row key with
    | error e' =>
      rw [hcount] at h
      cases h
      exact count_error hcount
    | ok next =>
      rw [hcount] at h
      exact ih h

theorem add_error (h : t.add sample decoded = .error e) : e.severity = .fatal := by
  unfold add at h
  cases hcount :
      countAll sample.row { t with matrix := t.matrix.openRow sample.row } decoded.keys with
  | error e' =>
    rw [hcount] at h
    cases h
    exact countAll_error hcount
  | ok next =>
    rw [hcount] at h
    simp only [Except.bind] at h
    split at h
    · cases h
      rfl
    · cases h

end Tally

-- ---------------------------------------------------------------------------
-- Runs
-- ---------------------------------------------------------------------------

namespace Run

variable {about : Sample → SampleAnswer} {raised : List Sample → Bool} {total : Nat}
  {p : Progress} {sample : Sample} {rest : List Sample} {f : Failure} {e : RunError} {run : Run}

theorem Progress.step_error (h : p.step about total sample = .error f)
    (hstate : p.state.phase.isTerminal = false) :
    f.1.severity = .fatal ∧ f.2.phase.isTerminal = false := by
  unfold Progress.step at h
  split at h
  · rename_i e hbegin
    cases h
    exact ⟨RunState.begin_error hbegin, hstate⟩
  · rename_i begun hbegin
    obtain ⟨-, rfl⟩ := RunState.begin_ok hbegin
    split at h
    · cases h
      exact ⟨rfl, rfl⟩
    · simp only [RunState.accumulate] at h
      split at h
      · rename_i e hadd
        cases h
        exact ⟨Tally.add_error hadd, rfl⟩
      · cases h

theorem Progress.steps_error (h : p.steps about total rest = .error f)
    (hstate : p.state.phase.isTerminal = false) :
    f.1.severity = .fatal ∧ f.2.phase.isTerminal = false := by
  induction rest generalizing p with
  | nil => cases h
  | cons sample rest ih =>
    unfold Progress.steps at h
    cases hstep : p.step about total sample with
    | error f' =>
      rw [hstep] at h
      cases h
      exact Progress.step_error hstep hstate
    | ok next =>
      rw [hstep] at h
      obtain ⟨begun, decoded, hbegin, -, haccumulate, -⟩ := Progress.step_ok hstep
      obtain ⟨-, rfl⟩ := RunState.begin_ok hbegin
      refine ih h ?_
      rw [← Except.ok.inj haccumulate]
      rfl

theorem samples_error {source : SampleSource} (h : samples source = .error e) :
    e.severity = .fatal := by
  unfold samples at h
  split at h
  · cases h
    rfl
  · split at h
    · cases h
      rfl
    · cases h

theorem failed_of_not_terminal (h : f.2.phase.isTerminal = false) :
    failed f = (.error f.1, { f.2 with phase := .failed f.1.message f.1.severity }) := by
  rw [failed, RunState.fail_of_not_terminal h]
  rfl

/-- Every error of a run is fatal, and the run is failed with it afterwards. -/
theorem extractFrom_error (h : (run.extractFrom about raised).result = .error e)
    (hstate : run.state.phase.isTerminal = false) :
    e.severity = .fatal ∧
      (run.extractFrom about raised).run.state.phase = .failed e.message e.severity := by
  suffices hmet : ∃ f : Failure, f.1.severity = .fatal ∧ f.2.phase.isTerminal = false ∧
      ((run.extractFrom about raised).result, (run.extractFrom about raised).run.state) =
        failed f by
    obtain ⟨f, hsevere, hmet, heq⟩ := hmet
    rw [failed_of_not_terminal hmet] at heq
    obtain ⟨hresult, hafter⟩ := Prod.mk.inj heq
    obtain rfl : e = f.1 := Except.error.inj (h.symm.trans hresult)
    exact ⟨hsevere, by rw [hafter]⟩
  have heq := run.extractFrom_eq about raised
  cases hdiscover : run.state.discover with
  | error e' =>
    simp only [hdiscover] at heq
    exact ⟨_, RunState.discover_error hdiscover, hstate, heq⟩
  | ok state =>
    obtain ⟨-, rfl⟩ := RunState.discover_ok hdiscover
    cases hsamples : samples run.source with
    | error e' =>
      simp only [hdiscover, hsamples] at heq
      exact ⟨_, samples_error hsamples, rfl, heq⟩
    | ok found =>
      simp only [hdiscover, hsamples] at heq
      split at heq
      · rename_i f hsteps
        obtain ⟨hsevere, hmet⟩ := Progress.steps_error hsteps rfl
        exact ⟨f, hsevere, hmet, heq⟩
      · have hclash := h.symm.trans (Prod.mk.inj heq).1
        cases hclash

/-- A run that is final refuses and stays as it is. -/
theorem extractFrom_terminal (h : run.state.phase.isTerminal = true)
    (about : Sample → SampleAnswer) (raised : List Sample → Bool) :
    (∃ e, (run.extractFrom about raised).result = .error e) ∧
      (run.extractFrom about raised).run = run := by
  cases hdiscover : run.state.discover with
  | ok state =>
    rw [(RunState.discover_ok hdiscover).1] at h
    cases h
  | error e =>
    simp only [extractFrom, hdiscover, abort, RunState.fail_of_terminal h]
    exact ⟨⟨e, rfl⟩, rfl⟩

end Run

end FlowTally
