import FlowTally.Proofs.Export.RoundTrip
import FlowTally.Proofs.Run.Accounts

/-!
# Calls on a pipeline

A pipeline is called to extract and to export, in any order and as often as one
likes. `Session.Stage` is what every call keeps: either nothing has happened, or one
output was extracted and the state stands where that run ended (`Ready`), or the
pipeline is final. `reached_calls` reads off that each of the two calls succeeds once
at most, and what a success leaves behind.
-/

namespace FlowTally

namespace Run

variable {about : Sample → SampleAnswer} {raised : List Sample → Bool} {run : Run}
  {output : RunOutput} {m : Manifest}

-- ---------------------------------------------------------------------------
-- One call
-- ---------------------------------------------------------------------------

/-- The run stands where this output was extracted. -/
structure Ready (run : Run) (output : RunOutput) : Prop where
  state : run.state = .between output.report.processed output.report.discovered
  processed : output.report.processed ≤ output.report.discovered
  cancelled : output.report.cancelled =
    decide (output.report.processed < output.report.discovered)
  labels : output.tally.labels.size = output.report.processed

theorem extractFrom_ready (hfresh : run.state = {})
    (hok : (run.extractFrom about raised).result = .ok output) :
    Ready (run.extractFrom about raised).run output := by
  obtain ⟨found, count, p, -, hcount, -, hsteps, rfl, hstate⟩ := extractFrom_ok hok
  rw [hfresh] at hsteps
  obtain ⟨hlabelled, hbetween⟩ := Progress.steps_labelled Tally.labelled_nil rfl hsteps
  have hlength : (found.take count).length = count := by
    rw [List.length_take, Nat.min_eq_left hcount]
  have hsize : p.tally.labels.size = count := hlabelled.size.trans hlength
  rw [List.nil_append, hlength] at hbetween
  refine ⟨?_, hsize.trans_le hcount, ?_, rfl⟩
  · rw [hstate, hbetween]
    exact congrArg (RunState.between · found.length) hsize.symm
  · exact congrArg (fun n => decide (n < found.length)) hsize.symm

theorem between_phase (count total : Nat) :
    (RunState.between count total).phase ≠ .idle ∧
      (RunState.between count total).phase.isTerminal = false := by
  cases count with
  | zero => exact ⟨by rintro ⟨⟩, rfl⟩
  | succ count => exact ⟨by rintro ⟨⟩, rfl⟩

/-- Extraction is begun in an idle pipeline only; in any other it leads to a final phase. -/
theorem extractFrom_not_idle (h : run.state.phase ≠ .idle)
    (hstate : run.state.phase.isTerminal = false) (about : Sample → SampleAnswer)
    (raised : List Sample → Bool) :
    ∃ e, (run.extractFrom about raised).result = .error e ∧
      (run.extractFrom about raised).run.state.phase.isTerminal = true := by
  cases hresult : (run.extractFrom about raised).result with
  | ok output =>
    obtain ⟨found, count, p, -, -, hidle, -⟩ := extractFrom_ok hresult
    exact absurd hidle h
  | error e =>
    refine ⟨e, rfl, ?_⟩
    rw [(extractFrom_error hresult hstate).2]
    rfl

theorem Ready.publish (h : Ready run output) (fails : Nat → Option IoFault) (files : FileTree)
    (target : ExportTarget) (stamp : Stamp) :
    (run.publish fails files target stamp output).outcome.result =
        (Export.run fails files target stamp (parts output)).result ∧
      (∀ m, (run.publish fails files target stamp output).outcome.result = .ok m →
        m.rows = output.report.processed ∧
          (run.publish fails files target stamp output).outcome.run.state.phase =
            if output.report.cancelled then .cancelled output.report.processed
            else .done output.report.processed) ∧
      (run.publish fails files target stamp output).outcome.run.state.phase.isTerminal = true := by
  obtain ⟨hresult, hphase⟩ :=
    publish_between output h.processed h.state h.cancelled fails files target stamp
  have hdone (m : Manifest)
      (hm : (run.publish fails files target stamp output).outcome.result = .ok m) :
      (run.publish fails files target stamp output).outcome.run.state.phase =
        if output.report.cancelled then .cancelled output.report.processed
        else .done output.report.processed := by
    rw [hphase m hm, h.cancelled]
    by_cases hlt : output.report.processed < output.report.discovered
    · simp [hlt]
    · have heq := Nat.le_antisymm h.processed (Nat.le_of_not_lt hlt)
      simp [heq]
  refine ⟨hresult, fun m hm => ⟨?_, hdone m hm⟩, ?_⟩
  · rw [hresult] at hm
    rcases Export.run_answers fails files target stamp (parts output) with hok | ⟨text, herror⟩
    · cases hm.symm.trans hok
      exact h.labels
    · rcases herror with herror | herror <;> cases hm.symm.trans herror
  · cases hr : (run.publish fails files target stamp output).outcome.result with
    | ok m =>
      rw [hdone m hr]
      split <;> rfl
    | error e =>
      have hbegin := h.state ▸ beginExport_between h.processed
      rw [← h.cancelled] at hbegin
      have hfail := RunState.fail_of_not_terminal
        (s := ⟨.exporting output.report.cancelled, output.report.processed⟩) rfl e
      rw [hr] at hresult
      simp only [Run.publish, hbegin, ← hresult, abort, hfail]
      rfl

theorem publish_terminal (h : run.state.phase.isTerminal = true) (fails : Nat → Option IoFault)
    (files : FileTree) (target : ExportTarget) (stamp : Stamp) (output : RunOutput) :
    ∃ e, run.publish fails files target stamp output = ⟨⟨.error e, run, []⟩, files⟩ := by
  have hrefused : ∃ e, run.state.beginExport output.report.cancelled = .error e := by
    unfold RunState.beginExport
    split
    · rename_i hphase
      rw [hphase] at h
      cases h
    · rename_i hphase
      rw [hphase] at h
      cases h
    · exact ⟨_, rfl⟩
  obtain ⟨e, he⟩ := hrefused
  exact ⟨e, by rw [Run.publish, he]⟩

end Run

-- ---------------------------------------------------------------------------
-- Calls in any order
-- ---------------------------------------------------------------------------

/-- A call on a pipeline, with what is answered to it. Between calls the files may change. -/
inductive Call where
  | extract (about : Sample → SampleAnswer) (raised : List Sample → Bool)
  | publish (fails : Nat → Option IoFault) (files : FileTree) (target : ExportTarget)
    (stamp : Stamp) (output : RunOutput)

/-- A pipeline with what its calls have returned. -/
structure Session where
  run : Run
  extracted : List RunOutput := []
  exported : List Manifest := []

namespace Session

open Run (Ready)

def call (s : Session) : Call → Session
  | .extract about raised =>
    let outcome := s.run.extractFrom about raised
    { s with run := outcome.run, extracted := s.extracted ++ outcome.result.toOption.toList }
  | .publish fails files target stamp output =>
    let outcome := (s.run.publish fails files target stamp output).outcome
    { s with run := outcome.run, exported := s.exported ++ outcome.result.toOption.toList }

def Allows (s : Session) : Call → Prop
  | .extract .. => True
  | .publish _ _ _ _ output => output ∈ s.extracted

inductive Reached (run : Run) : Session → Prop
  | start : Reached run { run := run }
  | call (c : Call) : Reached run s → s.Allows c → Reached run (s.call c)

inductive Stage : Session → Prop
  | fresh {run : Run} : run.state = {} → Stage { run := run }
  | ready {run : Run} {output : RunOutput} : Ready run output →
    Stage { run := run, extracted := [output] }
  | final {s : Session} : s.run.state.phase.isTerminal = true → s.extracted.length ≤ 1 →
    s.exported.length ≤ 1 → Stage s

variable {s : Session} {run : Run}

/-- A final session refuses every call and stays as it is. -/
theorem call_final (h : s.run.state.phase.isTerminal = true) (c : Call) : s.call c = s := by
  cases c with
  | extract about raised =>
    obtain ⟨⟨e, hresult⟩, hrun⟩ := Run.extractFrom_terminal h about raised
    simp [call, hresult, hrun, Except.toOption]
  | publish fails files target stamp output =>
    obtain ⟨e, heq⟩ := Run.publish_terminal h fails files target stamp output
    simp [call, heq, Except.toOption]

theorem calls_final (h : s.run.state.phase.isTerminal = true) (calls : List Call) :
    calls.foldl call s = s := by
  induction calls with
  | nil => rfl
  | cons c rest ih => rw [List.foldl_cons, call_final h, ih]

theorem length_toList_le (o : Option α) : o.toList.length ≤ 1 := by
  cases o <;> simp

theorem Stage.call (h : s.Stage) {c : Call} (ha : s.Allows c) : (s.call c).Stage := by
  cases h with
  | @fresh run hfresh =>
    cases c with
    | publish fails files target stamp output => cases ha
    | extract about raised =>
      cases hresult : (run.extractFrom about raised).result with
      | ok output =>
        simp only [Session.call, hresult]
        exact .ready (Run.extractFrom_ready hfresh hresult)
      | error e =>
        refine .final ?_ (length_toList_le _) (Nat.zero_le 1)
        rw [show (Session.call ⟨run, [], []⟩ (.extract about raised)).run =
          (run.extractFrom about raised).run from rfl,
          (Run.extractFrom_error hresult (by rw [hfresh]; rfl)).2]
        rfl
  | @ready run output hready =>
    cases c with
    | extract about raised =>
      obtain ⟨hidle, hopen⟩ := hready.state ▸ Run.between_phase _ _
      obtain ⟨e, hresult, hfinal⟩ := Run.extractFrom_not_idle hidle hopen about raised
      refine .final hfinal ?_ (Nat.zero_le 1)
      simp [Session.call, hresult, Except.toOption]
    | publish fails files target stamp other =>
      obtain rfl : other = output := List.mem_singleton.mp ha
      obtain ⟨-, -, hfinal⟩ := hready.publish fails files target stamp
      exact .final hfinal (Nat.le_refl 1) (length_toList_le _)
  | final hfinal hextracted hexported =>
    rw [call_final hfinal]
    exact .final hfinal hextracted hexported

theorem Reached.stage (hfresh : run.state = {}) (h : Reached run s) : s.Stage := by
  induction h with
  | start => exact .fresh hfresh
  | call c _ ha ih => exact ih.call ha

theorem Stage.length_le (h : s.Stage) : s.extracted.length ≤ 1 ∧ s.exported.length ≤ 1 := by
  cases h with
  | fresh _ => exact ⟨Nat.zero_le 1, Nat.zero_le 1⟩
  | ready _ => exact ⟨Nat.le_refl 1, Nat.zero_le 1⟩
  | final _ hextracted hexported => exact ⟨hextracted, hexported⟩

theorem Stage.publish_ok (h : s.Stage) {fails : Nat → Option IoFault} {files : FileTree}
    {target : ExportTarget} {stamp : Stamp} {output : RunOutput} {m : Manifest}
    (hm : output ∈ s.extracted)
    (hok : (s.run.publish fails files target stamp output).outcome.result = .ok m) :
    m.rows = output.report.processed ∧
      (s.run.publish fails files target stamp output).outcome.run.state.phase =
        if output.report.cancelled then .cancelled output.report.processed
        else .done output.report.processed := by
  cases h with
  | fresh _ => cases hm
  | ready hready =>
    obtain rfl := List.mem_singleton.mp hm
    exact (hready.publish fails files target stamp).2.1 m hok
  | final hfinal _ _ =>
    obtain ⟨e, heq⟩ := Run.publish_terminal hfinal fails files target stamp output
    rw [heq] at hok
    cases hok

theorem Stage.state_of_ok (h : s.Stage) {about : Sample → SampleAnswer}
    {raised : List Sample → Bool} {output : RunOutput}
    (hok : (s.run.extractFrom about raised).result = .ok output) : s.run.state = {} := by
  obtain ⟨found, count, p, -, -, hidle, -⟩ := Run.extractFrom_ok hok
  cases h with
  | fresh hfresh => exact hfresh
  | ready hready => exact absurd hidle (hready.state ▸ Run.between_phase _ _).1
  | final hfinal _ _ =>
    rw [hidle] at hfinal
    cases hfinal

/-- On a pipeline each of the two calls succeeds once at most. An export that succeeds ends it with
the number of processed samples, which is also the number of rows in the manifest; right after an
extraction the state refuses no export; and at the end every call is refused, with no trace. -/
theorem reached_calls (hfresh : run.state = {}) (h : Reached run s) :
    s.extracted.length ≤ 1 ∧ s.exported.length ≤ 1 ∧
      (∀ fails files target stamp output m, output ∈ s.extracted →
        (s.run.publish fails files target stamp output).outcome.result = .ok m →
        m.rows = output.report.processed ∧
          (s.run.publish fails files target stamp output).outcome.run.state.phase =
            if output.report.cancelled then .cancelled output.report.processed
            else .done output.report.processed) ∧
      (∀ about raised output, (s.run.extractFrom about raised).result = .ok output →
        ∀ fails files target stamp,
          ((s.run.extractFrom about raised).run.publish fails files target stamp
              output).outcome.result = (Export.run fails files target stamp (Run.parts output)).result ∧
            ∀ source goal, ((s.run.extractFrom about raised).run.publish fails files target stamp
              output).outcome.result ≠ .error (.transition source goal)) ∧
      (s.run.state.phase.isTerminal = true →
        (∀ calls : List Call, calls.foldl call s = s) ∧
          (∀ about raised, ∃ e, (s.run.extractFrom about raised).result = .error e) ∧
          ∀ fails files target stamp output,
            (∃ e, (s.run.publish fails files target stamp output).outcome.result = .error e) ∧
              (s.run.publish fails files target stamp output).files = files) := by
  have hstage := h.stage hfresh
  obtain ⟨hextracted, hexported⟩ := hstage.length_le
  refine ⟨hextracted, hexported, ?_, ?_, ?_⟩
  · intro fails files target stamp output m hm hok
    exact hstage.publish_ok hm hok
  · intro about raised output hok fails files target stamp
    have hready := Run.extractFrom_ready (hstage.state_of_ok hok) hok
    obtain ⟨hresult, -⟩ := hready.publish fails files target stamp
    refine ⟨hresult, fun source goal hrefused => ?_⟩
    rw [hresult] at hrefused
    rcases Export.run_answers fails files target stamp (Run.parts output) with
      hdone | ⟨text, herror | herror⟩
    · cases hrefused.symm.trans hdone
    · cases hrefused.symm.trans herror
    · cases hrefused.symm.trans herror
  · intro hfinal
    refine ⟨calls_final hfinal, fun about raised => (Run.extractFrom_terminal hfinal about raised).1,
      fun fails files target stamp output => ?_⟩
    obtain ⟨e, heq⟩ := Run.publish_terminal hfinal fails files target stamp output
    rw [heq]
    exact ⟨⟨e, rfl⟩, rfl⟩

def cutSession : Session :=
  Session.call { run := Run.cutRun } (.extract Run.cutRun.source.about fun done => !done.isEmpty)

def cutOutput : RunOutput where
  samples := [⟨"a", false, 0⟩, ⟨"b", true, 1⟩, ⟨"c", true, 2⟩]
  tally :=
    { vocabulary := ⟨[⟨["name"], ["flows"], ["call"]⟩, ⟨["call"], ["flows"], ["call"]⟩], false⟩
      matrix := { cells := [⟨0, 0, 1⟩, ⟨1, 0, 1⟩, ⟨1, 1, 1⟩], rows := 2, columns := 2 }
      labels := ⟨[⟨false, "a"⟩, ⟨true, "b"⟩]⟩
      counted := 3
      entryFailures := 2 }
  report :=
    { discovered := 3, processed := 2, vocabularySize := 2, nonZero := 3, counted := 3,
      entryFailures := 2, sampleFailures := 0, unknown := 0, cancelled := true }

theorem reached_calls_cutSession :
    Run.cutRun.state = {} ∧ Reached Run.cutRun cutSession ∧ cutOutput ∈ cutSession.extracted ∧
      ∃ m, (cutSession.run.publish Export.noFailure Export.awkwardFiles Export.awkwardTarget
          Export.awkwardStamp cutOutput).outcome.result = .ok m ∧ m.rows = 2 ∧
        (cutSession.run.publish Export.noFailure Export.awkwardFiles Export.awkwardTarget
          Export.awkwardStamp cutOutput).outcome.run.state.phase = .cancelled 2 := by
  have hok : (Run.cutRun.extractFrom Run.cutRun.source.about fun done => !done.isEmpty).result =
      .ok cutOutput := by
    cbv
  have hreached : Reached Run.cutRun cutSession := .call _ .start trivial
  have hm : cutOutput ∈ cutSession.extracted := by
    simp [cutSession, call, hok, Except.toOption]
  have hdone : (Export.run Export.noFailure Export.awkwardFiles Export.awkwardTarget
      Export.awkwardStamp (Run.parts cutOutput)).result.isOk = true := by
    decide +kernel
  obtain ⟨-, -, -, hexport, -⟩ := reached_calls rfl (Reached.start : Reached Run.cutRun _)
  obtain ⟨-, -, hexported, -, -⟩ := reached_calls rfl hreached
  obtain ⟨hresult, -⟩ := hexport _ _ cutOutput hok Export.noFailure Export.awkwardFiles
    Export.awkwardTarget Export.awkwardStamp
  cases hpublished : (Export.run Export.noFailure Export.awkwardFiles Export.awkwardTarget
      Export.awkwardStamp (Run.parts cutOutput)).result with
  | error e =>
    rw [hpublished] at hdone
    cases hdone
  | ok m =>
    have hresult := hresult.trans hpublished
    obtain ⟨hrows, hphase⟩ := hexported Export.noFailure Export.awkwardFiles Export.awkwardTarget
      Export.awkwardStamp cutOutput m hm hresult
    exact ⟨rfl, hreached, hm, m, hresult, hrows, hphase⟩

end Session

end FlowTally
