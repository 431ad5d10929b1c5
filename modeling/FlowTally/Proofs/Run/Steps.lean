import FlowTally.Run.Basic

/-!
# Steps of a run

What a run answers depends on its state and its tally, not on what it reports
on the way. `Progress.step` is the part of a run that one sample makes up, and
`extract_eq` gives the answer of every extraction, sample by sample or in
batches, as these steps over the samples that are reached before a check sees
the flag raised.
-/

namespace FlowTally.Run

structure Progress where
  state : RunState
  tally : Tally

abbrev Failure := RunError × RunState

def Progress.step (about : Sample → SampleAnswer) (total : Nat) (p : Progress) (sample : Sample) :
    Except Failure Progress :=
  match p.state.begin sample.row total with
  | .error e => .error (e, p.state)
  | .ok state =>
    match (Decoded.ofAnswer sample (about sample)).1 with
    | .error text => .error (.connection text, state)
    | .ok decoded =>
      match state.accumulate with
      | .error e => .error (e, state)
      | .ok state =>
        match p.tally.add sample decoded with
        | .error e => .error (e, state)
        | .ok tally => .ok ⟨state, tally⟩

def Progress.steps (about : Sample → SampleAnswer) (total : Nat) (p : Progress) :
    List Sample → Except Failure Progress
  | [] => .ok p
  | sample :: rest => (p.step about total sample).bind fun p => p.steps about total rest

def Trace.progress (t : Trace) : Progress := ⟨t.state, t.tally⟩

/-- A result without what was reported on the way to it. -/
def quiet (f : α → β) : Except Halt α → Except Failure β
  | .ok a => .ok (f a)
  | .error h => .error (h.error, h.state)

variable {about : Sample → SampleAnswer} {raised : List Sample → Bool} {total : Nat} {t : Trace}
  {sample : Sample} {done rest batch found : List Sample} {batches : List (List Sample)}

theorem Progress.step_ok {p p' : Progress} (h : p.step about total sample = .ok p') :
    ∃ begun decoded, p.state.begin sample.row total = .ok begun ∧
      (Decoded.ofAnswer sample (about sample)).1 = .ok decoded ∧
      begun.accumulate = .ok p'.state ∧ p.tally.add sample decoded = .ok p'.tally := by
  unfold Progress.step at h
  split at h
  · cases h
  · rename_i begun hbegin
    split at h
    · cases h
    · rename_i decoded hdecoded
      split at h
      · cases h
      · rename_i state haccumulate
        split at h
        · cases h
        · rename_i tally hadd
          cases h
          exact ⟨begun, decoded, hbegin, hdecoded, haccumulate, hadd⟩

theorem Progress.steps_append (p : Progress) (xs ys : List Sample) :
    p.steps about total (xs ++ ys) =
      (p.steps about total xs).bind fun p => p.steps about total ys := by
  induction xs generalizing p with
  | nil => rfl
  | cons sample xs ih =>
    simp only [List.cons_append, steps]
    cases p.step about total sample with
    | error e => rfl
    | ok next => exact ih next

theorem quiet_take (more : List Event) :
    quiet Trace.progress (t.take total sample (Decoded.ofAnswer sample (about sample)).1 more) =
      t.progress.step about total sample := by
  unfold Trace.take Progress.step Trace.progress
  cases t.state.begin sample.row total with
  | error e => rfl
  | ok state =>
    cases (Decoded.ofAnswer sample (about sample)).1 with
    | error text => rfl
    | ok decoded =>
      simp only
      cases state.accumulate with
      | error e => rfl
      | ok state => cases t.tally.add sample decoded <;> simp [quiet]

/-- Reading a sequence of two parts quietly, when the second depends on the progress alone. -/
theorem quiet_bind {r : Except Halt Trace} {f : Trace → Except Halt α} {g : α → β}
    {s : Progress → Except Failure β} (h : ∀ t, quiet g (f t) = s t.progress) :
    quiet g (r.bind f) = (quiet Trace.progress r).bind s := by
  cases r with
  | error e => rfl
  | ok t => exact h t

-- ---------------------------------------------------------------------------
-- Sample by sample
-- ---------------------------------------------------------------------------

/-- The samples before the first check that sees the flag raised. -/
def reached (raised : List Sample → Bool) (done : List Sample) : List Sample → List Sample
  | [] => []
  | sample :: rest =>
    if raised done then [] else sample :: reached raised (done ++ [sample]) rest

theorem quiet_sequential :
    quiet (fun r => (r.1.progress, r.2)) (sequential about raised total done t rest) =
      (t.progress.steps about total (reached raised done rest)).map fun p =>
        (p, decide ((reached raised done rest).length < rest.length)) := by
  induction rest generalizing done t with
  | nil => rfl
  | cons sample rest ih =>
    by_cases hr : raised done = true
    · simp [sequential, reached, hr, quiet, Progress.steps, Except.map, Trace.cancel, Trace.progress]
    · simp only [sequential, reached, hr, Bool.false_eq_true, if_false, Progress.steps]
      rw [quiet_bind (s := fun p => (p.steps about total (reached raised (done ++ [sample]) rest)).map
        fun p => (p, decide ((reached raised (done ++ [sample]) rest).length < rest.length)))
        fun _ => ih, quiet_take]
      cases t.progress.step about total sample with
      | error e => rfl
      | ok p => simp [Except.bind]

-- ---------------------------------------------------------------------------
-- Batch by batch
-- ---------------------------------------------------------------------------

theorem quiet_takeBatch :
    quiet Trace.progress (takeBatch about total t batch) = t.progress.steps about total batch := by
  induction batch generalizing t with
  | nil => rfl
  | cons sample rest ih =>
    simp only [takeBatch, Progress.steps]
    rw [quiet_bind (s := fun p => p.steps about total rest) fun _ => ih, quiet_take]

def reachedBatches (raised : List Sample → Bool) (done : List Sample) :
    List (List Sample) → List Sample
  | [] => []
  | batch :: rest =>
    if raised done then [] else batch ++ reachedBatches raised (done ++ batch) rest

theorem quiet_batched (hne : ∀ batch ∈ batches, batch ≠ []) :
    quiet (fun r => (r.1.progress, r.2)) (batched about raised total done t batches) =
      (t.progress.steps about total (reachedBatches raised done batches)).map fun p =>
        (p, decide ((reachedBatches raised done batches).length < batches.flatten.length)) := by
  induction batches generalizing done t with
  | nil => rfl
  | cons batch rest ih =>
    obtain ⟨hb, hrest⟩ := List.forall_mem_cons.mp hne
    by_cases hr : raised done = true
    · have hpos : 0 < batch.length := List.length_pos_iff.mpr hb
      simp [batched, reachedBatches, hr, quiet, Progress.steps, Except.map, Trace.cancel,
        Trace.progress, Nat.add_pos_left hpos]
    · simp only [batched, reachedBatches, hr, Bool.false_eq_true, if_false, Progress.steps_append]
      rw [quiet_bind (s := fun p =>
        (p.steps about total (reachedBatches raised (done ++ batch) rest)).map fun p =>
          (p, decide ((reachedBatches raised (done ++ batch) rest).length < rest.flatten.length)))
        fun _ => ih hrest, quiet_takeBatch]
      cases t.progress.steps about total batch with
      | error e => rfl
      | ok p => simp [Except.bind]

theorem flatten_chunks {size : Nat} (h : 0 < size) (xs : List α) :
    (chunks size xs).flatten = xs := by
  induction hn : xs.length using Nat.strongRecOn generalizing xs with
  | ind n ih =>
    rw [chunks]
    split
    · rename_i hx
      exact (hx.resolve_right (Nat.ne_of_gt h)) ▸ rfl
    · rename_i hx
      have hpos : 0 < xs.length := List.length_pos_iff.mpr fun e => hx (.inl e)
      rw [List.flatten_cons, ih _ (by rw [List.length_drop]; omega) _ rfl, List.take_append_drop]

theorem ne_nil_of_mem_chunks {size : Nat} {xs chunk : List α} (hm : chunk ∈ chunks size xs) :
    chunk ≠ [] := by
  induction hn : xs.length using Nat.strongRecOn generalizing xs with
  | ind n ih =>
    rw [chunks] at hm
    split at hm
    · cases hm
    · rename_i hx
      obtain ⟨hxs, hsize⟩ := not_or.mp hx
      have hpos : 0 < xs.length := List.length_pos_iff.mpr hxs
      rcases List.mem_cons.mp hm with rfl | hm
      · simp [hxs, hsize]
      · exact ih _ (by rw [List.length_drop]; omega) hm rfl

-- ---------------------------------------------------------------------------
-- Extraction
-- ---------------------------------------------------------------------------

/-- The samples that a run reaches. In batches, a size of zero counts as one. -/
def reachedSamples (run : Run) (raised : List Sample → Bool) (found : List Sample) : List Sample :=
  if run.parallel.enabled then
    reachedBatches raised [] (chunks (max run.parallel.batchSize 1) found)
  else reached raised [] found

theorem quiet_process (run : Run) (about : Sample → SampleAnswer) (raised : List Sample → Bool)
    (found : List Sample) (t : Trace) :
    quiet (fun r => (r.1.progress, r.2)) (run.process about raised found t) =
      (t.progress.steps about found.length (run.reachedSamples raised found)).map fun p =>
        (p, decide ((run.reachedSamples raised found).length < found.length)) := by
  unfold process reachedSamples
  split
  · have hflat := flatten_chunks (Nat.lt_of_lt_of_le Nat.one_pos (Nat.le_max_right
      run.parallel.batchSize 1)) found
    rw [quiet_batched fun _ => ne_nil_of_mem_chunks, hflat]
    rfl
  · exact quiet_sequential

/-- What a failed run answers, and its state: failed, unless that was final already. -/
def failed (f : Failure) : Except RunError RunOutput × RunState :=
  (.error f.1, (f.2.fail f.1).toOption.getD f.2)

theorem extractFrom_eq (run : Run) (about : Sample → SampleAnswer) (raised : List Sample → Bool) :
    ((run.extractFrom about raised).result, (run.extractFrom about raised).run.state) =
      match run.state.discover with
      | .error e => failed (e, run.state)
      | .ok state =>
        match samples run.source with
        | .error e => failed (e, state)
        | .ok found =>
          let reached := run.reachedSamples raised found
          match Progress.steps about found.length ⟨state, { vocabulary := run.seed }⟩ reached with
          | .error f => failed f
          | .ok p =>
            (.ok ⟨found, p.tally, report found p.tally (decide (reached.length < found.length))⟩,
              p.state) := by
  unfold extractFrom
  cases run.state.discover with
  | error e => rfl
  | ok state =>
    simp only
    cases samples run.source with
    | error e => rfl
    | ok found =>
      simp only
      have hq := quiet_process run about raised found
        ⟨state, { vocabulary := run.seed }, [.samplesFound found.length]⟩
      generalize run.process about raised found _ = r at hq ⊢
      simp only [Trace.progress] at hq
      cases hs : Progress.steps about found.length ⟨state, { vocabulary := run.seed }⟩
          (run.reachedSamples raised found) with
      | error f =>
        rw [hs] at hq
        cases r with
        | ok a => cases hq
        | error halt =>
          obtain rfl : (halt.error, halt.state) = f := Except.error.inj hq
          rfl
      | ok p =>
        rw [hs] at hq
        cases r with
        | error halt => cases hq
        | ok a =>
          have ha := Except.ok.inj hq
          simp only [Prod.mk.injEq] at ha
          obtain ⟨rfl, hc⟩ := ha
          rw [← hc]

theorem extract_eq (run : Run) (raised : List Sample → Bool) :
    ((run.extract raised).result, (run.extract raised).run.state) =
      match run.state.discover with
      | .error e => failed (e, run.state)
      | .ok state =>
        match samples run.source with
        | .error e => failed (e, state)
        | .ok found =>
          let reached := run.reachedSamples raised found
          match Progress.steps run.source.about found.length ⟨state, { vocabulary := run.seed }⟩
              reached with
          | .error f => failed f
          | .ok p =>
            (.ok ⟨found, p.tally, report found p.tally (decide (reached.length < found.length))⟩,
              p.state) :=
  run.extractFrom_eq run.source.about raised

end FlowTally.Run
