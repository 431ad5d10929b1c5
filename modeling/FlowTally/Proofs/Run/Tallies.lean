import FlowTally.Proofs.Files.Operations
import FlowTally.Proofs.Matrix.Counts
import FlowTally.Proofs.Run.Records
import FlowTally.Proofs.Vocabulary
import Mathlib.Data.List.Count

/-!
# What a tally has counted

The *log* of a run lists the keys that were counted, each with its row, in the
order in which they were counted. A tally agrees with its log when every cell
holds the number of times that its row and its key stand there together
(`Tally.Counts`). Counting a key is a request for its column, which leaves the
counts as they are, and then an entry of the log. `Tally.Tallied` adds what
the samples themselves leave behind: rows, labels and failures.
-/

namespace FlowTally

open CountMatrix (countBound)

namespace Tally

abbrev Log := List (Nat × FlowKey)

/-- No cell has to hold more than it can. -/
def Fits (log : Log) : Prop := ∀ e, log.count e < countBound

theorem fits_of_length {log : Log} (h : log.length < countBound) : Fits log := fun _ =>
  Nat.lt_of_le_of_lt List.count_le_length h

theorem Fits.of_append {log more : Log} (h : Fits (log ++ more)) : Fits log := fun e =>
  Nat.lt_of_le_of_lt ((List.sublist_append_left log more).count_le e) (h e)

/-- After these requests, the tally holds the counts of the log. -/
structure Counts (seed : Vocabulary) (requests : List FlowKey) (log : Log) (t : Tally) : Prop where
  vocabulary : t.vocabulary = seed.after requests
  requested : ∀ e ∈ log, e.2 ∈ requests
  wellFormed : t.matrix.WellFormed
  columns : t.matrix.columns ≤ t.vocabulary.size
  cells : ∀ r c key, t.vocabulary.key? c = some key → t.matrix.get r c = log.count (r, key)
  counted : t.counted = log.countP fun e => seed.Accepts e.2
  unknown : t.unknown = log.countP fun e => ¬ seed.Accepts e.2

structure Framed (t t' : Tally) : Prop where
  rows : t'.matrix.rows = t.matrix.rows
  labels : t'.labels = t.labels
  entryFailures : t'.entryFailures = t.entryFailures
  sampleFailures : t'.sampleFailures = t.sampleFailures

variable {seed : Vocabulary} {requests : List FlowKey} {log : Log} {t : Tally} {key : FlowKey}
  {row column : Nat}

theorem Framed.trans {t₁ t₂ t₃ : Tally} (h : Framed t₁ t₂) (h' : Framed t₂ t₃) : Framed t₁ t₃ :=
  ⟨h'.rows.trans h.rows, h'.labels.trans h.labels, h'.entryFailures.trans h.entryFailures,
    h'.sampleFailures.trans h.sampleFailures⟩

-- ---------------------------------------------------------------------------
-- One key
-- ---------------------------------------------------------------------------

/-- A request that opens a column opens an empty one. -/
theorem Counts.resolve (h : Counts seed requests log t) (key : FlowKey) :
    Counts seed (requests ++ [key]) log { t with vocabulary := (t.vocabulary.resolve key).2 } := by
  refine ⟨?_, fun e he => List.mem_append_left _ (h.requested e he), h.wellFormed, ?_, ?_,
    h.counted, h.unknown⟩
  · simp only [h.vocabulary, Vocabulary.after_concat]
  · refine Nat.le_trans h.columns ?_
    simp [Vocabulary.resolve_keys, Vocabulary.size]
  · intro r c other hc
    cases hold : t.vocabulary.key? c with
    | some k =>
      have hlt : c < t.vocabulary.keys.length := (List.getElem?_eq_some_iff.mp hold).1
      rw [Vocabulary.resolve_keys, Vocabulary.key?, List.getElem?_append_left hlt] at hc
      exact h.cells r c other hc
    | none =>
      have hge : t.vocabulary.keys.length ≤ c := List.getElem?_eq_none_iff.mp hold
      rw [Vocabulary.resolve_keys, Vocabulary.key?, List.getElem?_append_right hge] at hc
      split at hc
      · cases hc
      · rename_i hnew
        obtain ⟨hgrows, hne⟩ := not_or.mp hnew
        obtain rfl : other = key := List.mem_singleton.mp (List.mem_of_getElem? hc)
        have hlogged : (r, other) ∉ log := by
          intro hm
          rw [h.vocabulary, Vocabulary.mem_after] at hne
          refine hne (.inr ⟨?_, h.requested _ hm⟩)
          simpa [h.vocabulary, Vocabulary.after] using hgrows
        have hcol : t.matrix.columns ≤ c := Nat.le_trans h.columns hge
        exact (CountMatrix.get_eq_zero h.wellFormed hcol).trans
          (List.count_eq_zero_of_not_mem hlogged).symm

theorem Counts.openRow (h : Counts seed requests log t) (row : Nat) :
    Counts seed requests log { t with matrix := t.matrix.openRow row } :=
  ⟨h.vocabulary, h.requested, h.wellFormed.openRow row, h.columns, h.cells, h.counted, h.unknown⟩

theorem Counts.column?_eq_none (h : Counts seed requests log t) (hr : key ∈ requests) :
    t.vocabulary.column? key = none ↔ ¬ seed.Accepts key := by
  rw [Vocabulary.column?_eq_none, h.vocabulary, Vocabulary.mem_after]
  simp [Vocabulary.Accepts, hr, or_comm]

theorem Counts.skip (h : Counts seed requests log t) (hr : key ∈ requests)
    (hc : t.vocabulary.column? key = none) (row : Nat) :
    Counts seed requests (log ++ [(row, key)]) { t with unknown := t.unknown + 1 } := by
  have hreject := (h.column?_eq_none hr).mp hc
  refine ⟨h.vocabulary, ?_, h.wellFormed, h.columns, fun r c k hk => ?_, ?_, ?_⟩
  · intro e he
    rcases List.mem_append.mp he with he | he
    · exact h.requested e he
    · cases List.mem_singleton.mp he
      exact hr
  · have hne : k ≠ key := by
      rintro rfl
      exact Vocabulary.column?_eq_none.mp hc (List.mem_of_getElem? hk)
    have hold := h.cells r c k hk
    simp [hold, List.count_append, hne.symm]
  · simp [h.counted, hreject]
  · simp [h.unknown, hreject]

theorem Counts.increment (h : Counts seed requests log t) (hr : key ∈ requests)
    (hn : t.vocabulary.keys.Nodup) (hc : t.vocabulary.column? key = some column)
    (hrow : row < t.matrix.rows) (hnext : t.matrix.get row column + 1 < countBound) :
    ∃ m, t.matrix.increment row column 1 = (.ok (), m) ∧ m.rows = t.matrix.rows ∧
      Counts seed requests (log ++ [(row, key)])
        { t with matrix := m, counted := t.counted + 1 } := by
  have haccept : seed.Accepts key := by
    by_contra hno
    rw [(h.column?_eq_none hr).mpr hno] at hc
    cases hc
  have hkey := (Vocabulary.column?_eq_some hn).mp hc
  have hlt : column < t.vocabulary.size := (List.getElem?_eq_some_iff.mp hkey).1
  obtain ⟨m, hm, hwf, hrows, hcols, hget⟩ :=
    CountMatrix.increment_ok h.wellFormed row column hnext
  refine ⟨m, hm, by omega, ⟨h.vocabulary, ?_, hwf, ?_, fun r c k hk => ?_, ?_, ?_⟩⟩
  · intro e he
    rcases List.mem_append.mp he with he | he
    · exact h.requested e he
    · cases List.mem_singleton.mp he
      exact hr
  · have := h.columns
    simp only [hcols]
    omega
  · have hsame : column = c ↔ key = k := by
      constructor
      · rintro rfl
        exact Option.some.inj (hkey.symm.trans hk)
      · rintro rfl
        exact Option.some.inj (hc.symm.trans ((Vocabulary.column?_eq_some hn).mpr hk))
    have hold := h.cells r c k hk
    simp [hget, hold, List.count_append, List.count_singleton, hsame]
  · simp [h.counted, haccept]
  · simp [h.unknown, haccept]

theorem Counts.count (h : Counts seed requests log t) (hseed : seed.keys.Nodup)
    (hrow : row < t.matrix.rows) (hfits : Fits (log ++ [(row, key)])) :
    ∃ t', t.count row key = .ok t' ∧ Framed t t' ∧
      Counts seed (requests ++ [key]) (log ++ [(row, key)]) t' := by
  have hn : t.vocabulary.keys.Nodup := h.vocabulary ▸ Vocabulary.nodup_after hseed _
  have hn' := Vocabulary.nodup_resolve hn key
  have hresolved := h.resolve key
  have hr : key ∈ requests ++ [key] := List.mem_append_right _ (List.mem_singleton_self key)
  simp only [Tally.count, Vocabulary.resolve_column hn key]
  cases hc : (t.vocabulary.resolve key).2.column? key with
  | none => exact ⟨_, rfl, ⟨rfl, rfl, rfl, rfl⟩, hresolved.skip hr hc row⟩
  | some column =>
    have hcell := hresolved.cells row column key ((Vocabulary.column?_eq_some hn').mp hc)
    have hnext : t.matrix.get row column + 1 < countBound := by
      have hbound := hfits (row, key)
      rw [List.count_append, List.count_singleton_self] at hbound
      rwa [show t.matrix.get row column = log.count (row, key) from hcell]
    obtain ⟨m, hm, hrows, hcounts⟩ := hresolved.increment hr hn' hc hrow hnext
    simp only at hm
    simp only [hm]
    exact ⟨_, rfl, ⟨hrows, rfl, rfl, rfl⟩, hcounts⟩

theorem Counts.count_ok {t' : Tally} (h : Counts seed requests log t) (hseed : seed.keys.Nodup)
    (hrow : row < t.matrix.rows) (hok : t.count row key = .ok t') :
    Framed t t' ∧ Counts seed (requests ++ [key]) (log ++ [(row, key)]) t' := by
  have hn : t.vocabulary.keys.Nodup := h.vocabulary ▸ Vocabulary.nodup_after hseed _
  have hn' := Vocabulary.nodup_resolve hn key
  have hresolved := h.resolve key
  have hr : key ∈ requests ++ [key] := List.mem_append_right _ (List.mem_singleton_self key)
  simp only [Tally.count, Vocabulary.resolve_column hn key] at hok
  cases hc : (t.vocabulary.resolve key).2.column? key with
  | none =>
    simp only [hc] at hok
    cases hok
    exact ⟨⟨rfl, rfl, rfl, rfl⟩, hresolved.skip hr hc row⟩
  | some column =>
    by_cases hnext : t.matrix.get row column + 1 < countBound
    · obtain ⟨m, hm, hrows, hcounts⟩ := hresolved.increment hr hn' hc hrow hnext
      simp only at hm
      simp only [hc, hm] at hok
      cases hok
      exact ⟨⟨hrows, rfl, rfl, rfl⟩, hcounts⟩
    · simp only [hc, CountMatrix.increment_eq, if_neg Nat.one_ne_zero, if_neg hnext] at hok
      cases hok

theorem Counts.count_overflow (h : Counts seed requests log t) (hseed : seed.keys.Nodup)
    (hgrows : seed.frozen = false) (hold : Fits log) (hfits : ¬ Fits (log ++ [(row, key)])) :
    ∃ text, t.count row key = .error (.consistency text) := by
  have hn : t.vocabulary.keys.Nodup := h.vocabulary ▸ Vocabulary.nodup_after hseed _
  have hn' := Vocabulary.nodup_resolve hn key
  have hresolved := h.resolve key
  have hr : key ∈ requests ++ [key] := List.mem_append_right _ (List.mem_singleton_self key)
  have hfull : countBound ≤ log.count (row, key) + 1 := by
    obtain ⟨e, he⟩ := not_forall.mp hfits
    rw [Nat.not_lt, List.count_append] at he
    by_cases heq : (row, key) = e
    · subst heq
      rwa [List.count_singleton_self] at he
    · rw [List.count_singleton, if_neg (by simpa using heq), Nat.add_zero] at he
      exact absurd (hold e) (Nat.not_lt.mpr he)
  simp only [Tally.count, Vocabulary.resolve_column hn key]
  cases hc : (t.vocabulary.resolve key).2.column? key with
  | none => exact absurd (.inl hgrows) ((hresolved.column?_eq_none hr).mp hc)
  | some column =>
    have hget := hresolved.cells row column key ((Vocabulary.column?_eq_some hn').mp hc)
    have hover : ¬ t.matrix.get row column + 1 < countBound := by
      rw [show t.matrix.get row column = log.count (row, key) from hget]
      exact Nat.not_lt.mpr hfull
    simp only [CountMatrix.increment_eq, if_neg Nat.one_ne_zero, if_neg hover]
    exact ⟨_, rfl⟩

theorem Counts.countAll (h : Counts seed requests log t) (hseed : seed.keys.Nodup) (row : Nat)
    (keys : List FlowKey) (hrow : row < t.matrix.rows)
    (hfits : Fits (log ++ keys.map (row, ·))) :
    ∃ t', countAll row t keys = .ok t' ∧ Framed t t' ∧
      Counts seed (requests ++ keys) (log ++ keys.map (row, ·)) t' := by
  induction keys generalizing t log requests with
  | nil => exact ⟨t, rfl, ⟨rfl, rfl, rfl, rfl⟩, by simpa using h⟩
  | cons key rest ih =>
    rw [List.map_cons, List.append_cons] at hfits
    obtain ⟨t₁, hok, hframe, hcounts⟩ := h.count hseed hrow hfits.of_append
    obtain ⟨t₂, hok', hframe', hcounts'⟩ := ih hcounts (hframe.rows ▸ hrow) hfits
    refine ⟨t₂, ?_, hframe.trans hframe', ?_⟩
    · rw [Tally.countAll, hok]
      exact hok'
    · simpa [List.append_assoc] using hcounts'

theorem Counts.countAll_ok {t' : Tally} {keys : List FlowKey} (h : Counts seed requests log t)
    (hseed : seed.keys.Nodup) (hrow : row < t.matrix.rows) (hok : Tally.countAll row t keys = .ok t') :
    Framed t t' ∧ Counts seed (requests ++ keys) (log ++ keys.map (row, ·)) t' := by
  induction keys generalizing t log requests with
  | nil =>
    cases hok
    exact ⟨⟨rfl, rfl, rfl, rfl⟩, by simpa using h⟩
  | cons key rest ih =>
    obtain ⟨next, hnext, hrest⟩ := bind_ok.mp hok
    obtain ⟨hframe, hcounts⟩ := h.count_ok hseed hrow hnext
    obtain ⟨hframe', hcounts'⟩ := ih hcounts (hframe.rows ▸ hrow) hrest
    exact ⟨hframe.trans hframe', by simpa [List.append_assoc] using hcounts'⟩

theorem Counts.countAll_overflow (h : Counts seed requests log t) (hseed : seed.keys.Nodup)
    (hgrows : seed.frozen = false) (keys : List FlowKey) (hrow : row < t.matrix.rows)
    (hold : Fits log) (hfits : ¬ Fits (log ++ keys.map (row, ·))) :
    ∃ text, Tally.countAll row t keys = .error (.consistency text) := by
  induction keys generalizing t log requests with
  | nil => exact absurd hold (by simpa using hfits)
  | cons key rest ih =>
    rw [List.map_cons, List.append_cons] at hfits
    rw [Tally.countAll]
    by_cases hfirst : Fits (log ++ [(row, key)])
    · obtain ⟨t₁, hok, hframe, hcounts⟩ := h.count hseed hrow hfirst
      rw [hok]
      exact ih hcounts (hframe.rows ▸ hrow) hfirst hfits
    · obtain ⟨text, herror⟩ := h.count_overflow hseed hgrows hold hfirst
      exact ⟨text, by rw [herror]; rfl⟩

-- ---------------------------------------------------------------------------
-- One sample
-- ---------------------------------------------------------------------------

def logBy (about : Sample → SampleAnswer) (done : List Sample) : Log :=
  done.flatMap fun s => (about s).records.map (s.row, ·)

def logOf (source : SampleSource) (done : List Sample) : Log :=
  done.flatMap fun s => (source.records s.id).map (s.row, ·)

structure Tallied (source : SampleSource) (seed : Vocabulary) (done : List Sample) (t : Tally) :
    Prop where
  counts : Counts seed (done.flatMap fun s => source.records s.id) (logOf source done) t
  rows : t.matrix.rows = done.length
  labels : t.labels.entries = done.map fun s => ⟨s.label, s.id⟩
  entryFailures : t.entryFailures =
    (done.flatMap fun s => source.listed s.id).countP (source.EntryFails ·)
  sampleFailures : t.sampleFailures = done.countP fun s => source.ListingFails s.id

variable {source : SampleSource} {done : List Sample} {sample : Sample}

theorem logOf_append (xs ys : List Sample) :
    logOf source (xs ++ ys) = logOf source xs ++ logOf source ys :=
  List.flatMap_append

theorem logOf_concat (done : List Sample) (sample : Sample) :
    logOf source (done ++ [sample]) =
      logOf source done ++ (source.records sample.id).map (sample.row, ·) := by
  simp [logOf]

theorem tallied_seed (source : SampleSource) (seed : Vocabulary) :
    Tallied source seed [] { vocabulary := seed } := by
  refine ⟨⟨?_, by simp [logOf], CountMatrix.wellFormed_empty, Nat.zero_le _, ?_, rfl, rfl⟩, rfl, rfl,
    rfl, rfl⟩
  · simp [Vocabulary.after]
  · intro r c key _
    rfl

theorem Tallied.opened (h : Tallied source seed done t) (hrow : sample.row = done.length) :
    (t.matrix.openRow sample.row).rows = done.length + 1 ∧
      Counts seed (done.flatMap fun s => source.records s.id) (logOf source done)
        { t with matrix := t.matrix.openRow sample.row } := by
  refine ⟨?_, h.counts.openRow sample.row⟩
  simp only [CountMatrix.openRow, h.rows, hrow]
  omega

theorem Tallied.add (h : Tallied source seed done t) (hs : source.Connected)
    (hseed : seed.keys.Nodup) (hrow : sample.row = done.length)
    (hfits : Fits (logOf source (done ++ [sample]))) :
    ∃ decoded t', (Decoded.ofSample source sample).1 = .ok decoded ∧
      t.add sample decoded = .ok t' ∧ Tallied source seed (done ++ [sample]) t' := by
  obtain ⟨hrows, hopen⟩ := h.opened hrow
  have hsize : t.labels.size = sample.row := by
    rw [LabelRegistry.size, h.labels, List.length_map, hrow]
  rw [logOf_concat] at hfits
  obtain ⟨t', hok, hframe, hcounts⟩ := hopen.countAll hseed sample.row (source.records sample.id)
    (by simp only [hrows]; omega) hfits
  refine ⟨_, { t' with
      labels := ⟨t'.labels.entries ++ [⟨sample.label, sample.id⟩]⟩
      entryFailures := t'.entryFailures + (source.listed sample.id).countP (source.EntryFails ·)
      sampleFailures := t'.sampleFailures + if source.ListingFails sample.id then 1 else 0 },
    Decoded.ofSample_connected hs sample, ?_, ?_⟩
  · have hlabels : t'.labels.size = sample.row := hframe.labels ▸ hsize
    simp [Tally.add, hok, Except.bind, LabelRegistry.record, hlabels]
  · refine ⟨?_, ?_, ?_, ?_, ?_⟩
    · rw [logOf_concat, List.flatMap_append, List.flatMap_singleton]
      exact ⟨hcounts.vocabulary, hcounts.requested, hcounts.wellFormed, hcounts.columns,
        hcounts.cells, hcounts.counted, hcounts.unknown⟩
    · simp [hframe.rows, hrows]
    · simp [hframe.labels, h.labels]
    · simp [hframe.entryFailures, h.entryFailures, List.countP_append]
    · simp [hframe.sampleFailures, h.sampleFailures, List.countP_append, List.countP_singleton]

theorem Tallied.add_overflow (h : Tallied source seed done t) (hs : source.Connected)
    (hseed : seed.keys.Nodup) (hgrows : seed.frozen = false) (hrow : sample.row = done.length)
    (hold : Fits (logOf source done)) (hfits : ¬ Fits (logOf source (done ++ [sample]))) :
    ∃ decoded text, (Decoded.ofSample source sample).1 = .ok decoded ∧
      t.add sample decoded = .error (.consistency text) := by
  obtain ⟨hrows, hopen⟩ := h.opened hrow
  rw [logOf_concat] at hfits
  obtain ⟨text, herror⟩ := hopen.countAll_overflow hseed hgrows (source.records sample.id)
    (by simp only [hrows]; omega) hold hfits
  exact ⟨_, text, Decoded.ofSample_connected hs sample, by rw [Tally.add, herror]; rfl⟩

-- ---------------------------------------------------------------------------
-- Reading a tally by samples
-- ---------------------------------------------------------------------------

theorem count_logBy {about : Sample → SampleAnswer} (hrows : (done.map (·.row)).Nodup)
    (hm : sample ∈ done) :
    (logBy about done).count (sample.row, key) = (about sample).records.count key := by
  induction done with
  | nil => cases hm
  | cons first rest ih =>
    obtain ⟨hfirst, hrest⟩ := List.nodup_cons.mp hrows
    rw [logBy, List.flatMap_cons, List.count_append]
    have hother {s s' : Sample} (hne : s'.row ≠ s.row) :
        ((about s').records.map (s'.row, ·)).count (s.row, key) = 0 := by
      refine List.count_eq_zero_of_not_mem fun h => ?_
      obtain ⟨k, -, hk⟩ := List.mem_map.mp h
      exact hne (Prod.mk.inj hk).1
    rcases List.mem_cons.mp hm with rfl | hm
    · have hzero : (logBy about rest).count (sample.row, key) = 0 := by
        refine List.count_eq_zero_of_not_mem fun h => ?_
        obtain ⟨s, hs, h⟩ := List.mem_flatMap.mp h
        obtain ⟨k, -, hk⟩ := List.mem_map.mp h
        exact hfirst (List.mem_map.mpr ⟨s, hs, (Prod.mk.inj hk).1⟩)
      have hinj : Function.Injective fun k : FlowKey => (sample.row, k) := fun _ _ h =>
        (Prod.mk.inj h).2
      rw [List.count_map_of_injective _ _ hinj]
      exact congrArg _ hzero
    · have hne : first.row ≠ sample.row := fun h => hfirst (List.mem_map.mpr ⟨sample, hm, h.symm⟩)
      rw [hother hne, Nat.zero_add]
      exact ih hrest hm

theorem logOf_eq (source : SampleSource) (done : List Sample) :
    logOf source done = logBy source.about done := by
  simp only [logOf, logBy, SampleSource.records_about]

theorem count_logOf (hrows : (done.map (·.row)).Nodup) (hm : sample ∈ done) :
    (logOf source done).count (sample.row, key) = (source.records sample.id).count key := by
  rw [logOf_eq, count_logBy hrows hm, SampleSource.records_about]

end Tally

end FlowTally
