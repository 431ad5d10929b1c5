import FlowTally.Proofs.Run.Calls

/-!
# Runs over an exported vocabulary

The vocabulary of an export can be loaded again, frozen, as the seed of a second
run. `rerun`: then the columns of both matrices stand for the same keys, the second
export has the vocabulary file of the first, and what the second run skips is what
the first has not seen. Between the runs nothing but the file is passed on, so the
proof goes from the tally of the first to its file, and from there to the seed.
-/

namespace FlowTally

namespace Run

/-- A run that was not cancelled, and the export of its output. -/
structure Exported where
  run : Run
  about : Sample → SampleAnswer
  raised : List Sample → Bool
  output : RunOutput
  extracted : (run.extractFrom about raised).result = .ok output
  uncancelled : output.report.cancelled = false
  fails : Nat → Option IoFault
  before : FileTree
  target : ExportTarget
  stamp : Stamp
  manifest : Manifest
  published : ((run.extractFrom about raised).run.publish fails before target stamp
    output).outcome.result = .ok manifest

theorem publish_ok {run : Run} {fails : Nat → Option IoFault} {files : FileTree}
    {target : ExportTarget} {stamp : Stamp} {output : RunOutput} {m : Manifest}
    (h : (run.publish fails files target stamp output).outcome.result = .ok m) :
    (Export.run fails files target stamp (parts output)).result = .ok m ∧
      (run.publish fails files target stamp output).files =
        (Export.run fails files target stamp (parts output)).files := by
  unfold publish at h ⊢
  cases hbegin : run.state.beginExport output.report.cancelled with
  | error e =>
    rw [hbegin] at h
    cases h
  | ok state =>
    rw [hbegin] at h
    simp only at h ⊢
    cases hresult : (Export.run fails files target stamp (parts output)).result with
    | error e =>
      rw [hresult] at h
      cases h
    | ok m' =>
      rw [hresult] at h
      simp only at h ⊢
      cases hfinish : state.finish with
      | error e =>
        rw [hfinish] at h
        cases h
      | ok state' =>
        rw [hfinish] at h
        exact ⟨h, rfl⟩

namespace Exported

open Tally (Accounted logBy)

variable {a b : Exported} {seed : Vocabulary} {key : FlowKey}

def after (e : Exported) : FileTree :=
  ((e.run.extractFrom e.about e.raised).run.publish e.fails e.before e.target e.stamp
    e.output).files

def file (e : Exported) (name : String) : Except IoFault Content :=
  e.after.read (FileTree.join e.target.directory name)

def vocabulary (e : Exported) : Vocabulary := e.output.tally.vocabulary

def matrix (e : Exported) : CountMatrix := e.output.tally.matrix

def contributed (e : Exported) : List FlowKey := e.output.samples.flatMap fun s => (e.about s).records

theorem file_eq (e : Exported) {f : String × List Char}
    (hf : f ∈ Export.artifacts e.target.labelStyle (parts e.output)) :
    e.file f.1 = .ok (.ofChars f.2) := by
  obtain ⟨hresult, hfiles⟩ := publish_ok e.published
  rw [file, after, hfiles]
  exact (Export.read_of_ok hresult).2 f (List.mem_append_left _ hf)

theorem accounted (e : Exported) (hseed : e.run.seed.keys.Nodup) :
    Accounted e.about e.run.seed e.output.samples e.output.tally := by
  obtain ⟨hle, heq, haccounted⟩ := extractFrom_accounted e.extracted hseed
  have hcancelled : decide (e.output.report.processed < e.output.samples.length) = false :=
    (congrArg (·.report.cancelled) heq).symm.trans e.uncancelled
  have hall : e.output.report.processed = e.output.samples.length :=
    Nat.le_antisymm hle (Nat.not_lt.mp (of_decide_eq_false hcancelled))
  rwa [hall, List.take_length] at haccounted

theorem samples_eq (e : Exported) : samples e.run.source = .ok e.output.samples := by
  obtain ⟨found, count, p, hsamples, -, -, -, heq, -⟩ := extractFrom_ok e.extracted
  rw [hsamples, heq]
  rfl

theorem vocabulary_eq (e : Exported) (hseed : e.run.seed.keys.Nodup) :
    e.vocabulary = e.run.seed.after e.contributed := (e.accounted hseed).counts.vocabulary

theorem get_matrix (e : Exported) (hseed : e.run.seed.keys.Nodup) {column : Nat}
    (hkey : e.vocabulary.key? column = some key) {s : Sample} (hs : s ∈ e.output.samples) :
    e.matrix.get s.row column = (e.about s).records.count key := by
  have haccounted := e.accounted hseed
  have hrows : (e.output.samples.map (·.row)).Nodup := haccounted.numbered ▸ List.nodup_range
  exact (haccounted.counts.cells s.row column key hkey).trans (Tally.count_logBy hrows hs)

theorem unknown_eq (e : Exported) (hseed : e.run.seed.keys.Nodup) :
    e.output.report.unknown = e.contributed.countP fun key => ¬ e.run.seed.Accepts key := by
  obtain ⟨-, heq, -⟩ := extractFrom_accounted e.extracted hseed
  have hreport : e.output.report.unknown = e.output.tally.unknown := congrArg (·.report.unknown) heq
  have hlog : (logBy e.about e.output.samples).map (·.2) = e.contributed := by
    simp [logBy, contributed, List.map_flatMap, Function.comp_def]
  rw [hreport, (e.accounted hseed).counts.unknown, ← hlog, List.countP_map]
  rfl

/-- The second run is seeded with the vocabulary file of the first, frozen. -/
structure Reruns (a b : Exported) : Prop where
  unseeded : a.run.seed = {}
  seeded : ∃ files path, FileTree.read files path = a.file Export.vocabularyFile ∧
    Vocabulary.load files path true = .ok b.run.seed

theorem nodup_unseeded (h : a.run.seed = {}) : a.run.seed.keys.Nodup := by
  rw [h]
  exact List.nodup_nil

theorem mem_vocabulary (h : a.run.seed = {}) : key ∈ a.vocabulary.keys ↔ key ∈ a.contributed := by
  rw [a.vocabulary_eq (nodup_unseeded h), Vocabulary.mem_after, h]
  simp

/-- What is written is loaded: the seed of the second run has the keys of the first. -/
theorem Reruns.seed_eq (h : Reruns a b) : b.run.seed = ⟨a.vocabulary.keys, true⟩ := by
  obtain ⟨files, path, hread, hload⟩ := h.seeded
  have hseed := nodup_unseeded h.unseeded
  have hn : a.vocabulary.keys.Nodup := by
    rw [a.vocabulary_eq hseed]
    exact Vocabulary.nodup_after hseed _
  rw [a.file_eq (f := (_, FlowKey.writeLines a.vocabulary.keys))
    (by simp [Export.artifacts, parts, vocabulary])] at hread
  exact Except.ok.inj (hload.symm.trans (Export.loadVocabulary_ok hn hread true))

theorem Reruns.nodup_seed (h : Reruns a b) : b.run.seed.keys.Nodup := by
  have hseed := nodup_unseeded h.unseeded
  rw [h.seed_eq, a.vocabulary_eq hseed]
  exact Vocabulary.nodup_after hseed _

theorem Reruns.keys_eq (h : Reruns a b) : b.vocabulary.keys = a.vocabulary.keys := by
  rw [b.vocabulary_eq h.nodup_seed, h.seed_eq]
  simp [Vocabulary.after]

theorem Reruns.unknown_eq (h : Reruns a b) :
    b.output.report.unknown = b.contributed.countP (· ∉ a.contributed) := by
  rw [b.unknown_eq h.nodup_seed, h.seed_eq]
  refine List.countP_congr fun key _ => ?_
  simp [Vocabulary.Accepts, mem_vocabulary h.unseeded]

/-- The second run meets the samples and the answers of the first. -/
structure Repeats (a b : Exported) : Prop extends Reruns a b where
  source : b.run.source.samples = a.run.source.samples
  about : ∀ s ∈ a.output.samples, b.about s = a.about s

theorem Repeats.samples (h : Repeats a b) : b.output.samples = a.output.samples := by
  have hsamples : Run.samples b.run.source = Run.samples a.run.source := by
    simp only [Run.samples, h.source]
  rw [a.samples_eq, b.samples_eq] at hsamples
  exact Except.ok.inj hsamples

theorem Repeats.contributed (h : Repeats a b) : b.contributed = a.contributed := by
  rw [Exported.contributed, h.samples]
  exact List.flatMap_congr fun s hs => by rw [h.about s hs]

theorem Repeats.log (h : Repeats a b) :
    logBy b.about b.output.samples = logBy a.about a.output.samples := by
  rw [h.samples]
  exact List.flatMap_congr fun s hs => by rw [h.about s hs]

theorem Repeats.unknown (h : Repeats a b) : b.output.report.unknown = 0 := by
  rw [h.unknown_eq, h.contributed, List.countP_eq_zero]
  intro key hm
  simpa using hm

theorem Repeats.labels (h : Repeats a b) :
    b.output.tally.labels.entries = a.output.tally.labels.entries := by
  rw [(a.accounted (nodup_unseeded h.unseeded)).labels, (b.accounted h.nodup_seed).labels,
    h.samples]

theorem Repeats.cells (h : Repeats a b) : b.matrix.cells = a.matrix.cells := by
  have ha := (a.accounted (nodup_unseeded h.unseeded)).counts
  have hb := (b.accounted h.nodup_seed).counts
  refine hb.wellFormed.cells_ext ha.wellFormed fun r c => ?_
  cases hkey : a.vocabulary.key? c with
  | some key =>
    have hkey' : b.vocabulary.key? c = some key := by
      rw [Vocabulary.key?, h.keys_eq]
      exact hkey
    calc b.matrix.get r c = (logBy b.about b.output.samples).count (r, key) :=
          hb.cells r c key hkey'
      _ = (logBy a.about a.output.samples).count (r, key) := by rw [h.log]
      _ = a.matrix.get r c := (ha.cells r c key hkey).symm
  | none =>
    -- beyond the vocabulary neither matrix has a column
    have hlast : a.vocabulary.size ≤ c := List.getElem?_eq_none_iff.mp hkey
    have hsize : b.vocabulary.size = a.vocabulary.size := congrArg List.length h.keys_eq
    exact (CountMatrix.get_eq_zero hb.wellFormed (hb.columns.trans (hsize.trans_le hlast))).trans
      (CountMatrix.get_eq_zero ha.wellFormed (ha.columns.trans hlast)).symm

theorem Repeats.table (h : Repeats a b) :
    Export.table (parts b.output) = Export.table (parts a.output) := by
  have hrows : b.output.tally.labels.size = a.output.tally.labels.size :=
    congrArg List.length h.labels
  have hcolumns : b.output.tally.vocabulary.size = a.output.tally.vocabulary.size :=
    congrArg List.length h.keys_eq
  have hcells : b.output.tally.matrix.cells = a.output.tally.matrix.cells := h.cells
  rw [Export.table, Export.table, parts, parts, hrows, hcolumns, CountMatrix.crop, hcells]
  rfl

/-- A run over the frozen vocabulary of an export has its columns: both exports have the same
vocabulary file, a column counts the same key in both matrices, and what the second run skips is
what the first did not see. If it meets the same answers, its matrix file and its label file are
those of the first as well. -/
theorem rerun (a b : Exported) (h : Reruns a b) :
    (∃ content, a.file Export.vocabularyFile = .ok content ∧
        b.file Export.vocabularyFile = .ok content) ∧
      (∀ column, b.vocabulary.key? column = a.vocabulary.key? column) ∧
      (∀ column key, a.vocabulary.key? column = some key →
        (∀ s ∈ a.output.samples, a.matrix.get s.row column = (a.about s).records.count key) ∧
          ∀ s ∈ b.output.samples, b.matrix.get s.row column = (b.about s).records.count key) ∧
      b.output.report.unknown = b.contributed.countP (· ∉ a.contributed) ∧
      (b.run.source.samples = a.run.source.samples →
        (∀ s ∈ a.output.samples, b.about s = a.about s) →
        b.target.labelStyle = a.target.labelStyle →
        (∃ content, a.file Export.matrixFile = .ok content ∧
            b.file Export.matrixFile = .ok content) ∧
          (∃ content, a.file Export.labelsFile = .ok content ∧
            b.file Export.labelsFile = .ok content) ∧
          b.output.report.unknown = 0) := by
  have hkey (column : Nat) : b.vocabulary.key? column = a.vocabulary.key? column := by
    rw [Vocabulary.key?, h.keys_eq]
    rfl
  refine ⟨?_, hkey, fun column key hcolumn => ⟨fun s hs => ?_, fun s hs => ?_⟩, h.unknown_eq, ?_⟩
  · refine ⟨_, a.file_eq (f := (Export.vocabularyFile, FlowKey.writeLines a.vocabulary.keys)) ?_,
      b.file_eq (f := (Export.vocabularyFile, FlowKey.writeLines a.vocabulary.keys)) ?_⟩
    · simp [Export.artifacts, parts, vocabulary]
    · rw [← h.keys_eq]
      simp [Export.artifacts, parts, vocabulary]
  · exact a.get_matrix (nodup_unseeded h.unseeded) hcolumn hs
  · exact b.get_matrix h.nodup_seed ((hkey column).trans hcolumn) hs
  · intro hsource habout hstyle
    have hrepeats : Repeats a b := ⟨h, hsource, habout⟩
    refine ⟨?_, ?_, hrepeats.unknown⟩
    · refine ⟨_, a.file_eq (f := (Export.matrixFile, Market.write (Export.table (parts a.output)))) ?_,
        b.file_eq (f := (Export.matrixFile, Market.write (Export.table (parts a.output)))) ?_⟩
      · simp [Export.artifacts]
      · rw [← hrepeats.table]
        simp [Export.artifacts]
    · refine ⟨_, a.file_eq (f := (Export.labelsFile,
          LabelEntry.writeLines a.target.labelStyle a.output.tally.labels.entries)) ?_,
        b.file_eq (f := (Export.labelsFile,
          LabelEntry.writeLines a.target.labelStyle a.output.tally.labels.entries)) ?_⟩
      · simp [Export.artifacts, parts]
      · rw [← hrepeats.labels, ← hstyle]
        simp [Export.artifacts, parts]

-- ---------------------------------------------------------------------------
-- Runs over one sample
-- ---------------------------------------------------------------------------

def soloRun (seed : Vocabulary) : Run where
  source := { mixedSource.source with samples := .ok [⟨"a", true⟩] }
  seed := seed

def soloOutput (seed : Vocabulary) (about : Sample → SampleAnswer) : RunOutput :=
  ((soloRun seed).extractFrom about fun _ => false).result.toOption.getD default

def solo (seed : Vocabulary) (about : Sample → SampleAnswer)
    (hok : ((soloRun seed).extractFrom about fun _ => false).result = .ok (soloOutput seed about))
    (hall : (soloOutput seed about).report.cancelled = false)
    (hdone : (Export.run Export.noFailure Export.awkwardFiles Export.awkwardTarget
      Export.awkwardStamp (parts (soloOutput seed about))).result =
        .ok (Export.manifest Export.awkwardStamp .boolean (parts (soloOutput seed about)))) :
    Exported where
  run := soloRun seed
  about := about
  raised := fun _ => false
  output := soloOutput seed about
  extracted := hok
  uncancelled := hall
  fails := Export.noFailure
  before := Export.awkwardFiles
  target := Export.awkwardTarget
  stamp := Export.awkwardStamp
  manifest := Export.manifest Export.awkwardStamp .boolean (parts (soloOutput seed about))
  published := ((extractFrom_ready rfl hok).publish _ _ _ _).1.trans hdone

def callKey : FlowKey := ⟨["call"], ["flows"], ["call"]⟩

def nameKey : FlowKey := ⟨["name"], ["flows"], ["call"]⟩

def firstAnswers (_ : Sample) : SampleAnswer := .ok [(0, .ok [callKey, nameKey, callKey])]

def laterAnswers (_ : Sample) : SampleAnswer :=
  .ok [(0, .ok [nameKey, ⟨["return"], ["flows"], ["call"]⟩]), (1, .ok [nameKey])]

def frozenSeed : Vocabulary := ⟨[callKey, nameKey], true⟩

def firstExport : Exported :=
  solo {} firstAnswers (by decide +kernel) (by decide +kernel) (by decide +kernel)

def laterExport : Exported :=
  solo frozenSeed laterAnswers (by decide +kernel) (by decide +kernel) (by decide +kernel)

def sameExport : Exported :=
  solo frozenSeed firstAnswers (by decide +kernel) (by decide +kernel) (by decide +kernel)

theorem reruns_firstExport (h : b.run.seed = frozenSeed) : Reruns firstExport b where
  unseeded := rfl
  seeded := by
    have hfile := firstExport.file_eq
      (f := (Export.vocabularyFile, FlowKey.writeLines [callKey, nameKey])) (by decide +kernel)
    refine ⟨firstExport.after, _, rfl, ?_⟩
    rw [h]
    exact Export.loadVocabulary_ok (by decide) hfile true

theorem rerun_firstExport :
    Reruns firstExport laterExport ∧ Reruns firstExport sameExport ∧
      (∃ content, firstExport.file Export.vocabularyFile = .ok content ∧
        laterExport.file Export.vocabularyFile = .ok content) ∧
      1 = laterExport.contributed.countP (· ∉ firstExport.contributed) ∧
      ∃ content, firstExport.file Export.matrixFile = .ok content ∧
        sameExport.file Export.matrixFile = .ok content := by
  have hlater : Reruns firstExport laterExport := reruns_firstExport rfl
  have hsame : Reruns firstExport sameExport := reruns_firstExport rfl
  obtain ⟨hfile, -, -, hunknown, -⟩ := rerun firstExport laterExport hlater
  obtain ⟨-, -, -, -, hrepeat⟩ := rerun firstExport sameExport hsame
  obtain ⟨hmatrix, -, -⟩ := hrepeat rfl (fun _ _ => rfl) rfl
  have hone : laterExport.output.report.unknown = 1 := by decide +kernel
  exact ⟨hlater, hsame, hfile, hone.symm.trans hunknown, hmatrix⟩

end Exported

end Run

end FlowTally
