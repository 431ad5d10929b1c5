import FlowTally.Proofs.Run.Complete
import FlowTally.Proofs.Source.FromGraph
import Mathlib

/-!
# Runs over a graph

`extract_graph`: what a fresh run without a seed answers for a graph. If the
paths of the sample directories are distinct, the run succeeds with no failure
on the way, and every count is the number of flows under its key, unless one of
these numbers is too large for a count. A path that two directories share ends
the run.
-/

namespace FlowTally

open CountMatrix (countBound)

def Tally.countOf (t : Tally) (row : Nat) (key : FlowKey) : Nat :=
  match t.vocabulary.column? key with
  | some column => t.matrix.get row column
  | none => 0

theorem Tally.Tallied.countOf_eq {source : SampleSource} {done : List Sample} {t : Tally}
    {sample : Sample} (h : Tallied source {} done t) (hrows : (done.map (·.row)).Nodup)
    (hm : sample ∈ done) (key : FlowKey) :
    t.countOf sample.row key = (source.records sample.id).count key := by
  unfold countOf
  cases hc : t.vocabulary.column? key with
  | none =>
    rw [Vocabulary.column?_eq_none, h.counts.vocabulary, Vocabulary.mem_after] at hc
    refine (List.count_eq_zero_of_not_mem fun hkey => hc (.inr ⟨rfl, ?_⟩)).symm
    exact List.mem_flatMap.mpr ⟨sample, hm, hkey⟩
  | some column =>
    have hn : t.vocabulary.keys.Nodup :=
      h.counts.vocabulary ▸ Vocabulary.nodup_after List.nodup_nil _
    have hkey := (Vocabulary.column?_eq_some hn).mp hc
    exact (h.counts.cells _ _ _ hkey).trans (count_logOf hrows hm)

namespace Run

open Tally (Tallied Fits logOf)

/-- No sample directory has more flows under one key than a count can hold. -/
def CountsFit (g : Graph) (config : SampleConfig) (selects : String → Bool) (q : FlowQuery) : Prop :=
  ∀ node path, g.IsSampleDirectory selects node path → ∀ key,
    (g.flowsUnder q node.id config.skipFunctions key).encard < countBound

/-- The output has the sample directories by path, and counts their flows. -/
structure CountsFlows (g : Graph) (config : SampleConfig) (selects : String → Bool) (q : FlowQuery)
    (output : RunOutput) : Prop where
  samples : ∀ path, path ∈ output.samples.map (·.id) ↔
    ∃ node, g.IsSampleDirectory selects node path
  ordered : output.samples.Pairwise fun a b => a.id < b.id
  numbered : output.samples.map (·.row) = List.range output.samples.length
  labels : output.tally.labels.entries =
    output.samples.map fun s => ⟨config.isPositive s.id, s.id⟩
  rows : output.tally.matrix.rows = output.samples.length
  counts : ∀ sample ∈ output.samples, ∀ node, g.IsSampleDirectory selects node sample.id →
    ∀ key, (g.flowsUnder q node.id config.skipFunctions key).encard =
      output.tally.countOf sample.row key
  sampleFailures : output.report.sampleFailures = 0
  entryFailures : output.report.entryFailures = 0
  notCancelled : output.report.cancelled = false

section
variable {s : GraphSource} {selects : String → Bool} {found : List Sample} {t : Tally}
  (hs : s.directories = s.graph.directories selects) (hfound : Discovered s.infos found)
include hs hfound

theorem isSampleDirectory_of_found {sample : Sample} (hm : sample ∈ found) :
    (∃ node, s.graph.IsSampleDirectory selects node sample.id) ∧
      sample.label = s.config.isPositive sample.id :=
  (s.mem_infos hs).mp (hfound.perm.mem_iff.mp (List.mem_map_of_mem hm))

theorem exists_found {node : Node} {path : String}
    (hnode : s.graph.IsSampleDirectory selects node path) : ∃ sample ∈ found, sample.id = path := by
  have hinfo : (⟨path, s.config.isPositive path⟩ : SampleInfo) ∈ s.infos :=
    (s.mem_infos hs).mpr ⟨⟨node, hnode⟩, rfl⟩
  obtain ⟨sample, hm, heq⟩ := List.mem_map.mp (hfound.perm.mem_iff.mpr hinfo)
  exact ⟨sample, hm, (SampleInfo.mk.inj heq).1⟩

theorem fits_iff (hg : s.graph.WellFormed) (hdistinct : s.graph.DistinctPaths selects) :
    Fits (logOf s.source found) ↔ CountsFit s.graph s.config selects s.query := by
  constructor
  · intro hfits node path hnode key
    obtain ⟨sample, hm, rfl⟩ := exists_found hs hfound hnode
    rw [s.encard_flowsUnder hs hg hdistinct hnode, ← Tally.count_logOf hfound.nodup_rows hm]
    exact Nat.cast_lt.mpr (hfits _)
  · intro hfits e
    obtain ⟨row, key⟩ := e
    by_cases hlog : (row, key) ∈ logOf s.source found
    · obtain ⟨sample, hm, hkey⟩ := List.mem_flatMap.mp hlog
      obtain ⟨key, -, heq⟩ := List.mem_map.mp hkey
      cases heq
      obtain ⟨⟨node, hnode⟩, -⟩ := isSampleDirectory_of_found hs hfound hm
      have hfit := hfits node sample.id hnode key
      rw [s.encard_flowsUnder hs hg hdistinct hnode,
        ← Tally.count_logOf hfound.nodup_rows hm] at hfit
      exact Nat.cast_lt.mp hfit
    · -- Where the log has nothing there may be no directory to ask.
      rw [List.count_eq_zero_of_not_mem hlog]
      decide

theorem countsFlows_of_tallied (hg : s.graph.WellFormed)
    (hdistinct : s.graph.DistinctPaths selects) (h : Tallied s.source {} found t) :
    CountsFlows s.graph s.config selects s.query (outputOf found found.length t) := by
  have hentries {sample : Sample} (hm : sample ∈ found) :
      ∃ node, s.source.entries sample.id = .ok (s.source.listed sample.id) ∧
        ∀ entry ∈ s.source.listed sample.id,
          s.graph.IsEntryPoint node s.config.skipFunctions entry := by
    obtain ⟨⟨node, hnode⟩, -⟩ := isSampleDirectory_of_found hs hfound hm
    obtain ⟨hok, -, hmem⟩ := s.entries_ok hs hg hdistinct hnode
    exact ⟨node.id, hok, fun entry => (hmem entry).mp⟩
  refine ⟨fun path => ?_, hfound.ordered, hfound.rows, ?_, h.rows, ?_, ?_, ?_, ?_⟩
  · constructor
    · intro hpath
      obtain ⟨sample, hm, rfl⟩ := List.mem_map.mp hpath
      exact (isSampleDirectory_of_found hs hfound hm).1
    · rintro ⟨node, hnode⟩
      exact List.mem_map.mpr (exists_found hs hfound hnode)
  · refine h.labels.trans (List.map_congr_left fun sample hm => ?_)
    rw [(isSampleDirectory_of_found hs hfound hm).2]
  · intro sample hm node hnode key
    exact (s.encard_flowsUnder hs hg hdistinct hnode key).trans
      (congrArg _ (h.countOf_eq hfound.nodup_rows hm key).symm)
  · refine h.sampleFailures.trans (List.countP_eq_zero.mpr fun sample hm => ?_)
    obtain ⟨_, hok, -⟩ := hentries hm
    simp [SampleSource.ListingFails, hok, Except.isOk, Except.toBool]
  · refine h.entryFailures.trans (List.countP_eq_zero.mpr fun entry he => ?_)
    obtain ⟨sample, hm, he⟩ := List.mem_flatMap.mp he
    obtain ⟨_, -, hentry⟩ := hentries hm
    simpa using s.not_entryFails hg (hentry entry he).hasNode
  · simp [outputOf, report]

end

variable {g : Graph} {config : SampleConfig} {pattern : PathPattern}

/-- A run over a graph counts the flows of each directory, unless two directories share a path. -/
theorem extract_graph (hg : g.Built) (hpattern : config.pattern = .ok pattern)
    (traversal : TraversalConfig) :
    ∃ s, GraphSource.ofGraph g config traversal = .ok s ∧
      ∀ run : Run, run.source = s.source → run.seed = {} → run.state = {} →
        (g.DistinctPaths pattern.selects →
          (CountsFit g config pattern.selects traversal.query →
            ∃ output, (run.extract fun _ => false).result = .ok output ∧
              CountsFlows g config pattern.selects traversal.query output) ∧
          (¬ CountsFit g config pattern.selects traversal.query →
            ∃ text, (run.extract fun _ => false).result = .error (.consistency text))) ∧
        (¬ g.DistinctPaths pattern.selects → ∀ raised, ∃ path a b,
          g.IsSampleDirectory pattern.selects a path ∧
          g.IsSampleDirectory pattern.selects b path ∧ a.id ≠ b.id ∧
          (run.extract raised).result =
            .error (.consistency s!"sample '{path}' discovered twice")) := by
  refine ⟨_, GraphSource.ofGraph_ok hpattern traversal, ?_⟩
  generalize hs : GraphSource.mk g config traversal.query (g.directories pattern.selects) = s
  intro run hsource hseed hfresh
  have hdirs : s.directories = s.graph.directories pattern.selects := by rw [← hs]
  have hwf : s.graph.WellFormed := by
    rw [← hs]
    exact hg.wellFormed
  have hinfos : run.source.samples = .ok s.infos := by
    rw [hsource]
    rfl
  rw [show g = s.graph by rw [← hs], show config = s.config by rw [← hs],
    show traversal.query = s.query by rw [← hs]]
  refine ⟨fun hdistinct => ?_, fun hshared raised => ?_⟩
  · obtain ⟨found, hsamples, hfound⟩ :=
      samples_ok hinfos ((s.nodup_infos hdirs hwf).mpr hdistinct)
    have hresult := extract_uncancelled run hfresh hsamples hfound.rows
    rw [hseed, hsource] at hresult
    rw [← fits_iff hdirs hfound hwf hdistinct, hresult]
    refine ⟨fun hfits => ?_, fun hfits => ?_⟩
    · obtain ⟨t, hadd, ht⟩ := (Tally.tallied_seed s.source {}).addAll s.source_connected
        List.nodup_nil hfound.rows hfits
      exact ⟨_, congrArg _ hadd, countsFlows_of_tallied hdirs hfound hwf hdistinct ht⟩
    · obtain ⟨text, herror⟩ := (Tally.tallied_seed s.source {}).addAll_overflow s.source_connected
        List.nodup_nil rfl hfound.rows (Tally.fits_of_length (show 0 < countBound by decide)) hfits
      exact ⟨text, congrArg _ herror⟩
  · obtain ⟨path, hsamples, htwice⟩ :=
      samples_repeated hinfos (mt (s.nodup_infos hdirs hwf).mp hshared)
    obtain ⟨a, b, ha, hb, hne⟩ := s.shared_of_sublist hdirs hwf htwice
    refine ⟨path, a, b, ha, hb, hne, ?_⟩
    simp only [extract, extractFrom, hfresh, RunState.discover, hsamples, abort]

def flowGraph : Graph where
  nodes := [{ id := 1, type := "Directory", properties := [("filepath", .str "a/b/c/good/s__1")] },
    { id := 2, type := "File" }, { id := 3, type := "Function" }, { id := 4, type := "CFGEntryNode" },
    { id := 5, type := "Condition", labels := ["UpstreamNode"] },
    { id := 6, type := "ReturnStatement", labels := ["DownstreamNode"] },
    { id := 7, type := "Identifier" }, { id := 8, type := "Literal" }]
  edges := [⟨1, 2, .isParentDirOf⟩, ⟨2, 3, .isFileOf⟩, ⟨3, 4, .isFunctionOfCfg⟩, ⟨4, 5, .flowsTo⟩,
    ⟨5, 6, .reaches⟩, ⟨5, 6, .reaches⟩, ⟨5, 7, .isAstParent⟩, ⟨6, 8, .isAstParent⟩]

def flowKey : FlowKey := ⟨["Identifier"], ["REACHES"], ["Literal"]⟩

def flowSource (directories : List (String × Int)) : GraphSource :=
  ⟨flowGraph, {}, TraversalConfig.query {}, directories⟩

theorem extract_graph_flowGraph :
    flowGraph.Built ∧ ∃ pattern s, ({} : SampleConfig).pattern = .ok pattern ∧
      GraphSource.ofGraph flowGraph {} {} = .ok s ∧ flowGraph.DistinctPaths pattern.selects ∧
      CountsFit flowGraph {} pattern.selects (TraversalConfig.query {}) ∧
      (flowGraph.flowsUnder (TraversalConfig.query {}) 1 [] flowKey).encard = 1 ∧
      ∃ output, (Run.extract { source := s.source } fun _ => false).result = .ok output ∧
        CountsFlows flowGraph {} pattern.selects (TraversalConfig.query {}) output := by
  have hb : flowGraph.Built :=
    Graph.built_of_ofSnapshot (s := ⟨flowGraph.nodes, flowGraph.edges⟩) rfl
  have hdirectories : ({} : SampleConfig).pattern.toOption.map
      (fun pattern => flowGraph.directories pattern.selects) = some [("a/b/c/good/s__1", 1)] := by
    decide +kernel
  have hrecords : (flowSource [("a/b/c/good/s__1", 1)]).source.records "a/b/c/good/s__1" =
      [flowKey] := by cbv
  cases hpattern : ({} : SampleConfig).pattern with
  | error e => simp [hpattern, Except.toOption] at hdirectories
  | ok pattern =>
    rw [hpattern] at hdirectories
    have hdirectories : flowGraph.directories pattern.selects = [("a/b/c/good/s__1", 1)] :=
      Option.some.inj hdirectories
    have hdistinct : flowGraph.DistinctPaths pattern.selects := by
      refine (GraphSource.nodup_infos (s := flowSource (flowGraph.directories pattern.selects)) rfl
        hb.wellFormed).mp ?_
      simp [GraphSource.infos, flowSource, hdirectories]
    have hcount {node : Node} {path : String}
        (hnode : flowGraph.IsSampleDirectory pattern.selects node path) (key : FlowKey) :
        (flowGraph.flowsUnder (TraversalConfig.query {}) node.id [] key).encard =
          [flowKey].count key := by
      have hm := Graph.mem_directories.mpr ⟨node, hnode, rfl⟩
      rw [hdirectories] at hm
      obtain ⟨rfl, -⟩ := Prod.mk.inj (List.mem_singleton.mp hm)
      rw [← hrecords, ← hdirectories]
      exact GraphSource.encard_flowsUnder (s := flowSource (flowGraph.directories pattern.selects))
        rfl hb.wellFormed hdistinct hnode key
    have hfits : CountsFit flowGraph {} pattern.selects (TraversalConfig.query {}) := by
      intro node path hnode key
      rw [hcount hnode]
      exact Nat.cast_lt.mpr (Nat.lt_of_le_of_lt List.count_le_length (by decide))
    have hone : (flowGraph.flowsUnder (TraversalConfig.query {}) 1 [] flowKey).encard = 1 := by
      obtain ⟨node, hnode, hid⟩ :=
        Graph.mem_directories.mp (hdirectories ▸ List.mem_singleton_self _)
      have hencard := hcount hnode flowKey
      rw [hid, List.count_singleton_self] at hencard
      exact_mod_cast hencard
    obtain ⟨s, hs, hrun⟩ := extract_graph hb hpattern {}
    exact ⟨hb, pattern, s, rfl, hs, hdistinct, hfits, hone,
      ((hrun { source := s.source } rfl rfl rfl).1 hdistinct).1 hfits⟩

end Run

end FlowTally
