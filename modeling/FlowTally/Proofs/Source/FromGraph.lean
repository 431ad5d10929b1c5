import FlowTally.Proofs.Graph.EntryPoints
import FlowTally.Proofs.Graph.FlowPaths
import FlowTally.Proofs.Run.Discovery
import FlowTally.Proofs.Run.Records
import FlowTally.Source.FromGraph
import Mathlib.Data.Set.Card

/-!
# Samples in a graph, and what they contribute

As long as the paths of the sample directories are distinct, no question that a
run asks fails: a listed sample is a directory, a listed entry point is a node,
and a flow has an edge. `encard_flowsUnder` is what counting relies on: the
records of a sample with some key are as many as the flows that have this key.
-/

namespace FlowTally

namespace Graph

/-- Sample directories with one path are one directory. -/
def DistinctPaths (g : Graph) (selects : String → Bool) : Prop :=
  ∀ a b path, g.IsSampleDirectory selects a path → g.IsSampleDirectory selects b path → a.id = b.id

/-- Flows from the entry points of a directory whose types and relationships make up the key. -/
def flowsUnder (g : Graph) (q : FlowQuery) (directory : Int) (skipped : List String)
    (key : FlowKey) : Set (Int × Int × Int × List EdgeKind) :=
  {(e, u, d, f) | g.IsEntryPoint directory skipped e ∧ g.IsFlow q e u d f ∧
    g.IsSubtreeTypes u key.source ∧ f.map (·.name) = key.flow ∧ g.IsSubtreeTypes d key.sink}

theorem IsEntryPoint.hasNode {g : Graph} (h : g.IsEntryPoint directory skipped entry) :
    g.hasNode entry = true := by
  obtain ⟨-, -, -, -, node, hm, -, -, -, -, -, -, -, rfl⟩ := h
  exact hasNode_iff.mpr (List.mem_map_of_mem hm)

end Graph

namespace GraphSource

def paths (s : GraphSource) (entry : Int) : List FlowPath :=
  (s.graph.upstreamAnchors s.query entry).flatMap (s.graph.anchorPaths s.query)

def flowOf (entry : Int) (path : FlowPath) : Int × Int × Int × List EdgeKind :=
  (entry, path.source, path.sink, path.kinds)

variable {s : GraphSource} {selects : String → Bool} {node : Node} {id path : String} {entry : Int}
  {key : FlowKey} {p : FlowPath}

theorem ofGraph_ok {g : Graph} {config : SampleConfig} {pattern : PathPattern}
    (h : config.pattern = .ok pattern) (traversal : TraversalConfig) :
    ofGraph g config traversal =
      .ok ⟨g, config, traversal.query, g.directories pattern.selects⟩ := by
  rw [ofGraph, h]
  rfl

theorem source_connected (s : GraphSource) : s.source.Connected := by
  constructor
  · intro id text
    simp only [source, entries, Graph.entryPoints, Graph.require]
    split
    · simp
    · split <;> simp [Except.map, Except.mapError, SourceError.ofStore, StoreError.nodeNotFound,
        StoreError.isConnection]
  · intro entry text
    simp only [source, flows, Graph.flowPaths, Graph.require]
    split <;> simp [Except.map, Except.mapError, SourceError.ofStore, StoreError.nodeNotFound,
      StoreError.isConnection]

-- ---------------------------------------------------------------------------
-- Samples
-- ---------------------------------------------------------------------------

section
variable (hs : s.directories = s.graph.directories selects)
include hs

theorem mem_infos {info : SampleInfo} :
    info ∈ s.infos ↔ (∃ node, s.graph.IsSampleDirectory selects node info.id) ∧
      info.isPositive = s.config.isPositive info.id := by
  simp only [infos, hs, List.mem_map, Prod.exists, Graph.mem_directories]
  constructor
  · rintro ⟨path, _, ⟨node, hnode, rfl⟩, rfl⟩
    exact ⟨⟨node, hnode⟩, rfl⟩
  · rintro ⟨⟨node, hnode⟩, hpositive⟩
    exact ⟨info.id, node.id, ⟨node, hnode, rfl⟩, by rw [← hpositive]⟩

theorem ids_infos : s.infos.map (·.id) = (s.graph.directories selects).map (·.1) := by
  simp [infos, hs]

theorem nodup_infos (hg : s.graph.WellFormed) :
    (s.infos.map (·.id)).Nodup ↔ s.graph.DistinctPaths selects := by
  rw [ids_infos hs]
  constructor
  · intro hnodup a b path ha hb
    exact congrArg Prod.snd (List.inj_on_of_nodup_map hnodup
      (Graph.mem_directories.mpr ⟨a, ha, rfl⟩) (Graph.mem_directories.mpr ⟨b, hb, rfl⟩) rfl)
  · intro hdistinct
    refine List.Nodup.map_on ?_ (Graph.nodup_directories hg selects)
    rintro ⟨path, id⟩ ha ⟨path', id'⟩ hb rfl
    obtain ⟨a, hdir, rfl⟩ := Graph.mem_directories.mp ha
    obtain ⟨b, hdir', rfl⟩ := Graph.mem_directories.mp hb
    rw [hdistinct a b path hdir hdir']

theorem shared_of_sublist (hg : s.graph.WellFormed)
    (htwice : [path, path].Sublist (s.infos.map (·.id))) :
    ∃ a b, s.graph.IsSampleDirectory selects a path ∧ s.graph.IsSampleDirectory selects b path ∧
      a.id ≠ b.id := by
  rw [ids_infos hs] at htwice
  obtain ⟨listed, hsub, hpaths⟩ := List.sublist_map_iff.mp htwice
  have hnodup := (Graph.nodup_directories hg selects).sublist hsub
  match listed, hpaths with
  | [(_, i), (_, j)], hpaths =>
    simp only [List.map_cons, List.map_nil, List.cons.injEq, and_true] at hpaths
    obtain ⟨rfl, rfl⟩ := hpaths
    obtain ⟨a, ha, rfl⟩ := Graph.mem_directories.mp (hsub.subset (List.mem_cons_self ..))
    obtain ⟨b, hb, rfl⟩ := Graph.mem_directories.mp
      (hsub.subset (List.mem_cons_of_mem _ (List.mem_singleton_self _)))
    exact ⟨a, b, ha, hb, fun heq => by simp [heq] at hnodup⟩

theorem directory?_eq_some (hdistinct : s.graph.DistinctPaths selects)
    (h : s.graph.IsSampleDirectory selects node path) : s.directory? path = some node.id := by
  have hm : (path, node.id) ∈ s.directories.reverse :=
    List.mem_reverse.mpr (hs ▸ Graph.mem_directories.mpr ⟨node, h, rfl⟩)
  cases hl : s.directory? path with
  | none => simpa using List.lookup_eq_none_iff.mp hl _ hm
  | some id =>
    obtain ⟨before, after, heq, -⟩ := List.lookup_eq_some_iff.mp hl
    have hfound : (path, id) ∈ s.directories.reverse := by simp [heq]
    rw [List.mem_reverse, hs] at hfound
    obtain ⟨other, ho, rfl⟩ := Graph.mem_directories.mp hfound
    rw [hdistinct other node path ho h]

-- ---------------------------------------------------------------------------
-- Entry points
-- ---------------------------------------------------------------------------

theorem entries_ok (hg : s.graph.WellFormed) (hdistinct : s.graph.DistinctPaths selects)
    (h : s.graph.IsSampleDirectory selects node path) :
    s.source.entries path = .ok (s.source.listed path) ∧ (s.source.listed path).Nodup ∧
      ∀ entry, entry ∈ s.source.listed path ↔
        s.graph.IsEntryPoint node.id s.config.skipFunctions entry := by
  have hnode : s.graph.hasNode node.id = true :=
    Graph.hasNode_iff.mpr (List.mem_map_of_mem h.present)
  obtain ⟨ids, hids, hsorted, hm⟩ := Graph.entryPoints_ok hg hnode s.config.skipFunctions
  have hentries : s.source.entries path = .ok ids := by
    simp [source, entries, directory?_eq_some hs hdistinct h, hids, Except.mapError]
  have hlisted : s.source.listed path = ids := by
    rw [SampleSource.listed, hentries]
    rfl
  rw [hlisted]
  exact ⟨hentries, hsorted.imp Int.ne_of_lt, hm⟩

end

-- ---------------------------------------------------------------------------
-- Flows
-- ---------------------------------------------------------------------------

theorem flows_ok (hentry : s.graph.hasNode entry = true) :
    s.source.flows entry = .ok ((s.paths entry).map keyOf) := by
  simp [source, flows, Graph.flowPaths_eq, hentry, Except.mapError, Except.map, paths]

theorem not_entryFails (hg : s.graph.WellFormed) (hentry : s.graph.hasNode entry = true) :
    ¬ s.source.EntryFails entry := by
  simp only [SampleSource.EntryFails, flows_ok hentry]
  rintro ⟨_, hm, hnil⟩
  obtain ⟨p, hp, rfl⟩ := List.mem_map.mp hm
  have hflow := ((Graph.answersFlows hg entry s.query).flow _ _ _).mp ⟨p, hp, rfl, rfl, rfl⟩
  obtain ⟨hne, -, hops, htrail, hkinds, -⟩ := hflow.sink
  -- A flow without an edge would end where it starts.
  have hempty : hops = [] := by simpa [keyOf, ← hkinds] using hnil
  subst hempty
  exact hne (Graph.walk_nil.mp htrail.walk).symm

theorem entryRecords_eq (hg : s.graph.WellFormed) (hentry : s.graph.hasNode entry = true) :
    s.source.entryRecords entry = (s.paths entry).map keyOf := by
  rw [SampleSource.entryRecords, if_neg (not_entryFails hg hentry), flows_ok hentry]
  rfl

theorem keyOf_eq (hg : s.graph.WellFormed) (hp : p ∈ s.paths entry) :
    keyOf p = key ↔ s.graph.IsSubtreeTypes p.source key.source ∧
      p.kinds.map (·.name) = key.flow ∧ s.graph.IsSubtreeTypes p.sink key.sink := by
  have hanswers := Graph.answersFlows hg entry s.query
  have hsource := (Graph.isSubtreeTypes_iff hg).mp (hanswers.sourceTypes p hp)
  have hsink := (Graph.isSubtreeTypes_iff hg).mp (hanswers.sinkTypes p hp)
  simp only [Graph.isSubtreeTypes_iff hg, ← hsource, ← hsink]
  constructor
  · rintro rfl
    exact ⟨rfl, rfl, rfl⟩
  · rintro ⟨h, hf, h'⟩
    rw [keyOf, ← h, hf, ← h']

def listUnder (s : GraphSource) (key : FlowKey) (ids : List Int) :
    List (Int × Int × Int × List EdgeKind) :=
  ids.flatMap fun entry => ((s.paths entry).filter (keyOf · == key)).map (flowOf entry)

theorem length_listUnder (s : GraphSource) (key : FlowKey) (ids : List Int) :
    (s.listUnder key ids).length =
      (ids.flatMap fun entry => (s.paths entry).map keyOf).count key := by
  simp only [listUnder, List.length_flatMap, List.length_map, List.count_flatMap]
  congr 1
  refine List.map_congr_left fun entry _ => ?_
  rw [Function.comp_apply, List.count_eq_countP, List.countP_map, List.countP_eq_length_filter]
  rfl

theorem nodup_listUnder (hg : s.graph.WellFormed) (key : FlowKey) {ids : List Int}
    (hids : ids.Nodup) : (s.listUnder key ids).Nodup := by
  refine List.nodup_flatMap.mpr ⟨fun entry _ => ?_, hids.imp fun {a b} hne => ?_⟩
  · have honce := (Graph.answersFlows hg entry s.query).once
    have hall : ((s.paths entry).map (flowOf entry)).Nodup := by
      have hmap := honce.map (Prod.mk_right_injective entry)
      rwa [List.map_map] at hmap
    exact hall.sublist (List.filter_sublist.map _)
  · intro flow ha hb
    obtain ⟨p, -, rfl⟩ := List.mem_map.mp ha
    obtain ⟨p', -, heq⟩ := List.mem_map.mp hb
    exact hne (congrArg Prod.fst heq).symm

theorem encard_flowsUnder (hs : s.directories = s.graph.directories selects)
    (hg : s.graph.WellFormed) (hdistinct : s.graph.DistinctPaths selects)
    (h : s.graph.IsSampleDirectory selects node path) (key : FlowKey) :
    (s.graph.flowsUnder s.query node.id s.config.skipFunctions key).encard =
      (s.source.records path).count key := by
  obtain ⟨-, hnodup, hm⟩ := entries_ok hs hg hdistinct h
  have hrecords : s.source.records path =
      (s.source.listed path).flatMap fun entry => (s.paths entry).map keyOf :=
    List.flatMap_congr fun entry he => entryRecords_eq hg ((hm entry).mp he).hasNode
  have hset : s.graph.flowsUnder s.query node.id s.config.skipFunctions key =
      ((s.listUnder key (s.source.listed path)).toFinset : Set _) := by
    ext ⟨e, u, d, f⟩
    simp only [Graph.flowsUnder, Set.mem_ofPred_eq, List.coe_toFinset, listUnder, List.mem_flatMap,
      hm, List.mem_map, List.mem_filter, beq_iff_eq]
    constructor
    · rintro ⟨he, hflow, hkey⟩
      obtain ⟨p, hp, rfl, rfl, rfl⟩ := ((Graph.answersFlows hg e s.query).flow u d f).mpr hflow
      exact ⟨e, he, p, ⟨hp, (keyOf_eq hg hp).mpr hkey⟩, rfl⟩
    · rintro ⟨_, he, p, ⟨hp, hkey⟩, heq⟩
      cases heq
      exact ⟨he, ((Graph.answersFlows hg _ s.query).flow _ _ _).mp ⟨p, hp, rfl, rfl, rfl⟩,
        (keyOf_eq hg hp).mp hkey⟩
  rw [hset, Set.encard_coe_eq_coe_finsetCard,
    List.toFinset_card_of_nodup (nodup_listUnder hg key hnodup), hrecords, length_listUnder]

end GraphSource

end FlowTally
