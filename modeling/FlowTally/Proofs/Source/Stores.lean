import FlowTally.Proofs.Graph.File
import FlowTally.Proofs.Graph.Reordered
import FlowTally.Proofs.Graph.Store
import FlowTally.Run.Basic
import FlowTally.Source.FromGraph

/-!
# Sources of one graph from different stores

An export keeps the nodes of a snapshot in their order, a database by their
ids. The graphs that are loaded from the two are the same up to that order, so
the sources over them answer alike and no run can tell them apart
(`stores_agree`).
-/

namespace FlowTally

variable {s : Snapshot} {g g' : Graph} {files exported opened : FileTree} {path : String}
  {store : Store} {config : SampleConfig} {traversal : TraversalConfig}

-- ---------------------------------------------------------------------------
-- Graphs from stores
-- ---------------------------------------------------------------------------

theorem Snapshot.Fits.bounded (h : s.Fits) (hids : ∀ node ∈ s.nodes, IsId node.id) : s.Bounded := by
  have hend : ∀ id ∈ s.nodes.map (·.id), IsId id := List.forall_mem_map.mpr hids
  exact ⟨hids, fun edge he => hend _ (h.source edge he), fun edge he => hend _ (h.target edge he)⟩

theorem Graph.load_save (h : Snapshot.save files path s = .ok exported) (hfits : s.Fits)
    (hids : ∀ node ∈ s.nodes, IsId node.id)
    (hstorable : s.Storable (Json.maxDepth - propertyLevel)) :
    Graph.load exported path = .ok ⟨s.reread.nodes, s.reread.edges⟩ := by
  rw [Graph.load, Snapshot.load_save h (hfits.bounded hids) hstorable]
  exact Graph.ofSnapshot_ok.mpr ⟨hfits.reread, rfl⟩

theorem reordered_byId (s : Snapshot) :
    Graph.Reordered ⟨s.reread.nodes, s.reread.edges⟩ ⟨s.byId.nodes, s.byId.edges⟩ :=
  ⟨(List.mergeSort_perm ..).symm, rfl⟩

-- ---------------------------------------------------------------------------
-- Sources
-- ---------------------------------------------------------------------------

namespace GraphSource

def onGraph (g : Graph) (config : SampleConfig) (traversal : TraversalConfig) (pattern : PathPattern) :
    GraphSource :=
  ⟨g, config, traversal.query, g.directories pattern.selects⟩

theorem load_of_graph (h : Graph.load files path = .ok g) (config : SampleConfig)
    (traversal : TraversalConfig) :
    load files path config traversal =
      (config.pattern.map (onGraph g config traversal)).mapError unusable := by
  rw [load, h]
  rfl

theorem loadDatabase_of_graph
    (h : (Store.openExisting files path).bind (Store.loadGraph files) = .ok g) (config : SampleConfig)
    (traversal : TraversalConfig) :
    loadDatabase files path config traversal =
      (config.pattern.map (onGraph g config traversal)).mapError unusable := by
  simp only [loadDatabase, h]
  rfl

/-- No question can tell whether the nodes stand in another order. -/
theorem source_onGraph_eq (h : g.Reordered g') (hg : g.WellFormed) (config : SampleConfig)
    (traversal : TraversalConfig) (pattern : PathPattern) :
    (onGraph g config traversal pattern).source = (onGraph g' config traversal pattern).source := by
  have hentries : (onGraph g config traversal pattern).entries =
      (onGraph g' config traversal pattern).entries := by
    funext path
    simp only [entries, directory?, onGraph, h.rearranged.directories_eq, h.rearranged.entryPoints_eq hg]
  have hflows : (onGraph g config traversal pattern).flows = (onGraph g' config traversal pattern).flows := by
    funext entry
    simp only [flows, onGraph, h.flowPaths_eq hg]
  rw [source, source, hentries, hflows]
  simp only [infos, onGraph, h.rearranged.directories_eq]

theorem indexed_onGraph_eq (h : g.Reordered g') (config : SampleConfig) (traversal : TraversalConfig)
    (pattern : PathPattern) :
    (onGraph g config traversal pattern).indexed = (onGraph g' config traversal pattern).indexed := by
  simp only [indexed, onGraph, h.rearranged.directories_eq]

/-- An accepted snapshot that is exported to one file and saved in a store of another: a pattern that
is refused is refused over both, and with any other the two sources give the same answers, so that a
run over them ends alike. -/
theorem stores_agree {exportFiles storeFiles : FileTree} {exportPath storePath : String}
    (haccepted : Graph.ofSnapshot s = .ok g) (hids : ∀ node ∈ s.nodes, IsId node.id)
    (hstorable : s.Storable (Json.maxDepth - propertyLevel))
    (hexport : Snapshot.save exportFiles exportPath s = .ok exported)
    (hopen : Store.openFile storeFiles storePath = .ok (store, opened)) :
    ∃ saved stored, store.save opened s = .ok (saved, stored) ∧
      ∀ (config : SampleConfig) (traversal : TraversalConfig),
        (∀ e, config.pattern = .error e →
          load exported exportPath config traversal = .error (unusable e) ∧
          loadDatabase stored storePath config traversal = .error (unusable e)) ∧
        ∀ pattern, config.pattern = .ok pattern → ∃ a b,
          load exported exportPath config traversal = .ok a ∧
          loadDatabase stored storePath config traversal = .ok b ∧
          a.source.samples = b.source.samples ∧
          (∀ sample, a.source.entries sample = b.source.entries sample) ∧
          (∀ entry, a.source.flows entry = b.source.flows entry) ∧
          a.indexed = b.indexed ∧
          ∀ (run : Run) (raised : List Sample → Bool),
            Run.extract { run with source := a.source } raised =
              Run.extract { run with source := b.source } raised := by
  obtain ⟨hfits, -⟩ := Graph.ofSnapshot_ok.mp haccepted
  have hgraph := Graph.load_save hexport hfits hids hstorable
  obtain ⟨files, db, hnow, hholds, -⟩ := Store.openFile_ok hopen
  cases hnow
  obtain ⟨stored, hsave, hstored⟩ := hholds.saveFile rfl hfits
  have hdepth : s.Storable Json.maxDepth := fun node hn => (hstorable node hn).mono (Nat.sub_le _ _)
  have hdatabase : (Store.openExisting stored storePath).bind (Store.loadGraph stored) =
      .ok ⟨s.byId.nodes, s.byId.edges⟩ := by
    rw [hstored.openExisting]
    exact Store.loadGraph_of_database hstored.database hdepth hfits
  refine ⟨_, stored, hsave, fun config traversal => ⟨fun e he => ?_, fun pattern hpattern => ?_⟩⟩
  · rw [load_of_graph hgraph, loadDatabase_of_graph hdatabase, he]
    exact ⟨rfl, rfl⟩
  · have hreordered := reordered_byId s
    have hwell : Graph.WellFormed ⟨s.reread.nodes, s.reread.edges⟩ :=
      (Graph.built_of_ofSnapshot (Graph.ofSnapshot_ok.mpr ⟨hfits.reread, rfl⟩)).wellFormed
    have hsource := source_onGraph_eq hreordered hwell config traversal pattern
    refine ⟨onGraph ⟨s.reread.nodes, s.reread.edges⟩ config traversal pattern,
      onGraph ⟨s.byId.nodes, s.byId.edges⟩ config traversal pattern, ?_, ?_, ?_, fun sample => ?_,
      fun entry => ?_, indexed_onGraph_eq hreordered config traversal pattern, fun run raised => ?_⟩
    · rw [load_of_graph hgraph, hpattern]
      rfl
    · rw [loadDatabase_of_graph hdatabase, hpattern]
      rfl
    · rw [hsource]
    · rw [hsource]
    · rw [hsource]
    · rw [hsource]

def scatteredGraph : Snapshot :=
  ⟨[⟨6, "ReturnStatement", ["DownstreamNode"], []⟩, ⟨8, "Literal", [], []⟩,
      ⟨4, "CFGEntryNode", [], []⟩, ⟨7, "Identifier", [], []⟩, ⟨2, "File", [], []⟩,
      ⟨5, "Condition", ["UpstreamNode"], [("line", .int 3)]⟩, ⟨3, "Function", [], []⟩,
      ⟨1, "Directory", [], [("filepath", .str "a/b/c/good/s__1")]⟩],
    [⟨1, 2, .isParentDirOf⟩, ⟨2, 3, .isFileOf⟩, ⟨3, 4, .isFunctionOfCfg⟩, ⟨4, 5, .flowsTo⟩,
      ⟨5, 6, .other "REACHES"⟩, ⟨5, 7, .isAstParent⟩, ⟨6, 8, .isAstParent⟩]⟩

theorem stores_agree_scatteredGraph :
    ∃ exported store opened saved stored a b,
      Snapshot.save {} "g.json" scatteredGraph = .ok exported ∧
      Store.openFile {} "g.db" = .ok (store, opened) ∧
      store.save opened scatteredGraph = .ok (saved, stored) ∧
      load exported "g.json" {} {} = .ok a ∧ loadDatabase stored "g.db" {} {} = .ok b ∧
      a.source.samples = b.source.samples ∧
      a.source.entries "a/b/c/good/s__1" = b.source.entries "a/b/c/good/s__1" ∧
      a.source.flows 4 = b.source.flows 4 := by
  have haccepted : Graph.ofSnapshot scatteredGraph = .ok ⟨scatteredGraph.nodes, scatteredGraph.edges⟩ :=
    Graph.ofSnapshot_ok.mpr ⟨by decide, rfl⟩
  have hids : ∀ node ∈ scatteredGraph.nodes, IsId node.id := by
    simp [scatteredGraph, IsId]
  have hstorable : scatteredGraph.Storable (Json.maxDepth - propertyLevel) := by
    simp [scatteredGraph, Snapshot.Storable, Json.Storable, Json.StorableFields, Json.Ascending,
      Json.maxDepth, propertyLevel, Json.IsWhole]
  have hexport : Snapshot.save {} "g.json" scatteredGraph =
      .ok ⟨[(["g.json"], .file (.ofString scatteredGraph.write))]⟩ := rfl
  have hopen : Store.openFile {} "g.db" =
      .ok (.file "g.db" false, ⟨[(["g.db"], .database .empty)]⟩) := rfl
  have hpattern : (({} : SampleConfig).pattern).toOption.isSome = true := by decide +kernel
  cases hok : ({} : SampleConfig).pattern with
  | error e => simp [hok, Except.toOption] at hpattern
  | ok pattern =>
    obtain ⟨saved, stored, hsave, hloads⟩ := stores_agree haccepted hids hstorable hexport hopen
    obtain ⟨a, b, ha, hb, hsamples, hentries, hflows, -⟩ := (hloads {} {}).2 pattern hok
    exact ⟨_, _, _, saved, stored, a, b, hexport, hopen, hsave, ha, hb, hsamples, hentries _, hflows _⟩

end GraphSource

end FlowTally
