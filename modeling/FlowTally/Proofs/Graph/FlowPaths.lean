import FlowTally.Proofs.Graph.Subtree
import FlowTally.Proofs.Graph.Trails
import Mathlib

/-!
# What a flow query answers

`flowPaths_answers`: a query at an entry that is no node fails, and every other
query answers one path for each triple of a source, a sink and kinds that the
trails of the graph realise. The triples are described by `IsFlow`, without any
search. Nothing is asked of the query, so a range may be empty or start at zero.
-/

namespace FlowTally.Graph

/-- A node of the graph carries the label. -/
def Carries (g : Graph) (label : String) (id : Int) : Prop :=
  ∃ node ∈ g.nodes, node.id = id ∧ label ∈ node.labels

/-- A trail of a length in the range leads from the entry to the labelled node. -/
def IsSource (g : Graph) (q : FlowQuery) (entry u : Int) : Prop :=
  g.Carries q.upstreamLabel u ∧ ∃ hops, g.Trail q.kinds entry hops u ∧
    q.upstream.min ≤ hops.length ∧ hops.length ≤ q.upstream.max

/-- A trail of these kinds and of a length in the range leads to another, labelled node. -/
def IsSink (g : Graph) (q : FlowQuery) (u d : Int) (f : List EdgeKind) : Prop :=
  d ≠ u ∧ g.Carries q.downstreamLabel d ∧ ∃ hops, g.Trail q.kinds u hops d ∧
    hops.map (·.edge.kind) = f ∧ q.downstream.min ≤ hops.length ∧ hops.length ≤ q.downstream.max

/-- The triple is a flow: source and sink are found as asked for, and each has a syntax tree
below it. -/
structure IsFlow (g : Graph) (q : FlowQuery) (entry u d : Int) (f : List EdgeKind) : Prop where
  source : g.IsSource q entry u
  sink : g.IsSink q u d f
  sourceTree : ∃ below, g.IsDescendant u below
  sinkTree : ∃ below, g.IsDescendant d below

/-- The paths are the flows of an entry, each once, by source, with the types below both ends. -/
structure AnswersFlows (g : Graph) (q : FlowQuery) (entry : Int) (paths : List FlowPath) : Prop where
  flow : ∀ u d f,
    (∃ path ∈ paths, path.source = u ∧ path.sink = d ∧ path.kinds = f) ↔ g.IsFlow q entry u d f
  once : (paths.map fun path => (path.source, path.sink, path.kinds)).Nodup
  ascending : (paths.map (·.source)).Pairwise (· ≤ ·)
  sourceTypes : ∀ path ∈ paths, g.IsSubtreeTypes path.source path.sourceTypes
  sinkTypes : ∀ path ∈ paths, g.IsSubtreeTypes path.sink path.sinkTypes

variable {g : Graph} {q : FlowQuery} {u d id entry : Int} {f : List EdgeKind} {path : FlowPath}

theorem hasLabel_iff (hg : g.WellFormed) : g.hasLabel label id = true ↔ g.Carries label id := by
  simp only [hasLabel, Option.any_eq_true_iff_get, Node.hasLabel, List.contains_iff_mem]
  constructor
  · rintro ⟨hs, hl⟩
    obtain ⟨hm, hid⟩ := (node?_eq_some hg).mp (Option.some_get hs).symm
    exact ⟨_, hm, hid, hl⟩
  · rintro ⟨node, hm, rfl, hl⟩
    have hn := (node?_eq_some hg).mpr ⟨hm, rfl⟩
    exact ⟨by simp [hn], by simpa [hn] using hl⟩

-- ---------------------------------------------------------------------------
-- Anchors
-- ---------------------------------------------------------------------------

theorem mem_upstreamAnchors (hg : g.WellFormed) :
    u ∈ g.upstreamAnchors q entry ↔ g.IsSource q entry u := by
  rw [mem_upstreamAnchors_trail, mem_trailAnchors_entry, hasLabel_iff hg, IsSource]

theorem mem_downstreamFlows (hg : g.WellFormed) :
    (d, f) ∈ g.downstreamFlows q u ↔ g.IsSink q u d f := by
  simp only [downstreamFlows, List.mem_eraseDups, mem_trailFlows, List.nil_append,
    ← trail_iff_continues, EndsFlow, range_contains, hasLabel_iff hg]
  constructor
  · rintro ⟨hop, hops, ht, -, rfl, ⟨hmin, hmax⟩, hne, hl⟩
    rw [List.length_map] at hmin hmax
    exact ⟨hne, hl, hop :: hops, ht, rfl, hmin, hmax⟩
  · rintro ⟨hne, hl, _ | ⟨hop, hops⟩, ht, rfl, hmin, hmax⟩
    · exact absurd (walk_nil.mp ht.walk).symm hne
    · exact ⟨hop, hops, ht, hmax, rfl, by simpa using ⟨hmin, hmax⟩, hne, hl⟩

-- ---------------------------------------------------------------------------
-- Paths
-- ---------------------------------------------------------------------------

theorem mem_anchorPaths :
    path ∈ g.anchorPaths q u ↔
      path.source = u ∧ (path.sink, path.kinds) ∈ g.downstreamFlows q u ∧
        (g.subtreeTypes u).isEmpty = false ∧ (g.subtreeTypes path.sink).isEmpty = false ∧
        path.sourceTypes = g.subtreeTypes u ∧ path.sinkTypes = g.subtreeTypes path.sink := by
  obtain ⟨source, sink, sourceTypes, kinds, sinkTypes⟩ := path
  cases hu : (g.subtreeTypes u).isEmpty with
  | true => simp [anchorPaths, hu]
  | false =>
    simp only [anchorPaths, hu, Bool.false_eq_true, if_false, List.mem_filterMap, Prod.exists,
      Option.ite_none_left_eq_some, Option.some.injEq, FlowPath.mk.injEq, true_and]
    constructor
    · rintro ⟨d, f, hm, hd, rfl, rfl, rfl, rfl, rfl⟩
      exact ⟨rfl, hm, by simpa using hd, rfl, rfl⟩
    · rintro ⟨rfl, hm, hd, rfl, rfl⟩
      exact ⟨sink, kinds, hm, by simpa using hd, rfl, rfl, rfl, rfl, rfl⟩

theorem nodup_eraseDups [BEq α] [LawfulBEq α] (xs : List α) : xs.eraseDups.Nodup := by
  induction hn : xs.length using Nat.strongRecOn generalizing xs with
  | ind n ih =>
    cases xs with
    | nil => simp
    | cons x xs =>
      rw [List.eraseDups_cons, List.nodup_cons]
      have hlt : (xs.filter fun y => !y == x).length < n := by
        rw [← hn]
        exact Nat.lt_succ_of_le (List.length_filter_le ..)
      exact ⟨by simp, ih _ hlt _ rfl⟩

/-- The paths of one source differ in sink or kinds. -/
theorem nodup_anchorPaths (u : Int) :
    ((g.anchorPaths q u).map fun path => (path.source, path.sink, path.kinds)).Nodup := by
  simp only [anchorPaths]
  split
  · simp
  · rw [List.map_filterMap]
    refine List.Nodup.filterMap ?_ (nodup_eraseDups _)
    rintro ⟨d, f⟩ ⟨d', f'⟩ triple h h'
    simp only [Option.map_eq_some_iff, Option.mem_def, Option.ite_none_left_eq_some,
      Option.some.injEq] at h h'
    obtain ⟨_, ⟨-, rfl⟩, rfl⟩ := h
    obtain ⟨_, ⟨-, rfl⟩, h'⟩ := h'
    simp only [Prod.mk.injEq] at h'
    simp [h'.2.1, h'.2.2]

theorem flowPaths_eq :
    g.flowPaths entry q =
      if g.hasNode entry then .ok ((g.upstreamAnchors q entry).flatMap (g.anchorPaths q))
      else .error (.nodeNotFound entry) := by
  unfold flowPaths require
  split <;> rfl

theorem answersFlows (hg : g.WellFormed) (entry : Int) (q : FlowQuery) :
    g.AnswersFlows q entry ((g.upstreamAnchors q entry).flatMap (g.anchorPaths q)) := by
  have hanchors : (g.upstreamAnchors q entry).Pairwise (· < ·) := pairwise_sortIds _
  have hsource {u : Int} {path : FlowPath} (h : path ∈ g.anchorPaths q u) : path.source = u :=
    (mem_anchorPaths.mp h).1
  refine ⟨fun u d f => ?_, ?_, ?_, fun path hp => ?_, fun path hp => ?_⟩
  · simp only [List.mem_flatMap, mem_anchorPaths, mem_upstreamAnchors hg, mem_downstreamFlows hg,
      subtreeTypes_isEmpty hg]
    constructor
    · rintro ⟨path, ⟨_, hu, rfl, hd, hut, hdt, -, -⟩, rfl, rfl, rfl⟩
      exact ⟨hu, hd, hut, hdt⟩
    · rintro ⟨hu, hd, hut, hdt⟩
      exact ⟨⟨u, d, g.subtreeTypes u, f, g.subtreeTypes d⟩, ⟨u, hu, rfl, hd, hut, hdt, rfl, rfl⟩,
        rfl, rfl, rfl⟩
  · rw [List.map_flatMap, List.nodup_flatMap]
    refine ⟨fun u _ => nodup_anchorPaths u, hanchors.imp fun {u v} hlt => ?_⟩
    rintro _ hm hm'
    obtain ⟨path, hp, rfl⟩ := List.mem_map.mp hm
    obtain ⟨other, ho, heq⟩ := List.mem_map.mp hm'
    have hsame : other.source = path.source := congrArg Prod.fst heq
    rw [hsource ho, hsource hp] at hsame
    omega
  · rw [List.map_flatMap, List.pairwise_flatMap]
    constructor
    · intro u _
      refine List.pairwise_map.mpr (List.pairwise_of_forall_mem_list fun p hp o ho => ?_)
      exact Int.le_of_eq ((hsource hp).trans (hsource ho).symm)
    · refine hanchors.imp fun {u v} hlt x hx y hy => ?_
      obtain ⟨p, hp, rfl⟩ := List.mem_map.mp hx
      obtain ⟨o, ho, rfl⟩ := List.mem_map.mp hy
      rw [hsource hp, hsource ho]
      omega
  · obtain ⟨u, -, hp⟩ := List.mem_flatMap.mp hp
    obtain ⟨rfl, -, -, -, htypes, -⟩ := mem_anchorPaths.mp hp
    exact htypes ▸ subtreeTypes_spec hg _
  · obtain ⟨u, -, hp⟩ := List.mem_flatMap.mp hp
    obtain ⟨-, -, -, -, -, htypes⟩ := mem_anchorPaths.mp hp
    exact htypes ▸ subtreeTypes_spec hg _

/-- A query fails at what is no node, and answers the flows of every node. -/
theorem flowPaths_answers (hg : g.Built) (entry : Int) (q : FlowQuery) :
    ((∃ e, g.flowPaths entry q = .error e) ↔ ∀ node ∈ g.nodes, node.id ≠ entry) ∧
      ∀ paths, g.flowPaths entry q = .ok paths → g.AnswersFlows q entry paths := by
  rw [flowPaths_eq]
  cases hn : g.hasNode entry with
  | true =>
    obtain ⟨node, hm, hid⟩ := List.mem_map.mp (hasNode_iff.mp hn)
    refine ⟨⟨by simp, fun h => absurd hid (h node hm)⟩, fun paths hp => ?_⟩
    obtain rfl : _ = paths := Except.ok.inj hp
    exact answersFlows hg.wellFormed entry q
  | false =>
    refine ⟨⟨fun _ node hm hid => ?_, fun _ => ⟨_, rfl⟩⟩, by simp⟩
    rw [hasNode_iff.mpr (List.mem_map.mpr ⟨node, hm, hid⟩)] at hn
    cases hn

def cycleGraph : Graph where
  nodes := [{ id := 1, type := "CFGEntryNode" },
    { id := 2, type := "Condition", labels := ["UpstreamNode"] },
    { id := 3, type := "ReturnStatement", labels := ["DownstreamNode"] },
    { id := 20, type := "RelationalExpression" }, { id := 30, type := "Identifier" }]
  edges := [⟨1, 2, .flowsTo⟩, ⟨2, 1, .flowsTo⟩, ⟨2, 3, .reaches⟩, ⟨2, 3, .reaches⟩,
    ⟨2, 20, .isAstParent⟩, ⟨3, 30, .isAstParent⟩]

theorem flowPaths_answers_cycleGraph :
    cycleGraph.Built ∧ ∃ paths, cycleGraph.flowPaths 1 {} = .ok paths ∧
      paths.map (·.kinds) = [[.flowsTo, .flowsTo, .reaches], [.reaches]] ∧
      cycleGraph.AnswersFlows {} 1 paths := by
  have hb : cycleGraph.Built := built_of_ofSnapshot (s := ⟨cycleGraph.nodes, cycleGraph.edges⟩) rfl
  have hk : (cycleGraph.flowPaths 1 {}).map (fun paths => paths.map (·.kinds)) =
      .ok [[.flowsTo, .flowsTo, .reaches], [.reaches]] := by cbv
  cases hp : cycleGraph.flowPaths 1 {} with
  | error e => simp [hp, Except.map] at hk
  | ok paths => exact ⟨hb, paths, rfl, by simpa [hp, Except.map] using hk,
      (flowPaths_answers hb 1 {}).2 paths hp⟩

end FlowTally.Graph
