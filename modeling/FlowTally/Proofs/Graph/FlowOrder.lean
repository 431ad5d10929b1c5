import FlowTally.Proofs.Graph.FlowPaths
import FlowTally.Proofs.Graph.Rearranged
import FlowTally.Proofs.Graph.Snapshot
import Mathlib.Logic.Equiv.Basic

/-!
# Flow paths of a graph with nodes and edges in another order

Parallel edges are told apart by their places, so a search for flows does see
the order of edges. `Renames` matches the places of two graphs that list the
same edges. The hops from a node are the same up to such a renaming and their
order, which makes the anchors the same and the flow paths the same up to order.

Hops are tried by their targets. When edges that differ in kind alone do not
occur, the edges tried at a node are the same one after the other, and only the
places of equal edges may be mixed up. `Renames.redirect` changes the renaming
as a search goes on, so that it takes each place to the one used in its stead;
then both searches find the same flows in the same order.
-/

namespace FlowTally

attribute [ext] Edge

namespace Graph

/-- Every place of the first graph has its edge at another place of the second one. -/
def Renames (σ : Equiv.Perm Nat) (g g' : Graph) : Prop :=
  ∀ place, g'.edges[σ place]? = g.edges[place]?

/-- Edges of the kinds a query follows differ in source or target if they differ in kind. -/
def Unmixed (g : Graph) (q : FlowQuery) : Prop :=
  ∀ edge ∈ g.edges, ∀ other ∈ g.edges, edge.kind ∈ q.kinds → other.kind ∈ q.kinds →
    edge.source = other.source → edge.target = other.target → edge.kind = other.kind

instance (g : Graph) (q : FlowQuery) : Decidable (g.Unmixed q) :=
  inferInstanceAs (Decidable (∀ edge ∈ g.edges, ∀ other ∈ g.edges, _))

/-- All questions have the same answers, the lists of flow paths up to their order, and in the same
order where no edges are mixed. -/
structure AnswersAlike (g g' : Graph) : Prop where
  directories : ∀ selects, g.directories selects = g'.directories selects
  entryPoints : ∀ directory skipped, g.entryPoints directory skipped = g'.entryPoints directory skipped
  astTypes : ∀ id, g.astTypes id = g'.astTypes id
  flowPaths : ∀ entry q,
    (g.flowPaths entry q).map Multiset.ofList = (g'.flowPaths entry q).map Multiset.ofList
  flowOrder : ∀ entry q, g.Unmixed q → g.flowPaths entry q = g'.flowPaths entry q

def Hop.move (σ : Equiv.Perm Nat) (hop : Hop) : Hop := { hop with place := σ hop.place }

def unused (g : Graph) (q : FlowQuery) (used : List Nat) (id : Int) : List Hop :=
  (g.hops q id).filter fun hop => !used.contains hop.place

variable {g g' : Graph} {q : FlowQuery} {σ : Equiv.Perm Nat} {used : List Nat} {id anchor : Int}
  {kinds : List EdgeKind} {depth left : Nat} {hop hop' : Hop}

-- ---------------------------------------------------------------------------
-- Renamed places
-- ---------------------------------------------------------------------------

def behind (σ : Equiv.Perm Nat) : Equiv.Perm Nat where
  toFun
    | 0 => 0
    | place + 1 => σ place + 1
  invFun
    | 0 => 0
    | place + 1 => σ.symm place + 1
  left_inv place := by cases place <;> simp
  right_inv place := by cases place <;> simp

theorem exists_renaming {items moved : List α} (h : items.Perm moved) :
    ∃ σ : Equiv.Perm Nat, ∀ place, moved[σ place]? = items[place]? := by
  induction h with
  | nil => exact ⟨1, fun _ => rfl⟩
  | cons x _ ih =>
    obtain ⟨σ, hσ⟩ := ih
    refine ⟨behind σ, fun place => ?_⟩
    cases place with
    | zero => rfl
    | succ place => exact hσ place
  | swap x y rest =>
    refine ⟨Equiv.swap 0 1, fun place => ?_⟩
    match place with
    | 0 => rfl
    | 1 => rfl
    | place + 2 => rw [Equiv.swap_apply_of_ne_of_ne (by omega) (by omega)]; rfl
  | trans _ _ ih ih' =>
    obtain ⟨σ, hσ⟩ := ih
    obtain ⟨τ, hτ⟩ := ih'
    exact ⟨σ.trans τ, fun place => (hτ (σ place)).trans (hσ place)⟩

theorem Hop.move_injective (σ : Equiv.Perm Nat) : Function.Injective (Hop.move σ) := by
  rintro ⟨place, edge⟩ ⟨place', edge'⟩ h
  simpa [Hop.move] using h

theorem mem_unused : hop ∈ g.unused q used id ↔ hop ∈ g.hops q id ∧ hop.place ∉ used := by
  simp [unused]

theorem nodup_hops (g : Graph) (q : FlowQuery) (id : Int) : (g.hops q id).Nodup := by
  rw [hops, (List.mergeSort_perm ..).nodup_iff]
  refine List.Nodup.filter _ (List.Nodup.map ?_ g.edges.nodup_zipIdx_map_snd.of_map)
  rintro ⟨edge, place⟩ ⟨edge', place'⟩ h
  simpa [and_comm] using h

theorem pairwise_unused (g : Graph) (q : FlowQuery) (used : List Nat) (id : Int) :
    ((g.unused q used id).map (·.edge)).Pairwise fun a b => a.target ≤ b.target :=
  List.pairwise_map.mpr ((pairwise_mergeSort_key (fun hop : Hop => hop.edge.target) _).filter _)

namespace Renames

theorem hops_perm (h : Renames σ g g') (q : FlowQuery) (id : Int) :
    (g'.hops q id).Perm ((g.hops q id).map (Hop.move σ)) := by
  refine (List.perm_ext_iff_of_nodup (nodup_hops ..)
    ((nodup_hops ..).map (Hop.move_injective σ))).mpr fun hop => ?_
  simp only [List.mem_map, mem_hops]
  constructor
  · rintro ⟨he, hs, hk⟩
    refine ⟨⟨σ.symm hop.place, hop.edge⟩, ⟨?_, hs, hk⟩, by simp [Hop.move]⟩
    rw [← h, Equiv.apply_symm_apply, he]
  · rintro ⟨hop, ⟨he, hs, hk⟩, rfl⟩
    exact ⟨(h hop.place).trans he, hs, hk⟩

theorem unused_perm (h : Renames σ g g') (q : FlowQuery) (used : List Nat) (id : Int) :
    (g'.unused q (used.map σ) id).Perm ((g.unused q used id).map (Hop.move σ)) := by
  have hused : (fun hop : Hop => !(used.map σ).contains (hop.move σ).place) =
      fun hop : Hop => !used.contains hop.place := by
    funext hop
    simp [Hop.move]
  refine ((h.hops_perm q id).filter _).trans (.of_eq ?_)
  rw [List.filter_map, unused, ← hused]
  rfl

/-- One place may be taken for another one that has the same edge, and used places stay. -/
theorem redirect (h : Renames σ g g') (hhop : hop ∈ g.unused q used id)
    (hhop' : hop' ∈ g'.unused q (used.map σ) id) (he : hop'.edge = hop.edge) :
    ∃ τ, Renames τ g g' ∧ (hop.place :: used).map τ = hop'.place :: used.map σ := by
  obtain ⟨hm, hfresh⟩ := mem_unused.mp hhop
  obtain ⟨hm', hfresh'⟩ := mem_unused.mp hhop'
  have hsame : g'.edges[σ hop.place]? = g'.edges[hop'.place]? := by
    rw [h, (mem_hops.mp hm).1, (mem_hops.mp hm').1, he]
  refine ⟨σ.trans (Equiv.swap (σ hop.place) hop'.place), fun place => ?_, ?_⟩
  · rw [← h place, Equiv.trans_apply, Equiv.swap_apply_def]
    split
    · rename_i heq
      rw [heq, hsame]
    · split
      · rename_i heq
        rw [heq, hsame]
      · rfl
  · rw [List.map_cons, Equiv.trans_apply, Equiv.swap_apply_left]
    refine congrArg _ (List.map_congr_left fun place hplace => ?_)
    refine Equiv.swap_apply_of_ne_of_ne (fun heq => ?_) fun heq => ?_
    · exact hfresh (σ.injective heq ▸ hplace)
    · exact hfresh' (heq ▸ List.mem_map_of_mem hplace)

theorem flatMap_unused_perm {search search' : Hop → List α} (h : Renames σ g g')
    (hsearch : ∀ hop, (search' (hop.move σ)).Perm (search hop)) :
    ((g'.unused q (used.map σ) id).flatMap search').Perm ((g.unused q used id).flatMap search) := by
  refine ((h.unused_perm q used id).flatMap_right search').trans ?_
  rw [List.flatMap_map]
  exact List.Perm.flatMap_left _ fun hop _ => hsearch hop

end Renames

-- ---------------------------------------------------------------------------
-- The same flows
-- ---------------------------------------------------------------------------

namespace Rearranged

section
variable (h : g.Rearranged g') (hg : g.WellFormed)
include h hg

theorem trailAnchors_perm (hσ : Renames σ g g') (used : List Nat) :
    (g'.trailAnchors q (used.map σ) id depth left).Perm (g.trailAnchors q used id depth left) := by
  induction left generalizing used id depth with
  | zero => rw [trailAnchors, trailAnchors, h.isUpstream_eq hg]
  | succ left ih =>
    rw [trailAnchors, trailAnchors, h.isUpstream_eq hg]
    exact .append_left _ (hσ.flatMap_unused_perm fun hop => ih (hop.place :: used))

theorem layerAnchors_eq (hσ : Renames σ g g') (layer : List Int) :
    g.layerAnchors q layer depth left = g'.layerAnchors q layer depth left := by
  induction left generalizing layer depth with
  | zero => rw [layerAnchors, layerAnchors, h.isUpstream_eq hg]
  | succ left ih =>
    have hnext : sortIds (layer.flatMap fun id => (g.hops q id).map (·.edge.target)) =
        sortIds (layer.flatMap fun id => (g'.hops q id).map (·.edge.target)) := by
      refine sortIds_congr fun _ => (List.Perm.flatMap_left _ fun id _ => ?_).mem_iff
      simpa [Function.comp_def, Hop.move] using ((hσ.hops_perm q id).map (·.edge.target)).symm
    rw [layerAnchors_succ, layerAnchors_succ, h.isUpstream_eq hg, hnext, ih]

theorem upstreamAnchors_eq (hσ : Renames σ g g') (entry : Int) :
    g.upstreamAnchors q entry = g'.upstreamAnchors q entry := by
  rw [upstreamAnchors, upstreamAnchors, h.layerAnchors_eq hg hσ]
  refine sortIds_congr fun _ => ?_
  split
  · rfl
  · exact (h.trailAnchors_perm hg hσ []).mem_iff.symm

theorem trailFlows_perm (hσ : Renames σ g g') (used : List Nat) :
    (g'.trailFlows q anchor (used.map σ) kinds id left).Perm
      (g.trailFlows q anchor used kinds id left) := by
  induction left generalizing used kinds id with
  | zero => rfl
  | succ left ih =>
    rw [trailFlows, trailFlows, h.hasLabel_eq hg]
    exact hσ.flatMap_unused_perm fun hop => .append_left _ (ih (hop.place :: used))

theorem downstreamFlows_perm (hσ : Renames σ g g') (anchor : Int) :
    (g.downstreamFlows q anchor).Perm (g'.downstreamFlows q anchor) := by
  refine (List.perm_ext_iff_of_nodup (nodup_eraseDups _) (nodup_eraseDups _)).mpr fun flow => ?_
  rw [List.mem_eraseDups, List.mem_eraseDups]
  exact (h.trailFlows_perm hg hσ []).mem_iff.symm

theorem anchorPaths_perm (hσ : Renames σ g g') (source : Int) :
    (g.anchorPaths q source).Perm (g'.anchorPaths q source) := by
  simp only [anchorPaths, h.subtreeTypes_eq hg]
  split
  · rfl
  · exact (h.downstreamFlows_perm hg hσ source).filterMap _

theorem flowPaths_perm (entry : Int) (q : FlowQuery) :
    (g.flowPaths entry q).map Multiset.ofList = (g'.flowPaths entry q).map Multiset.ofList := by
  obtain ⟨σ, hσ⟩ := exists_renaming h.edges
  rw [flowPaths_eq, flowPaths_eq, h.hasNode_eq]
  split
  · refine congrArg Except.ok (Multiset.coe_eq_coe.mpr ?_)
    rw [h.upstreamAnchors_eq hg hσ]
    exact List.Perm.flatMap_left _ fun source _ => h.anchorPaths_perm hg hσ source
  · rfl

end

-- ---------------------------------------------------------------------------
-- The same order
-- ---------------------------------------------------------------------------

/-- Sources are listed by id, so only the flows of each source can show an order. -/
theorem flowPaths_eq_of_downstreamFlows (h : g.Rearranged g') (hg : g.WellFormed)
    (hflows : ∀ source, g.downstreamFlows q source = g'.downstreamFlows q source) (entry : Int) :
    g.flowPaths entry q = g'.flowPaths entry q := by
  obtain ⟨σ, hσ⟩ := exists_renaming h.edges
  have hpaths : g.anchorPaths q = g'.anchorPaths q := by
    funext source
    simp only [anchorPaths, h.subtreeTypes_eq hg, hflows]
  rw [flowPaths_eq, flowPaths_eq, h.hasNode_eq, h.upstreamAnchors_eq hg hσ, hpaths]

/-- What a search does with the edge of a hop, it does with an equal one in its stead. -/
theorem flatMap_eq_of_edges {hops hops' : List Hop} {search search' : Hop → List α}
    (hedges : hops'.map (·.edge) = hops.map (·.edge))
    (hsearch : ∀ hop ∈ hops, ∀ hop' ∈ hops', hop'.edge = hop.edge → search' hop' = search hop) :
    hops'.flatMap search' = hops.flatMap search := by
  induction hops generalizing hops' with
  | nil => rw [List.map_eq_nil_iff.mp hedges]; rfl
  | cons hop rest ih =>
    obtain ⟨hop', rest', rfl, he, hrest⟩ := List.map_eq_cons_iff.mp hedges
    rw [List.flatMap_cons, List.flatMap_cons, hsearch hop (by simp) hop' (by simp) he, ih hrest]
    intro a ha a' ha'
    exact hsearch a (List.mem_cons_of_mem _ ha) a' (List.mem_cons_of_mem _ ha')

/-- Without mixed edges the same edges are left to be tried, in the same order. -/
theorem unused_edges_eq (h : g.Rearranged g') (hσ : Renames σ g g') (hq : g.Unmixed q) :
    (g'.unused q (used.map σ) id).map (·.edge) = (g.unused q used id).map (·.edge) := by
  have hties : ∀ a b, a ∈ (g'.unused q (used.map σ) id).map (·.edge) →
      b ∈ (g.unused q used id).map (·.edge) → a.target ≤ b.target → b.target ≤ a.target → a = b := by
    intro a b ha hb hle hge
    obtain ⟨hop', hhop', rfl⟩ := List.mem_map.mp ha
    obtain ⟨hop, hhop, rfl⟩ := List.mem_map.mp hb
    obtain ⟨he', hs', hk'⟩ := mem_hops.mp (mem_unused.mp hhop').1
    obtain ⟨he, hs, hk⟩ := mem_hops.mp (mem_unused.mp hhop).1
    have hsource : hop'.edge.source = hop.edge.source := hs'.trans hs.symm
    have htarget : hop'.edge.target = hop.edge.target := Int.le_antisymm hle hge
    have hm' : hop'.edge ∈ g.edges := h.edges.mem_iff.mpr (List.mem_of_getElem? he')
    exact Edge.ext hsource htarget (hq _ hm' _ (List.mem_of_getElem? he) hk' hk hsource htarget)
  refine List.Perm.eq_of_pairwise hties (pairwise_unused ..) (pairwise_unused ..) ?_
  simpa [Function.comp_def, Hop.move] using (hσ.unused_perm q used id).map (·.edge)

section
variable (h : g.Rearranged g') (hg : g.WellFormed)
include h hg

theorem trailFlows_eq (hσ : Renames σ g g') (hq : g.Unmixed q) (used : List Nat) :
    g'.trailFlows q anchor (used.map σ) kinds id left = g.trailFlows q anchor used kinds id left := by
  induction left generalizing σ used kinds id with
  | zero => rfl
  | succ left ih =>
    rw [trailFlows, trailFlows, h.hasLabel_eq hg]
    refine flatMap_eq_of_edges (h.unused_edges_eq hσ hq) fun hop hhop hop' hhop' he => ?_
    obtain ⟨τ, hτ, hused⟩ := hσ.redirect hhop hhop' he
    simp only [he, ← hused, ih hτ]

theorem flowPaths_eq_of_unmixed (entry : Int) (hq : g.Unmixed q) :
    g.flowPaths entry q = g'.flowPaths entry q := by
  obtain ⟨σ, hσ⟩ := exists_renaming h.edges
  refine h.flowPaths_eq_of_downstreamFlows hg (fun source => ?_) entry
  exact congrArg List.eraseDups (h.trailFlows_eq hg hσ hq []).symm

theorem answersAlike : g.AnswersAlike g' where
  directories := h.directories_eq
  entryPoints := h.entryPoints_eq hg
  astTypes := h.astTypes_eq hg
  flowPaths := h.flowPaths_perm hg
  flowOrder entry _ hq := h.flowPaths_eq_of_unmixed hg entry hq

end

end Rearranged

-- ---------------------------------------------------------------------------
-- Snapshots
-- ---------------------------------------------------------------------------

/-- A snapshot that lists the nodes and edges of an accepted one in another order is accepted, and
the two graphs answer alike. -/
theorem ofSnapshot_rearranged {s s' : Snapshot} (h : ofSnapshot s = .ok g)
    (hnodes : s.nodes.Perm s'.nodes) (hedges : s.edges.Perm s'.edges) :
    ∃ g', ofSnapshot s' = .ok g' ∧ g.AnswersAlike g' := by
  have hg : g.WellFormed := (built_of_ofSnapshot h).wellFormed
  obtain ⟨hfits, rfl⟩ := ofSnapshot_ok.mp h
  have hfits' : s'.Fits :=
    hfits.congr hnodes fun edge he => ⟨edge, hedges.mem_iff.mpr he, rfl, rfl⟩
  have hmoved : Rearranged ⟨s.nodes, s.edges⟩ ⟨s'.nodes, s'.edges⟩ := ⟨hnodes, hedges⟩
  exact ⟨_, ofSnapshot_ok.mpr ⟨hfits', rfl⟩, hmoved.answersAlike hg⟩

theorem ofSnapshot_rearranged_cycleGraph :
    cycleGraph.Unmixed {} ∧ ∃ g',
      ofSnapshot ⟨cycleGraph.nodes.reverse, cycleGraph.edges.reverse⟩ = .ok g' ∧
        cycleGraph.AnswersAlike g' :=
  ⟨by decide, ofSnapshot_rearranged (s := ⟨cycleGraph.nodes, cycleGraph.edges⟩) rfl
    (List.reverse_perm _).symm (List.reverse_perm _).symm⟩

def joinedGraph (kinds : List EdgeKind) : Graph :=
  { cycleGraph with edges := kinds.map (⟨2, 3, ·⟩) ++ cycleGraph.edges.drop 4 }

-- Edges that differ in kind alone show their order.
example (kinds : List EdgeKind) (h : kinds = [.reaches, .flowsTo] ∨ kinds = [.flowsTo, .reaches]) :
    ((joinedGraph kinds).flowPaths 2 {}).map (fun paths => paths.flatMap (·.kinds)) = .ok kinds := by
  rcases h with rfl | rfl <;> cbv

end Graph

end FlowTally
