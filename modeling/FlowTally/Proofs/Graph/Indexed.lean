import FlowTally.Proofs.Graph.Calls
import FlowTally.Proofs.Graph.NormalForm
import Mathlib.Data.List.AList

/-!
# Graphs by position

An `IndexedGraph` keeps its nodes by position, edges between positions, and the
position of every id apart from them, as a graph that looks nothing up by search
does. The three stay in step under calls of either outcome
(`Mirrors.answer`), so what can be asked of it has the same answers: counts,
look-ups, and the snapshot, for which positions become ids again.
`snapshots_and_calls` says what these answers are.
-/

namespace FlowTally

structure Link where
  source : Nat
  target : Nat
  kind : EdgeKind

structure IndexedGraph where
  nodes : List Node := []
  links : List Link := []
  positions : AList fun _ : Int => Nat := ∅

namespace IndexedGraph

open FlowTally.Graph (Call)

def addNode (x : IndexedGraph) (node : Node) : Except StoreError Nat × IndexedGraph :=
  match x.positions.lookup node.id with
  | some _ => (.error (.invalidGraph s!"duplicate node id {node.id}"), x)
  | none =>
    let position := x.nodes.length
    (.ok position,
      { x with nodes := x.nodes ++ [node], positions := x.positions.insert node.id position })

def addEdge (x : IndexedGraph) (edge : Edge) : Except StoreError Unit × IndexedGraph :=
  match x.positions.lookup edge.source, x.positions.lookup edge.target with
  | some source, some target => (.ok (), { x with links := x.links ++ [⟨source, target, edge.kind⟩] })
  | _, _ =>
    (.error (.invalidGraph
      s!"edge {edge.source} -[{edge.kind.name}]-> {edge.target} references an unknown node"), x)

def answer (x : IndexedGraph) : Call → Except StoreError Unit × IndexedGraph
  | .addNode node => ((x.addNode node).1.map fun _ => (), (x.addNode node).2)
  | .addEdge edge => x.addEdge edge

def run (calls : List Call) : IndexedGraph := calls.foldl (fun x call => (x.answer call).2) {}

def enter (x : IndexedGraph) : List Call → Except StoreError IndexedGraph
  | [] => .ok x
  | call :: rest =>
    match x.answer call with
    | (.ok _, next) => next.enter rest
    | (.error e, _) => .error e

def ofSnapshot (s : Snapshot) : Except StoreError IndexedGraph := enter {} (Graph.callsOf s)

def node? (x : IndexedGraph) (id : Int) : Option Node := (x.positions.lookup id).bind (x.nodes[·]?)

def edge? (x : IndexedGraph) (link : Link) : Option Edge :=
  match x.nodes[link.source]?, x.nodes[link.target]? with
  | some source, some target => some ⟨source.id, target.id, link.kind⟩
  | _, _ => none

/-- Nodes by id and edges by source, target and kind, if every link has nodes at its ends. -/
def snapshot? (x : IndexedGraph) : Option Snapshot :=
  (x.links.mapM x.edge?).map fun edges => Graph.snapshot ⟨x.nodes, edges⟩

structure Mirrors (x : IndexedGraph) (g : Graph) : Prop where
  nodes : x.nodes = g.nodes
  positions : ∀ id, x.positions.lookup id = g.nodes.findIdx? fun node => node.id == id
  edges : x.links.map x.edge? = g.edges.map some

/-- What a call does to a graph it does to the indexed graph; a refused one leaves that as it is. -/
inductive InStep (x : IndexedGraph) : Except StoreError Graph → Except StoreError α × IndexedGraph → Prop
  | ok (a : α) : next'.Mirrors next → InStep x (.ok next) (.ok a, next')
  | error (e : StoreError) : InStep x (.error e) (.error e, x)

variable {x : IndexedGraph} {g : Graph} {node : Node} {edge : Edge} {link : Link} {id : Int}
  {position : Nat} {calls : List Call} {outcome : Except StoreError Graph}

theorem mirrors_empty : Mirrors {} {} := ⟨rfl, fun _ => rfl, rfl⟩

-- ---------------------------------------------------------------------------
-- Steps
-- ---------------------------------------------------------------------------

theorem InStep.map {outcome' : Except StoreError α × IndexedGraph} (f : α → β)
    (h : InStep x outcome outcome') : InStep x outcome (outcome'.1.map f, outcome'.2) := by
  cases h with
  | ok a hnext => exact .ok (f a) hnext
  | error e => exact .error e

theorem InStep.fst_eq {outcome' : Except StoreError Unit × IndexedGraph}
    (h : InStep x outcome outcome') : outcome'.1 = outcome.map fun _ => () := by
  cases h with
  | ok _ _ => rfl
  | error _ => rfl

theorem InStep.refused {e : StoreError} {outcome' : Except StoreError α × IndexedGraph}
    (h : InStep x (.error e) outcome') : outcome' = (.error e, x) := by
  cases h with
  | error _ => rfl

theorem InStep.serve {call : Call} {outcome' : Except StoreError α × IndexedGraph}
    (h : InStep x (g.answer call) outcome') (hx : x.Mirrors g) : outcome'.2.Mirrors (g.serve call) := by
  rw [Graph.serve]
  generalize g.answer call = outcome at h ⊢
  cases h with
  | ok _ hnext => exact hnext
  | error _ => exact hx

-- ---------------------------------------------------------------------------
-- Look-ups
-- ---------------------------------------------------------------------------

theorem Mirrors.lookup_eq_none (h : x.Mirrors g) :
    x.positions.lookup id = none ↔ g.hasNode id = false := by
  rw [h.positions, List.findIdx?_eq_none_iff]
  simp [Graph.hasNode]

theorem Mirrors.exists_lookup (h : x.Mirrors g) :
    (∃ position, x.positions.lookup id = some position) ↔ g.hasNode id = true := by
  rw [← Option.ne_none_iff_exists', ne_eq, h.lookup_eq_none, Bool.not_eq_false]

/-- The node at the position of an id has this id. -/
theorem Mirrors.node_of_lookup (h : x.Mirrors g) (hposition : x.positions.lookup id = some position) :
    ∃ node, x.nodes[position]? = some node ∧ node.id = id := by
  rw [h.positions, List.findIdx?_eq_some_iff_getElem] at hposition
  obtain ⟨hlt, hid, -⟩ := hposition
  rw [h.nodes]
  exact ⟨_, List.getElem?_eq_getElem hlt, by simpa using hid⟩

theorem Mirrors.node?_eq (h : x.Mirrors g) (id : Int) : x.node? id = g.node? id := by
  rw [node?, Graph.node?, h.positions, h.nodes]
  exact List.find?_eq_bind_findIdx?_getElem?.symm

theorem Mirrors.snapshot?_eq (h : x.Mirrors g) : x.snapshot? = some g.snapshot := by
  have hedges : x.links.mapM x.edge? = some g.edges := by
    have hmap : x.links.mapM x.edge? = (x.links.map x.edge?).mapM id := by
      rw [List.mapM_map]
      rfl
    rw [hmap, h.edges, List.mapM_map]
    exact (mapM_eq_pure (g := id) fun _ _ => rfl).trans (by rw [List.map_id]; rfl)
  rw [snapshot?, hedges, h.nodes]
  rfl

-- ---------------------------------------------------------------------------
-- Calls
-- ---------------------------------------------------------------------------

theorem edge?_concat (hedge : x.edge? link = some edge) (node : Node) (positions : AList fun _ => Nat) :
    edge? ⟨x.nodes ++ [node], x.links, positions⟩ link = some edge := by
  unfold edge? at hedge ⊢
  split at hedge
  · rename_i source target hsource htarget
    have hs := (List.getElem?_eq_some_iff.mp hsource).1
    have ht := (List.getElem?_eq_some_iff.mp htarget).1
    simp only [List.getElem?_append_left hs, List.getElem?_append_left ht, hsource, htarget]
    exact hedge
  · cases hedge

theorem Mirrors.concat_node (h : x.Mirrors g) (hfresh : g.hasNode node.id = false) :
    Mirrors { x with
        nodes := x.nodes ++ [node], positions := x.positions.insert node.id x.nodes.length }
      { g with nodes := g.nodes ++ [node] } := by
  refine ⟨congrArg (· ++ [node]) h.nodes, fun id => ?_, ?_⟩
  · rw [List.findIdx?_append]
    by_cases hid : id = node.id
    · subst hid
      have hnone : (g.nodes.findIdx? fun other => other.id == node.id) = none := by
        rw [← h.positions]
        exact h.lookup_eq_none.mpr hfresh
      simp [hnone, AList.lookup_insert, h.nodes]
    · have hne : ¬ node.id = id := fun heq => hid heq.symm
      simp [AList.lookup_insert_ne hid, h.positions, hne]
  · refine (List.map_congr_left fun link hlink => ?_).trans h.edges
    have hmem : x.edge? link ∈ g.edges.map some := h.edges ▸ List.mem_map_of_mem hlink
    obtain ⟨edge, -, hedge⟩ := List.mem_map.mp hmem
    rw [← hedge]
    exact edge?_concat hedge.symm node _

theorem Mirrors.concat_edge {source target : Nat} (h : x.Mirrors g)
    (hsource : x.positions.lookup edge.source = some source)
    (htarget : x.positions.lookup edge.target = some target) :
    Mirrors { x with links := x.links ++ [⟨source, target, edge.kind⟩] }
      { g with edges := g.edges ++ [edge] } := by
  obtain ⟨from', hfrom, hs⟩ := h.node_of_lookup hsource
  obtain ⟨to', hto, ht⟩ := h.node_of_lookup htarget
  have hedge : x.edge? ⟨source, target, edge.kind⟩ = some edge := by
    simp [edge?, hfrom, hto, hs, ht]
  refine ⟨h.nodes, h.positions, ?_⟩
  rw [List.map_append, List.map_append, List.map_singleton, List.map_singleton]
  exact congrArg₂ _ h.edges (congrArg (fun edge => [edge]) hedge)

theorem Mirrors.addNode (h : x.Mirrors g) (node : Node) :
    InStep x (g.addNode node) (x.addNode node) := by
  unfold Graph.addNode IndexedGraph.addNode
  cases hnode : g.hasNode node.id with
  | false =>
    rw [h.lookup_eq_none.mpr hnode]
    exact .ok x.nodes.length (h.concat_node hnode)
  | true =>
    obtain ⟨position, hlookup⟩ := h.exists_lookup.mpr hnode
    rw [hlookup]
    exact .error _

theorem Mirrors.addEdge (h : x.Mirrors g) (edge : Edge) :
    InStep x (g.addEdge edge) (x.addEdge edge) := by
  unfold IndexedGraph.addEdge
  by_cases hends : (g.hasNode edge.source && g.hasNode edge.target) = true
  · rw [Graph.addEdge, if_pos hends]
    obtain ⟨hsource, htarget⟩ := Bool.and_eq_true_iff.mp hends
    obtain ⟨source, hs⟩ := h.exists_lookup.mpr hsource
    obtain ⟨target, ht⟩ := h.exists_lookup.mpr htarget
    rw [hs, ht]
    exact .ok () (h.concat_edge hs ht)
  · rw [Graph.addEdge, if_neg hends]
    split
    · rename_i source target hs ht
      refine absurd (Bool.and_eq_true_iff.mpr ⟨?_, ?_⟩) hends
      · exact h.exists_lookup.mp ⟨source, hs⟩
      · exact h.exists_lookup.mp ⟨target, ht⟩
    · exact .error _

theorem Mirrors.answer (h : x.Mirrors g) (call : Call) :
    InStep x (g.answer call) (x.answer call) := by
  cases call with
  | addNode node => exact (h.addNode node).map fun _ => ()
  | addEdge edge => exact h.addEdge edge

-- ---------------------------------------------------------------------------
-- Runs and snapshots
-- ---------------------------------------------------------------------------

theorem run_concat (calls : List Call) (call : Call) :
    run (calls ++ [call]) = ((run calls).answer call).2 := List.foldl_concat ..

theorem mirrors_run (calls : List Call) : (run calls).Mirrors (Graph.run calls) := by
  induction calls using List.reverseRecOn with
  | nil => exact mirrors_empty
  | append_singleton calls call ih =>
    rw [run_concat, Graph.run_concat]
    exact (ih.answer call).serve ih

/-- A snapshot is refused for the same reason, or gives the snapshot of the graph. -/
theorem Mirrors.enter (h : x.Mirrors g) (calls : List Call) :
    (x.enter calls).map snapshot? = (g.enter calls).map fun next => some next.snapshot := by
  induction calls generalizing x g with
  | nil => exact congrArg Except.ok h.snapshot?_eq
  | cons call rest ih =>
    have hcall := h.answer call
    rw [IndexedGraph.enter, Graph.enter]
    generalize g.answer call = outcome at hcall ⊢
    generalize x.answer call = outcome' at hcall ⊢
    cases hcall with
    | ok _ hnext => exact ih hnext
    | error e => rfl

end IndexedGraph

namespace Graph

/-- The graph after calls, and what the next call or question meets, by position as well. -/
structure ServesCalls (calls : List Call) (g : Graph) (x : IndexedGraph) : Prop where
  built : g.Built
  /-- The first record that was added with an id is the one that is found. -/
  first : ∀ id, g.node? id = (added calls).find? fun node => node.id == id
  refusesNode : ∀ node, (∃ e, g.answer (.addNode node) = .error e) ↔
    ∃ earlier ∈ added calls, earlier.id = node.id
  refusesEdge : ∀ edge, (∃ e, g.answer (.addEdge edge) = .error e) ↔
    ¬ ((∃ node ∈ added calls, node.id = edge.source) ∧ ∃ node ∈ added calls, node.id = edge.target)
  outcome : ∀ call, (x.answer call).1 = (g.answer call).map fun _ => ()
  counts : x.nodes.length = g.nodes.length ∧ x.links.length = g.edges.length
  lookups : ∀ id, x.node? id = g.node? id
  snapshot : x.snapshot? = some g.snapshot

theorem servesCalls_run (calls : List Call) : ServesCalls calls (run calls) (.run calls) := by
  have hmirrors := IndexedGraph.mirrors_run calls
  have hlinks : (IndexedGraph.run calls).links.length = (run calls).edges.length := by
    simpa using congrArg List.length hmirrors.edges
  exact ⟨built_run calls, node?_run calls, refuses_node calls, refuses_edge calls,
    fun call => (hmirrors.answer call).fst_eq, ⟨congrArg List.length hmirrors.nodes, hlinks⟩,
    hmirrors.node?_eq, hmirrors.snapshot?_eq⟩

/-- A snapshot is accepted when its ids are distinct and its edges join its nodes. The graph then has
a snapshot in normal form, which neither depends on the order of the nodes and edges nor changes when
a graph is built from it. Calls in any order are refused for what was added before them, and a refused
one changes nothing. -/
theorem snapshots_and_calls :
    (∀ s : Snapshot, ((∃ g, ofSnapshot s = .ok g) ↔
        (s.nodes.map (·.id)).Nodup ∧ ∀ edge ∈ s.edges,
          edge.source ∈ s.nodes.map (·.id) ∧ edge.target ∈ s.nodes.map (·.id)) ∧
      (∀ g, ofSnapshot s = .ok g → g.snapshot.Normalizes s ∧
        (∀ moved : Snapshot, s.nodes.Perm moved.nodes → s.edges.Perm moved.edges →
          (ofSnapshot moved).map snapshot = .ok g.snapshot) ∧
        (ofSnapshot g.snapshot).map snapshot = .ok g.snapshot) ∧
      (IndexedGraph.ofSnapshot s).map (·.snapshot?) = (ofSnapshot s).map fun g => some g.snapshot) ∧
    ∀ calls, ServesCalls calls (run calls) (.run calls) ∧
      ∀ call e, (run calls).answer call = .error e →
        run (calls ++ [call]) = run calls ∧
          IndexedGraph.run (calls ++ [call]) = IndexedGraph.run calls := by
  refine ⟨fun s => ⟨?_, fun g h => ?_, ?_⟩, fun calls => ⟨servesCalls_run calls, fun call e h => ?_⟩⟩
  · simp only [ofSnapshot_ok, exists_and_left, exists_eq, and_true]
    exact s.fits_iff
  · exact ⟨normalizes_of_ofSnapshot h, fun moved => snapshot_of_perm h, snapshot_snapshot h⟩
  · rw [ofSnapshot_eq_enter]
    exact IndexedGraph.mirrors_empty.enter (callsOf s)
  · refine ⟨run_refused h, ?_⟩
    have hcall := (IndexedGraph.mirrors_run calls).answer call
    rw [h] at hcall
    rw [IndexedGraph.run_concat, hcall.refused]

def mixedKinds : Snapshot :=
  ⟨[{ id := 3, type := "File" }, { id := -5, type := "Directory" }],
    [⟨3, -5, .other "REACHES"⟩, ⟨3, -5, .other "POST_DOM"⟩, ⟨-5, 3, .isParentDirOf⟩,
      ⟨3, -5, .isFunctionOfCfg⟩, ⟨-5, 3, .isParentDirOf⟩]⟩

def strayCalls : List Call :=
  [.addEdge ⟨1, 2, .reaches⟩, .addNode { id := 1, type := "File" }, .addNode { id := 1, type := "Comment" },
    .addNode { id := 2, type := "Function" }, .addEdge ⟨1, 2, .isFileOf⟩]

theorem snapshots_and_calls_mixedKinds :
    (ofSnapshot mixedKinds).map snapshot =
        .ok ⟨mixedKinds.nodes.reverse, [⟨-5, 3, .isParentDirOf⟩, ⟨-5, 3, .isParentDirOf⟩,
          ⟨3, -5, .isFunctionOfCfg⟩, ⟨3, -5, .other "POST_DOM"⟩, ⟨3, -5, .other "REACHES"⟩]⟩ ∧
      (ofSnapshot ⟨mixedKinds.nodes.reverse, mixedKinds.edges.reverse⟩).map snapshot =
        (ofSnapshot mixedKinds).map snapshot ∧
      (run strayCalls).node? 1 = some { id := 1, type := "File" } ∧
      run (strayCalls ++ [.addNode { id := 2, type := "File" }]) = run strayCalls := by
  have hg : ofSnapshot mixedKinds = .ok ⟨mixedKinds.nodes, mixedKinds.edges⟩ := rfl
  obtain ⟨hnormal, hreversed, -⟩ := (snapshots_and_calls.1 mixedKinds).2.1 _ hg
  have hsorted : Snapshot.Normalizes ⟨mixedKinds.nodes.reverse, [⟨-5, 3, .isParentDirOf⟩,
      ⟨-5, 3, .isParentDirOf⟩, ⟨3, -5, .isFunctionOfCfg⟩, ⟨3, -5, .other "POST_DOM"⟩,
      ⟨3, -5, .other "REACHES"⟩]⟩ mixedKinds := by
    refine ⟨List.reverse_perm _, by decide, by decide, ?_⟩
    simp only [← Edge.le_iff]
    decide
  obtain ⟨hserves, hrefused⟩ := snapshots_and_calls.2 strayCalls
  obtain ⟨e, he⟩ := (hserves.refusesNode { id := 2, type := "File" }).mpr
    ⟨{ id := 2, type := "Function" }, by simp [strayCalls, added, Call.node?], rfl⟩
  refine ⟨?_, ?_, ?_, (hrefused _ e he).1⟩
  · rw [hg]
    exact congrArg Except.ok (hnormal.unique hsorted (.refl _) (.refl _))
  · rw [hreversed _ (List.reverse_perm _).symm (List.reverse_perm _).symm, hg]
    rfl
  · rw [hserves.first]
    rfl

end Graph

end FlowTally
