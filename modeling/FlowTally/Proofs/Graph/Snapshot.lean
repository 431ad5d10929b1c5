import FlowTally.Proofs.Except
import FlowTally.Proofs.Graph.Built
import FlowTally.Proofs.Json.Values

/-!
# Snapshots that fit together, and what stores keep of them

`Snapshot.Fits` says of a snapshot alone what `Graph.ofSnapshot` asks of it, and
`ofSnapshot_ok` that nothing else decides: the graph then has the nodes and
edges as listed. Stores keep the kind of an edge by its name, so another kind
with the name of a known one comes back as the known one.
-/

namespace FlowTally

theorem nodup_map_concat {f : α → β} {xs : List α} (h : (xs.map f).Nodup) (x : α) :
    ((xs ++ [x]).map f).Nodup ↔ f x ∉ xs.map f := by
  rw [List.map_append, List.map_singleton, List.nodup_append_comm, List.singleton_append,
    List.nodup_cons]
  exact and_iff_left h

def Edge.reread (edge : Edge) : Edge := { edge with kind := .ofName edge.kind.name }

namespace Snapshot

/-- The properties of all nodes come back from their text, read `depth` levels deep. -/
def Storable (depth : Nat) (s : Snapshot) : Prop :=
  ∀ node ∈ s.nodes, (Json.obj node.properties).Storable depth

def reread (s : Snapshot) : Snapshot := ⟨s.nodes, s.edges.map Edge.reread⟩

def byId (s : Snapshot) : Snapshot :=
  ⟨s.nodes.mergeSort fun a b => decide (a.id ≤ b.id), s.edges.map Edge.reread⟩

/-- Ids tell nodes apart, and edges join nodes of the snapshot. -/
structure Fits (s : Snapshot) : Prop where
  distinct : (s.nodes.map (·.id)).Nodup
  source : ∀ edge ∈ s.edges, edge.source ∈ s.nodes.map (·.id)
  target : ∀ edge ∈ s.edges, edge.target ∈ s.nodes.map (·.id)

theorem fits_iff (s : Snapshot) : s.Fits ↔ (s.nodes.map (·.id)).Nodup ∧ ∀ edge ∈ s.edges,
    edge.source ∈ s.nodes.map (·.id) ∧ edge.target ∈ s.nodes.map (·.id) := by
  constructor
  · intro h
    exact ⟨h.distinct, fun edge he => ⟨h.source edge he, h.target edge he⟩⟩
  · rintro ⟨hdistinct, hends⟩
    exact ⟨hdistinct, fun edge he => (hends edge he).1, fun edge he => (hends edge he).2⟩

instance (s : Snapshot) : Decidable s.Fits :=
  decidable_of_iff ((s.nodes.map (·.id)).Nodup ∧
      (∀ edge ∈ s.edges, edge.source ∈ s.nodes.map (·.id)) ∧
      ∀ edge ∈ s.edges, edge.target ∈ s.nodes.map (·.id))
    ⟨fun ⟨hd, hs, ht⟩ => ⟨hd, hs, ht⟩, fun ⟨hd, hs, ht⟩ => ⟨hd, hs, ht⟩⟩

variable {s s' : Snapshot}

/-- Fitting depends on which nodes there are and on which edges join which ids. -/
theorem Fits.congr (h : s.Fits) (hnodes : s.nodes.Perm s'.nodes)
    (hedges : ∀ edge' ∈ s'.edges, ∃ edge ∈ s.edges,
      edge.source = edge'.source ∧ edge.target = edge'.target) : s'.Fits := by
  have hids (id : Int) : id ∈ s.nodes.map (·.id) → id ∈ s'.nodes.map (·.id) :=
    (hnodes.map (·.id)).mem_iff.mp
  refine ⟨(hnodes.map (·.id)).nodup_iff.mp h.distinct, fun edge' he' => ?_, fun edge' he' => ?_⟩ <;>
    obtain ⟨edge, he, hsource, htarget⟩ := hedges edge' he'
  · exact hsource ▸ hids _ (h.source edge he)
  · exact htarget ▸ hids _ (h.target edge he)

theorem Fits.reread (h : s.Fits) : s.reread.Fits :=
  h.congr (.refl _) fun _ he' => by
    obtain ⟨edge, he, rfl⟩ := List.mem_map.mp he'
    exact ⟨edge, he, rfl, rfl⟩

theorem Fits.byId (h : s.Fits) : s.byId.Fits :=
  h.congr (List.mergeSort_perm ..).symm fun _ he' => by
    obtain ⟨edge, he, rfl⟩ := List.mem_map.mp he'
    exact ⟨edge, he, rfl, rfl⟩

end Snapshot

namespace Graph

variable {g g' : Graph} {nodes : List Node} {edges : List Edge} {s : Snapshot}

theorem addNodes_ok (h : (g.nodes.map (·.id)).Nodup) :
    g.addNodes nodes = .ok g' ↔
      ((g.nodes ++ nodes).map (·.id)).Nodup ∧ g' = { g with nodes := g.nodes ++ nodes } := by
  induction nodes generalizing g with
  | nil => simp [addNodes, h, eq_comm]
  | cons node rest ih =>
    rw [addNodes, bind_ok, List.append_cons]
    simp only [addNode_ok, ← Bool.not_eq_true, hasNode_iff, ← nodup_map_concat h]
    constructor
    · rintro ⟨next, ⟨hfresh, rfl⟩, hrest⟩
      exact (ih hfresh).mp hrest
    · intro hall
      have hfresh : ((g.nodes ++ [node]).map (·.id)).Nodup := by
        rw [List.map_append] at hall
        exact hall.1.of_append_left
      exact ⟨_, ⟨hfresh, rfl⟩, (ih (g := { g with nodes := g.nodes ++ [node] }) hfresh).mpr hall⟩

theorem addEdges_ok :
    g.addEdges edges = .ok g' ↔
      (∀ edge ∈ edges, g.hasNode edge.source = true ∧ g.hasNode edge.target = true) ∧
        g' = { g with edges := g.edges ++ edges } := by
  induction edges generalizing g with
  | nil =>
    rw [addEdges, List.append_nil, Except.ok.injEq]
    simpa using eq_comm
  | cons edge rest ih =>
    rw [addEdges, bind_ok, List.append_cons, List.forall_mem_cons]
    simp only [addEdge_ok]
    constructor
    · rintro ⟨next, ⟨hedge, rfl⟩, hrest⟩
      obtain ⟨hall, rfl⟩ := ih.mp hrest
      exact ⟨⟨hedge, hall⟩, rfl⟩
    · rintro ⟨⟨hedge, hall⟩, rfl⟩
      exact ⟨_, ⟨hedge, rfl⟩, ih.mpr ⟨hall, rfl⟩⟩

/-- A snapshot is accepted when it fits together, and then kept as it is. -/
theorem ofSnapshot_ok : ofSnapshot s = .ok g ↔ s.Fits ∧ g = ⟨s.nodes, s.edges⟩ := by
  rw [ofSnapshot, bind_ok]
  simp only [addNodes_ok (g := {}) List.nodup_nil, List.nil_append, addEdges_ok]
  constructor
  · rintro ⟨next, ⟨hdistinct, rfl⟩, hends, rfl⟩
    exact ⟨⟨hdistinct, fun edge he => hasNode_iff.mp (hends edge he).1,
      fun edge he => hasNode_iff.mp (hends edge he).2⟩, rfl⟩
  · rintro ⟨⟨hdistinct, hsource, htarget⟩, rfl⟩
    exact ⟨_, ⟨hdistinct, rfl⟩,
      fun edge he => ⟨hasNode_iff.mpr (hsource edge he), hasNode_iff.mpr (htarget edge he)⟩, rfl⟩

end Graph

end FlowTally
