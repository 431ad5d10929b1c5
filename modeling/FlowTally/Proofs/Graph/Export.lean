import FlowTally.Graph.Text
import FlowTally.Proofs.Graph.Snapshot

/-!
# Snapshots read back from an export

The text of a snapshot is read as that snapshot again, kinds by their names
(`read_write`). The properties of a node stand a few levels deep in the text,
so they may go that much less deep than in a database.
-/

namespace FlowTally

open Json (treeOf)

def IsId (id : Int) : Prop := -9223372036854775808 ≤ id ∧ id < 9223372036854775808

/-- What the types of nodes and edges promise of their ids. -/
structure Snapshot.Bounded (s : Snapshot) : Prop where
  node : ∀ node ∈ s.nodes, IsId node.id
  source : ∀ edge ∈ s.edges, IsId edge.source
  target : ∀ edge ∈ s.edges, IsId edge.target

variable {node : Node} {edge : Edge} {s : Snapshot}

/-- Of the fields of a written node only the properties can be refused. -/
theorem Node.ofTree?_toJson_eq (hid : IsId node.id) :
    Node.ofTree? (treeOf node.toJson) =
      ((treeOf (.obj node.properties)).properties? (Json.maxDepth - propertyLevel)).map
        fun properties => { node with properties } := by
  have hrecord : (treeOf node.toJson).record? ["id", "type", "labels", "properties"] =
      some [some (treeOf (.int node.id)), some (treeOf (.str node.type)),
        some (treeOf (.arr (node.labels.map .str))), some (treeOf (.obj node.properties))] :=
    Json.record?_treeOf (by simp) _
  simp [Node.ofTree?, hrecord, optionalPart, Json.int64?_treeOf hid, Json.text?_treeOf,
    Json.texts?_treeOf, Option.map_eq_bind]

theorem Node.ofTree?_toJson (hid : IsId node.id)
    (h : (Json.obj node.properties).Storable (Json.maxDepth - propertyLevel)) :
    Node.ofTree? (treeOf node.toJson) = some node := by
  rw [Node.ofTree?_toJson_eq hid, Json.properties?_treeOf h, Option.map_some]

theorem Edge.ofTree?_toJson (hsource : IsId edge.source) (htarget : IsId edge.target) :
    Edge.ofTree? (treeOf edge.toJson) = some edge.reread := by
  have hrecord : (treeOf edge.toJson).record? ["src", "dst", "type"] =
      some [some (treeOf (.int edge.source)), some (treeOf (.int edge.target)),
        some (treeOf (.str edge.kind.name))] :=
    Json.record?_treeOf (by simp) _
  simp [Edge.ofTree?, hrecord, Json.int64?_treeOf hsource, Json.int64?_treeOf htarget,
    Json.text?_treeOf, Edge.reread]

namespace Snapshot

theorem ofTree?_toJson_eq (hbounded : s.Bounded) :
    ofTree? (treeOf s.toJson) =
      (s.nodes.mapM fun node => Node.ofTree? (treeOf node.toJson)).map
        fun nodes => ⟨nodes, s.edges.map Edge.reread⟩ := by
  have hrecord : (treeOf s.toJson).record? ["nodes", "edges"] =
      some [some (treeOf (.arr (s.nodes.map Node.toJson))),
        some (treeOf (.arr (s.edges.map Edge.toJson)))] :=
    Json.record?_treeOf (by simp) _
  have hedges : (treeOf (.arr (s.edges.map Edge.toJson))).list? Edge.ofTree? =
      some (s.edges.map Edge.reread) :=
    Json.list?_treeOf fun edge he =>
      Edge.ofTree?_toJson (hbounded.source edge he) (hbounded.target edge he)
  simp [ofTree?, hrecord, optionalPart, Json.list?_treeOf_eq Node.ofTree?, hedges,
    Option.map_eq_bind]

theorem ofTree?_toJson (hbounded : s.Bounded) (h : s.Storable (Json.maxDepth - propertyLevel)) :
    ofTree? (treeOf s.toJson) = some s.reread := by
  have hread : ∀ node ∈ s.nodes, Node.ofTree? (treeOf node.toJson) = some (id node) :=
    fun node hn => Node.ofTree?_toJson (hbounded.node node hn) (h node hn)
  rw [ofTree?_toJson_eq hbounded, mapM_eq_pure hread, List.map_id]
  rfl

theorem noReal_toJson (h : ∀ node ∈ s.nodes, (Json.obj node.properties).NoReal) : s.toJson.NoReal := by
  have hnode : ∀ node ∈ s.nodes, node.toJson.NoReal := fun node hn =>
    ⟨trivial, trivial, Json.noReal_arr (List.forall_mem_map.mpr fun _ _ => trivial), h node hn, trivial⟩
  have hedge : ∀ edge ∈ s.edges, edge.toJson.NoReal := fun edge _ => ⟨trivial, trivial, trivial, trivial⟩
  exact ⟨Json.noReal_arr (List.forall_mem_map.mpr hnode), Json.noReal_arr (List.forall_mem_map.mpr hedge),
    trivial⟩

theorem bind_tree?_write (h : ∀ node ∈ s.nodes, (Json.obj node.properties).NoReal) :
    (Json.tree? (.ofString s.write)).bind ofTree? = ofTree? (treeOf s.toJson) := by
  rw [write, Json.tree?_compact (noReal_toJson h), Option.bind_some]

theorem read_write (hbounded : s.Bounded) (h : s.Storable (Json.maxDepth - propertyLevel)) :
    read (.ofString s.write) = .ok s.reread := by
  rw [read, bind_tree?_write fun node hn => (h node hn).noReal, ofTree?_toJson hbounded h]

end Snapshot

end FlowTally
