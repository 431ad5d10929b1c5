import FlowTally.Graph.Database
import FlowTally.Proofs.Graph.Snapshot

/-!
# Snapshots saved in a database

The constraints of the two tables refuse exactly the snapshots that
`Graph.ofSnapshot` refuses (`save_ok`), and what has been saved is loaded with
its nodes by id (`load_ofSnapshot`).
-/

namespace FlowTally.Database

variable {db db' : Database} {s : Snapshot} {nodes rows rows' more : List NodeRow}
  {edges edges' added : List EdgeRow}

def ofSnapshot (s : Snapshot) : Database :=
  ⟨some (s.nodes.map NodeRow.ofNode), some (s.edges.map EdgeRow.ofEdge)⟩

theorem ids_ofNode (nodes : List Node) :
    (nodes.map NodeRow.ofNode).map (·.id) = nodes.map (·.id) := by
  rw [List.map_map]
  rfl

-- ---------------------------------------------------------------------------
-- Rows
-- ---------------------------------------------------------------------------

theorem insertNode_ok (h : (rows.map (·.id)).Nodup) {row : NodeRow} :
    insertNode rows row = .ok rows' ↔
      ((rows ++ [row]).map (·.id)).Nodup ∧ rows' = rows ++ [row] := by
  have htaken : (rows.any fun other => other.id == row.id) = true ↔ row.id ∈ rows.map (·.id) := by simp
  rw [nodup_map_concat h, ← htaken]
  unfold insertNode
  split
  · rename_i htaken
    simp [htaken]
  · rename_i htaken
    simp [htaken, eq_comm]

theorem insertNodes_ok (h : (rows.map (·.id)).Nodup) :
    insertNodes rows more = .ok rows' ↔ ((rows ++ more).map (·.id)).Nodup ∧ rows' = rows ++ more := by
  induction more generalizing rows with
  | nil => simp [insertNodes, h, eq_comm]
  | cons row rest ih =>
    rw [insertNodes, bind_ok, List.append_cons]
    simp only [insertNode_ok h]
    constructor
    · rintro ⟨next, ⟨hfresh, rfl⟩, hrest⟩
      exact (ih hfresh).mp hrest
    · intro hall
      have hfresh : ((rows ++ [row]).map (·.id)).Nodup := by
        rw [List.map_append] at hall
        exact hall.1.of_append_left
      exact ⟨_, ⟨hfresh, rfl⟩, (ih hfresh).mpr hall⟩

theorem insertEdge_ok {row : EdgeRow} :
    insertEdge nodes edges row = .ok edges' ↔
      (row.source ∈ nodes.map (·.id) ∧ row.target ∈ nodes.map (·.id)) ∧ edges' = edges ++ [row] := by
  have hends : ((nodes.any fun node => node.id == row.source) &&
      nodes.any fun node => node.id == row.target) = true ↔
      row.source ∈ nodes.map (·.id) ∧ row.target ∈ nodes.map (·.id) := by simp
  rw [← hends]
  unfold insertEdge
  split
  · rename_i h
    simp [h, eq_comm]
  · rename_i h
    simp [h]

theorem insertEdges_ok :
    insertEdges nodes edges added = .ok edges' ↔
      (∀ row ∈ added, row.source ∈ nodes.map (·.id) ∧ row.target ∈ nodes.map (·.id)) ∧
        edges' = edges ++ added := by
  induction added generalizing edges with
  | nil => simp [insertEdges, eq_comm]
  | cons row rest ih =>
    rw [insertEdges, bind_ok, List.append_cons, List.forall_mem_cons]
    simp only [insertEdge_ok]
    constructor
    · rintro ⟨next, ⟨hrow, rfl⟩, hrest⟩
      obtain ⟨hall, rfl⟩ := ih.mp hrest
      exact ⟨⟨hrow, hall⟩, rfl⟩
    · rintro ⟨⟨hrow, hall⟩, rfl⟩
      exact ⟨_, ⟨hrow, rfl⟩, ih.mpr ⟨hall, rfl⟩⟩

-- ---------------------------------------------------------------------------
-- Snapshots
-- ---------------------------------------------------------------------------

theorem save_ok (htables : db.withTables = db) :
    db.save s = .ok db' ↔ s.Fits ∧ db' = ofSnapshot s := by
  obtain ⟨nodes, edges⟩ := db
  obtain ⟨hnodes, hedges⟩ := Database.mk.inj htables
  rw [← hnodes, ← hedges]
  have hfirst : (([] : List NodeRow).map (·.id)).Nodup := List.nodup_nil
  simp only [save, bind_ok, map_ok, insertNodes_ok hfirst, insertEdges_ok, List.nil_append,
    ids_ofNode, List.forall_mem_map]
  constructor
  · rintro ⟨_, ⟨hdistinct, rfl⟩, _, ⟨hends, rfl⟩, rfl⟩
    rw [ids_ofNode] at hends
    exact ⟨⟨hdistinct, fun edge he => (hends edge he).1, fun edge he => (hends edge he).2⟩, rfl⟩
  · rintro ⟨⟨hdistinct, hsource, htarget⟩, rfl⟩
    refine ⟨_, ⟨hdistinct, rfl⟩, _, ⟨fun edge he => ?_, rfl⟩, rfl⟩
    rw [ids_ofNode]
    exact ⟨hsource edge he, htarget edge he⟩

theorem toNode_ofNode {node : Node} (h : (Json.obj node.properties).Storable Json.maxDepth) :
    NodeRow.toNode (NodeRow.ofNode node) = .ok node := by
  have hlabels : (Json.tree? (.ofString (Json.arr (node.labels.map .str)).compact)).bind
      (Json.Tree.list? Json.Tree.text?) = some node.labels := by
    have htexts : (Json.arr (node.labels.map .str)).NoReal :=
      Json.noReal_arr (List.forall_mem_map.mpr fun _ _ => trivial)
    rw [Json.tree?_compact htexts, Option.bind_some, Json.texts?_treeOf]
  have hproperties : (Json.tree? (.ofString (Json.obj node.properties).compact)).bind
      (Json.Tree.properties? Json.maxDepth) = some node.properties := by
    rw [Json.tree?_compact h.noReal, Option.bind_some, Json.properties?_treeOf h]
  simp only [NodeRow.toNode, NodeRow.ofNode, hlabels, hproperties]

theorem load_ofSnapshot (h : s.Storable Json.maxDepth) : (ofSnapshot s).load = .ok s.byId := by
  have hsorted : (s.nodes.map NodeRow.ofNode).mergeSort (fun a b => decide (a.id ≤ b.id)) =
      s.byId.nodes.map NodeRow.ofNode :=
    (List.map_mergeSort (f := NodeRow.ofNode) fun _ _ _ _ => rfl).symm
  have hread : ∀ node ∈ s.byId.nodes, NodeRow.toNode (NodeRow.ofNode node) = .ok node :=
    fun node hn => toNode_ofNode (h node (List.mem_mergeSort.mp hn))
  have hnodes : (s.byId.nodes.map NodeRow.ofNode).mapM NodeRow.toNode = .ok s.byId.nodes := by
    rw [List.mapM_map]
    exact (mapM_eq_pure (g := id) hread).trans (by rw [List.map_id]; rfl)
  have hedges : (s.edges.map EdgeRow.ofEdge).map EdgeRow.toEdge = s.byId.edges := by
    rw [List.map_map]
    rfl
  simp only [load, ofSnapshot, hsorted, hnodes, hedges, Except.bind]

end FlowTally.Database
