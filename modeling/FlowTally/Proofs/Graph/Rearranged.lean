import FlowTally.Graph.Flow
import FlowTally.Proofs.Graph.EntryPoints
import FlowTally.Proofs.Sorting

/-!
# Graphs with nodes and edges in another order

Nodes are found by their ids, and whatever edges lead to is listed by id, each
once. So no list of directories, of entry points or of types below a node shows
in which order nodes and edges were listed.
-/

namespace FlowTally.Graph

/-- The same nodes and the same edges, parallel ones included, in any order. -/
structure Rearranged (g g' : Graph) : Prop where
  nodes : g.nodes.Perm g'.nodes
  edges : g.edges.Perm g'.edges

theorem directoryLe_antisymm {a b : String × Int} (h : directoryLe a b = true)
    (h' : directoryLe b a = true) : a = b := by
  simp only [directoryLe, Bool.or_eq_true, decide_eq_true_eq, Bool.and_eq_true, beq_iff_eq] at h h'
  grind

theorem directoryLe_trans {a b c : String × Int} (h : directoryLe a b = true)
    (h' : directoryLe b c = true) : directoryLe a c = true := by
  simp only [directoryLe, Bool.or_eq_true, decide_eq_true_eq, Bool.and_eq_true, beq_iff_eq] at h h' ⊢
  grind

theorem directoryLe_total (a b : String × Int) : (directoryLe a b || directoryLe b a) = true := by
  simp only [directoryLe, Bool.or_eq_true, decide_eq_true_eq, Bool.and_eq_true, beq_iff_eq]
  grind

theorem sort_directories_eq {found found' : List (String × Int)} (h : found.Perm found') :
    found.mergeSort directoryLe = found'.mergeSort directoryLe :=
  mergeSort_eq_of_perm (fun _ _ _ => directoryLe_trans) directoryLe_total
    (fun _ _ => directoryLe_antisymm) h

namespace Rearranged

variable {g g' : Graph}

theorem hasNode_eq (h : g.Rearranged g') : g.hasNode = g'.hasNode := by
  funext id
  exact h.nodes.any_eq

theorem wellFormed (h : g.Rearranged g') (hg : g.WellFormed) : g'.WellFormed := by
  refine ⟨(h.nodes.map _).nodup_iff.mp hg.distinct, fun edge he => ?_, fun edge he => ?_⟩
  · exact h.hasNode_eq ▸ hg.source edge (h.edges.mem_iff.mpr he)
  · exact h.hasNode_eq ▸ hg.target edge (h.edges.mem_iff.mpr he)

theorem directories_eq (h : g.Rearranged g') (selects : String → Bool) :
    g.directories selects = g'.directories selects :=
  sort_directories_eq (h.nodes.filterMap (selected? selects))

theorem successors_eq (h : g.Rearranged g') : g.successors = g'.successors := by
  funext id kind
  exact sortIds_congr fun _ => ((h.edges.filter _).map _).mem_iff

section
variable (h : g.Rearranged g') (hg : g.WellFormed)
include h hg

theorem node?_eq : g.node? = g'.node? := by
  funext id
  refine Option.ext fun node => ?_
  rw [node?_eq_some hg, node?_eq_some (h.wellFormed hg), h.nodes.mem_iff]

theorem hasType_eq : g.hasType = g'.hasType := by
  funext type id
  rw [hasType, hasType, h.node?_eq hg]

theorem hasLabel_eq : g.hasLabel = g'.hasLabel := by
  funext label id
  rw [hasLabel, hasLabel, h.node?_eq hg]

theorem isUpstream_eq : g.isUpstream = g'.isUpstream := by
  funext q id depth
  rw [isUpstream, isUpstream, h.hasLabel_eq hg]

theorem isSkipped_eq : g.isSkipped = g'.isSkipped := by
  funext skipped id
  rw [isSkipped, isSkipped, h.node?_eq hg]

theorem entryPoints_eq (directory : Int) (skipped : List String) :
    g.entryPoints directory skipped = g'.entryPoints directory skipped := by
  simp only [entryPoints, require, h.hasNode_eq, h.successors_eq, h.hasType_eq hg, h.isSkipped_eq hg]

theorem subtreeTypes_eq (root : Int) : g.subtreeTypes root = g'.subtreeTypes root := by
  have hlength : g.nodes.length = g'.nodes.length := h.nodes.length_eq
  simp only [subtreeTypes, descendants, h.successors_eq, hlength, h.node?_eq hg]

theorem astTypes_eq (id : Int) : g.astTypes id = g'.astTypes id := by
  rw [astTypes, astTypes, require, require, h.hasNode_eq, h.subtreeTypes_eq hg]

end

end Rearranged

end FlowTally.Graph
