import FlowTally.Proofs.Graph.FlowOrder

/-!
# Graphs with their nodes in another order

Stores keep the edges of a graph in their order and not its nodes. As nodes are
found by their ids, no answer shows it: flows are searched for over the same
edges, one after the other, and all else does not depend on any order.
-/

namespace FlowTally.Graph

structure Reordered (g g' : Graph) : Prop where
  nodes : g.nodes.Perm g'.nodes
  edges : g.edges = g'.edges

namespace Reordered

variable {g g' : Graph} {q : FlowQuery}

theorem rearranged (h : g.Reordered g') : g.Rearranged g' :=
  ⟨h.nodes, h.edges ▸ .refl _⟩

theorem hops_eq (h : g.Reordered g') : g.hops = g'.hops := by
  funext q id
  rw [hops, hops, h.edges]

section
variable (h : g.Reordered g') (hg : g.WellFormed)
include h hg

theorem trailFlows_eq (anchor : Int) (used : List Nat) (kinds : List EdgeKind) (id : Int) (left : Nat) :
    g.trailFlows q anchor used kinds id left = g'.trailFlows q anchor used kinds id left := by
  induction left generalizing used kinds id with
  | zero => rw [trailFlows, trailFlows]
  | succ left ih => simp only [trailFlows, h.rearranged.hasLabel_eq hg, h.hops_eq, ih]

theorem flowPaths_eq (entry : Int) (q : FlowQuery) : g.flowPaths entry q = g'.flowPaths entry q :=
  h.rearranged.flowPaths_eq_of_downstreamFlows hg
    (fun _ => congrArg List.eraseDups (h.trailFlows_eq hg ..)) entry

end

end Reordered

end FlowTally.Graph
