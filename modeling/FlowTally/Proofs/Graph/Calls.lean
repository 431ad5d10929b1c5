import FlowTally.Proofs.Graph.Snapshot
import Mathlib.Data.List.Induction

/-!
# Graphs under calls that may be refused

Nodes and edges are added one call after the other, and a refused call leaves
the graph as it is. The first record of an id is the one that is kept
(`node?_run`), so it can be told from the earlier calls alone which call is
refused (`refuses_node`, `refuses_edge`). A snapshot is read as the calls for
its nodes and then for its edges, up to the first one that is refused.
-/

namespace FlowTally.Graph

inductive Call where
  | addNode (node : Node)
  | addEdge (edge : Edge)

def answer (g : Graph) : Call → Except StoreError Graph
  | .addNode node => g.addNode node
  | .addEdge edge => g.addEdge edge

/-- The graph after a call, refused or not. -/
def serve (g : Graph) (call : Call) : Graph :=
  match g.answer call with
  | .ok next => next
  | .error _ => g

def run (calls : List Call) : Graph := calls.foldl serve {}

def enter (g : Graph) : List Call → Except StoreError Graph
  | [] => .ok g
  | call :: rest => (g.answer call).bind (enter · rest)

def Call.node? : Call → Option Node
  | .addNode node => some node
  | .addEdge _ => none

def added (calls : List Call) : List Node := calls.filterMap Call.node?

def callsOf (s : Snapshot) : List Call := s.nodes.map .addNode ++ s.edges.map .addEdge

variable {g : Graph} {calls : List Call} {call : Call} {node : Node} {edge : Edge} {id : Int}

-- ---------------------------------------------------------------------------
-- Snapshots as calls
-- ---------------------------------------------------------------------------

theorem enter_nodes (g : Graph) (nodes : List Node) (calls : List Call) :
    g.enter (nodes.map .addNode ++ calls) = (g.addNodes nodes).bind (enter · calls) := by
  induction nodes generalizing g with
  | nil => rfl
  | cons node rest ih =>
    change (g.addNode node).bind (fun next => next.enter (rest.map .addNode ++ calls)) = _
    rw [addNodes]
    cases g.addNode node with
    | error e => rfl
    | ok next => exact ih next

theorem enter_edges (g : Graph) (edges : List Edge) : g.enter (edges.map .addEdge) = g.addEdges edges := by
  induction edges generalizing g with
  | nil => rfl
  | cons edge rest ih =>
    change (g.addEdge edge).bind (fun next => next.enter (rest.map .addEdge)) = _
    rw [addEdges]
    cases g.addEdge edge with
    | error e => rfl
    | ok next => exact ih next

theorem ofSnapshot_eq_enter (s : Snapshot) : ofSnapshot s = enter {} (callsOf s) := by
  simp only [ofSnapshot, callsOf, enter_nodes, enter_edges]

-- ---------------------------------------------------------------------------
-- Runs of calls
-- ---------------------------------------------------------------------------

theorem run_concat (calls : List Call) (call : Call) : run (calls ++ [call]) = (run calls).serve call :=
  List.foldl_concat ..

theorem added_concat (calls : List Call) (call : Call) :
    added (calls ++ [call]) = added calls ++ added [call] := List.filterMap_append

theorem Built.serve (h : g.Built) (call : Call) : (g.serve call).Built := by
  unfold Graph.serve
  split
  · rename_i next hok
    cases call with
    | addNode node => exact .addNode h hok
    | addEdge edge => exact .addEdge h hok
  · exact h

theorem built_run (calls : List Call) : (run calls).Built := by
  induction calls using List.reverseRecOn with
  | nil => exact .empty
  | append_singleton calls call ih =>
    rw [run_concat]
    exact ih.serve call

/-- A node is looked up among those that were there before the one that a call adds. -/
theorem node?_serve (g : Graph) (call : Call) (id : Int) :
    (g.serve call).node? id = (g.node? id).or ((added [call]).find? fun node => node.id == id) := by
  cases call with
  | addNode node =>
    cases htaken : g.hasNode node.id with
    | true =>
      have hsame : g.serve (.addNode node) = g := by simp [serve, answer, addNode, htaken]
      have hfound : node.id = id → (g.node? id).isSome = true := by
        rintro rfl
        rw [node?, List.isSome_find?]
        exact htaken
      rw [hsame]
      by_cases hid : node.id = id
      · obtain ⟨other, hother⟩ := Option.isSome_iff_exists.mp (hfound hid)
        rw [hother, Option.some_or]
      · simp [added, Call.node?, hid]
    | false =>
      have hnext : g.serve (.addNode node) = { g with nodes := g.nodes ++ [node] } := by
        simp [serve, answer, addNode, htaken]
      rw [hnext]
      exact List.find?_append
  | addEdge edge =>
    have hsame : (g.serve (.addEdge edge)).nodes = g.nodes := by
      unfold serve
      split
      · rename_i next hok
        obtain ⟨-, rfl⟩ := addEdge_ok.mp hok
        rfl
      · rfl
    simp [node?, hsame, added, Call.node?]

theorem node?_run (calls : List Call) (id : Int) :
    (run calls).node? id = (added calls).find? fun node => node.id == id := by
  induction calls using List.reverseRecOn with
  | nil => rfl
  | append_singleton calls call ih =>
    rw [run_concat, node?_serve, ih, added_concat, List.find?_append]

theorem hasNode_run (calls : List Call) (id : Int) :
    (run calls).hasNode id = true ↔ ∃ node ∈ added calls, node.id = id := by
  have hfound : (run calls).hasNode id = ((run calls).node? id).isSome :=
    List.isSome_find?.symm
  rw [hfound, node?_run, List.isSome_find?]
  simp

theorem refuses_node (calls : List Call) (node : Node) :
    (∃ e, (run calls).answer (.addNode node) = .error e) ↔
      ∃ earlier ∈ added calls, earlier.id = node.id := by
  rw [← hasNode_run, answer, addNode]
  split
  · rename_i h
    simp [h]
  · rename_i h
    simp [h]

theorem refuses_edge (calls : List Call) (edge : Edge) :
    (∃ e, (run calls).answer (.addEdge edge) = .error e) ↔
      ¬ ((∃ node ∈ added calls, node.id = edge.source) ∧ ∃ node ∈ added calls, node.id = edge.target) := by
  rw [← hasNode_run, ← hasNode_run, ← Bool.and_eq_true, answer, addEdge]
  split
  · rename_i h
    simp [h]
  · rename_i h
    simp [h]

theorem run_refused {e : StoreError} (h : (run calls).answer call = .error e) :
    run (calls ++ [call]) = run calls := by
  rw [run_concat, serve, h]

end FlowTally.Graph
