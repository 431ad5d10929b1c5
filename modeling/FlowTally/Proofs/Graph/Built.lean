import FlowTally.Graph.Basic
import FlowTally.Proofs.Sorting
import Mathlib.Data.List.Nodup
import Mathlib.Data.List.Sort

/-!
# Graphs that additions build

A graph is *built* when it comes from the empty one by additions that were not
refused; snapshots that are accepted give such graphs. In a built graph the ids
tell the nodes apart and every edge joins two of its nodes, which is what the
bounds of all searches rest on.
-/

namespace FlowTally.Graph

/-- Graphs that come from the empty one by accepted additions. -/
inductive Built : Graph → Prop
  | empty : Built {}
  | addNode : Built g → g.addNode node = .ok g' → Built g'
  | addEdge : Built g → g.addEdge edge = .ok g' → Built g'

structure WellFormed (g : Graph) : Prop where
  distinct : (g.nodes.map (·.id)).Nodup
  source : ∀ edge ∈ g.edges, g.hasNode edge.source = true
  target : ∀ edge ∈ g.edges, g.hasNode edge.target = true

variable {g g' : Graph} {id : Int} {node : Node} {edge : Edge} {nodes more : List Node}
  {edges : List Edge}

theorem hasNode_iff : g.hasNode id = true ↔ id ∈ g.nodes.map (·.id) := by
  simp [hasNode]

theorem exists_node : (∃ node ∈ g.nodes, node.id = id) ↔ g.hasNode id = true := by
  simp [hasNode]

theorem require_map_ok {f : Unit → α} :
    (g.require id).map f = .ok a ↔ (∃ node ∈ g.nodes, node.id = id) ∧ f () = a := by
  rw [exists_node, require]
  split
  · rename_i h
    simp [h, Except.map]
  · rename_i h
    simp [h, Except.map]

theorem require_map_error {f : Unit → α} :
    (∃ e, (g.require id).map f = .error e) ↔ ∀ node ∈ g.nodes, node.id ≠ id := by
  have hnone : (∀ node ∈ g.nodes, node.id ≠ id) ↔ ¬ g.hasNode id = true := by
    rw [← exists_node]
    simp
  rw [hnone, require]
  split
  · rename_i h
    simp [h, Except.map]
  · rename_i h
    simp [h, Except.map]

theorem node?_eq_some (hg : g.WellFormed) :
    g.node? id = some node ↔ node ∈ g.nodes ∧ node.id = id := by
  constructor
  · intro h
    exact ⟨List.mem_of_find?_eq_some h, by simpa using List.find?_some h⟩
  · rintro ⟨hm, rfl⟩
    cases h : g.node? node.id with
    | none => simpa using List.find?_eq_none.mp h node hm
    | some other =>
      have hid : other.id = node.id := by simpa using List.find?_some h
      rw [List.inj_on_of_nodup_map hg.distinct (List.mem_of_find?_eq_some h) hm hid]

theorem addNode_ok :
    addNode g node = .ok g' ↔
      g.hasNode node.id = false ∧ g' = { g with nodes := g.nodes ++ [node] } := by
  unfold addNode
  split
  · rename_i h
    simp [h]
  · rename_i h
    simp [Bool.eq_false_iff.mpr h, eq_comm]

theorem addEdge_ok :
    addEdge g edge = .ok g' ↔
      (g.hasNode edge.source = true ∧ g.hasNode edge.target = true) ∧
        g' = { g with edges := g.edges ++ [edge] } := by
  unfold addEdge
  split
  · rename_i h
    have h := Bool.and_eq_true_iff.mp h
    simp [h, eq_comm]
  · rename_i h
    have h := mt Bool.and_eq_true_iff.mpr h
    simp [h]

theorem hasNode_append :
    hasNode ⟨nodes ++ more, edges⟩ id = (hasNode ⟨nodes, edges⟩ id || hasNode ⟨more, edges⟩ id) := by
  simp [hasNode]

theorem Built.wellFormed (h : Built g) : g.WellFormed := by
  induction h with
  | empty => exact ⟨by simp, by simp, by simp⟩
  | addNode _ hadd ih =>
    obtain ⟨hfresh, rfl⟩ := addNode_ok.mp hadd
    refine ⟨?_, fun edge he => ?_, fun edge he => ?_⟩
    · have hnew := mt hasNode_iff.mpr (Bool.eq_false_iff.mp hfresh)
      simp only [List.map_append, List.map_cons, List.map_nil]
      exact List.nodup_append.mpr ⟨ih.distinct, by simp, by
        rintro a ha b hb rfl
        exact hnew (List.mem_singleton.mp hb ▸ ha)⟩
    · exact hasNode_append.trans (by rw [ih.source edge he, Bool.true_or])
    · exact hasNode_append.trans (by rw [ih.target edge he, Bool.true_or])
  | addEdge _ hadd ih =>
    obtain ⟨⟨hs, ht⟩, rfl⟩ := addEdge_ok.mp hadd
    refine ⟨ih.distinct, fun other ho => ?_, fun other ho => ?_⟩
    · rcases List.mem_append.mp ho with ho | ho
      · exact ih.source other ho
      · exact List.mem_singleton.mp ho ▸ hs
    · rcases List.mem_append.mp ho with ho | ho
      · exact ih.target other ho
      · exact List.mem_singleton.mp ho ▸ ht

theorem Built.addNodes (h : Built g) (hok : g.addNodes nodes = .ok g') : Built g' := by
  induction nodes generalizing g with
  | nil =>
    obtain rfl : g = g' := by simpa [Graph.addNodes] using hok
    exact h
  | cons node rest ih =>
    cases ha : g.addNode node with
    | error e => simp [Graph.addNodes, ha, Except.bind] at hok
    | ok next => exact ih (.addNode h ha) (by simpa [Graph.addNodes, ha, Except.bind] using hok)

theorem Built.addEdges (h : Built g) (hok : g.addEdges edges = .ok g') : Built g' := by
  induction edges generalizing g with
  | nil =>
    obtain rfl : g = g' := by simpa [Graph.addEdges] using hok
    exact h
  | cons edge rest ih =>
    cases ha : g.addEdge edge with
    | error e => simp [Graph.addEdges, ha, Except.bind] at hok
    | ok next => exact ih (.addEdge h ha) (by simpa [Graph.addEdges, ha, Except.bind] using hok)

theorem built_of_ofSnapshot (h : ofSnapshot s = .ok g) : Built g := by
  unfold ofSnapshot at h
  cases hn : addNodes {} s.nodes with
  | error e => simp [hn, Except.bind] at h
  | ok mid =>
    have hmid : Built mid := Built.addNodes .empty hn
    exact hmid.addEdges (by simpa [hn, Except.bind] using h)

-- ---------------------------------------------------------------------------
-- Ascending ids
-- ---------------------------------------------------------------------------

/-- Dropping repetitions from an ascending list leaves its members, strictly ascending. The loop
keeps the last kept element at hand and the earlier ones in reverse. -/
private theorem eraseReps_loop {a : Int} {as acc : List Int} (hs : (a :: as).Pairwise (· ≤ ·))
    (hacc : (a :: acc).Pairwise (· > ·)) :
    (List.eraseRepsBy.loop (· == ·) a as acc).Pairwise (· < ·) ∧
      ∀ x, x ∈ List.eraseRepsBy.loop (· == ·) a as acc ↔ x ∈ acc ∨ x ∈ a :: as := by
  induction as generalizing a acc with
  | nil =>
    simp only [List.eraseRepsBy.loop]
    exact ⟨List.pairwise_reverse.mpr hacc, fun x => by simp [or_comm]⟩
  | cons b bs ih =>
    simp only [List.pairwise_cons, List.mem_cons, forall_eq_or_imp] at hs
    obtain ⟨⟨hab, hle⟩, hb, hbs⟩ := hs
    simp only [List.eraseRepsBy.loop]
    split
    · rename_i heq
      obtain rfl : a = b := by simpa using heq
      obtain ⟨h1, h2⟩ := ih (List.pairwise_cons.mpr ⟨hb, hbs⟩) hacc
      exact ⟨h1, fun x => by rw [h2]; simp⟩
    · rename_i hne
      have hlt : a < b := by
        have hne : a ≠ b := by simpa using hne
        omega
      have hacc' : (b :: a :: acc).Pairwise (· > ·) := by
        refine List.pairwise_cons.mpr ⟨fun x hx => ?_, hacc⟩
        rcases List.mem_cons.mp hx with rfl | hx
        · exact hlt
        · exact Int.lt_trans ((List.pairwise_cons.mp hacc).1 x hx) hlt
      obtain ⟨h1, h2⟩ := ih (List.pairwise_cons.mpr ⟨hb, hbs⟩) hacc'
      refine ⟨h1, fun x => ?_⟩
      rw [h2]
      simp only [List.mem_cons]
      tauto

private theorem sortIds_spec (ids : List Int) :
    (sortIds ids).Pairwise (· < ·) ∧ ∀ x, x ∈ sortIds ids ↔ x ∈ ids := by
  have hsorted : (ids.mergeSort fun a b => decide (a ≤ b)).Pairwise (· ≤ ·) :=
    pairwise_mergeSort_key id ids
  have hmem (x : Int) : x ∈ (ids.mergeSort fun a b => decide (a ≤ b)) ↔ x ∈ ids :=
    List.mem_mergeSort
  unfold sortIds List.eraseReps
  revert hsorted hmem
  cases (ids.mergeSort fun a b => decide (a ≤ b)) with
  | nil => intro _ hmem; exact ⟨by simp [List.eraseRepsBy], fun x => by simp [List.eraseRepsBy, ← hmem]⟩
  | cons a as =>
    intro hsorted hmem
    obtain ⟨h1, h2⟩ := eraseReps_loop hsorted (List.pairwise_singleton (· > ·) a)
    exact ⟨h1, fun x => by rw [← hmem]; simpa [List.eraseRepsBy] using h2 x⟩

theorem pairwise_sortIds (ids : List Int) : (sortIds ids).Pairwise (· < ·) := (sortIds_spec ids).1

@[simp] theorem mem_sortIds : x ∈ sortIds ids ↔ x ∈ ids := (sortIds_spec ids).2 x

@[simp] theorem sortIds_nil : sortIds [] = [] :=
  List.eq_nil_iff_forall_not_mem.mpr fun _ h => List.not_mem_nil (mem_sortIds.mp h)

/-- Sorted ids show which ids there are and nothing else. -/
theorem sortIds_congr (h : ∀ x, x ∈ ids ↔ x ∈ moved) : sortIds ids = sortIds moved :=
  (pairwise_sortIds ids).eq_of_mem_iff (pairwise_sortIds moved) fun x => by simpa using h x

theorem nodup_sortIds (ids : List Int) : (sortIds ids).Nodup :=
  (pairwise_sortIds ids).imp fun h => Int.ne_of_lt h

theorem mem_successors :
    t ∈ g.successors id kind ↔
      ∃ edge ∈ g.edges, edge.source = id ∧ edge.kind = kind ∧ edge.target = t := by
  simp [successors, and_assoc]

end FlowTally.Graph
