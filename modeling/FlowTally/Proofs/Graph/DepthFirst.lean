import FlowTally.Proofs.Graph.Subtree
import Mathlib.Data.Finset.Card
import Mathlib.Data.List.Permutation

/-!
# Syntax trees searched depth first

`descendants` goes down a syntax tree in rounds. A `Descent` goes depth first: it
takes the latest node that was found, and puts the children that are new on top
of those that still have to wait. It ends on every graph, since a node waits at
most once (`cost_meet`), and what it has found by then is what lies below the
root (`descend_spec`), so both searches give the same types.
-/

namespace FlowTally.Graph

/-- A search below a root: nodes that wait to be expanded, the next one first, and the nodes found
so far. -/
structure Descent where
  waiting : List Int
  found : List Int

namespace Descent

def meet (root : Int) (d : Descent) (child : Int) : Descent :=
  if child = root ∨ child ∈ d.found then d else ⟨child :: d.waiting, d.found ++ [child]⟩

def expand (g : Graph) (root id : Int) (d : Descent) : Descent :=
  (g.successors id .isAstParent).foldl (meet root) d

def missing (g : Graph) (d : Descent) : Finset Int :=
  (g.edges.map (·.target)).toFinset \ d.found.toFinset

def cost (g : Graph) (d : Descent) : Nat := (d.missing g).card + d.waiting.length

variable {g : Graph} {root id child x : Int} {d : Descent} {children : List Int}

theorem missing_concat (g : Graph) (d : Descent) (child : Int) (waiting : List Int) :
    missing g ⟨waiting, d.found ++ [child]⟩ = (d.missing g).erase child := by
  ext x
  simp only [missing, Finset.mem_sdiff, List.mem_toFinset, List.mem_append, List.mem_singleton,
    Finset.mem_erase]
  tauto

theorem cost_meet (root : Int) (h : child ∈ g.edges.map (·.target)) (d : Descent) :
    (d.meet root child).cost g ≤ d.cost g := by
  unfold meet
  split
  · exact Nat.le_refl _
  · rename_i hnew
    have hmissing : child ∈ d.missing g := by
      have hfound : child ∉ d.found := fun hf => hnew (.inr hf)
      simp only [missing, Finset.mem_sdiff, List.mem_toFinset]
      exact ⟨h, hfound⟩
    have hcard := Finset.card_erase_add_one hmissing
    simp only [cost, missing_concat, List.length_cons]
    omega

theorem cost_foldl_meet (root : Int) (h : ∀ child ∈ children, child ∈ g.edges.map (·.target))
    (d : Descent) : (children.foldl (meet root) d).cost g ≤ d.cost g := by
  induction children generalizing d with
  | nil => exact Nat.le_refl _
  | cons child rest ih =>
    obtain ⟨hchild, hrest⟩ := List.forall_mem_cons.mp h
    exact Nat.le_trans (ih hrest (d.meet root child)) (cost_meet root hchild d)

theorem cost_expand (g : Graph) (root id : Int) (d : Descent) :
    (d.expand g root id).cost g ≤ d.cost g := by
  refine cost_foldl_meet root (fun child hc => ?_) d
  obtain ⟨edge, he, -, -, rfl⟩ := mem_successors.mp hc
  exact List.mem_map_of_mem he

def finish (g : Graph) (root : Int) (d : Descent) : List Int :=
  match d with
  | ⟨[], found⟩ => found
  | ⟨id :: rest, found⟩ => finish g root (expand g root id ⟨rest, found⟩)
termination_by d.cost g
decreasing_by
  refine Nat.lt_of_le_of_lt (cost_expand g root id ⟨rest, found⟩) ?_
  simp only [cost, missing, List.length_cons]
  omega

-- ---------------------------------------------------------------------------
-- One expansion
-- ---------------------------------------------------------------------------

theorem mem_found_foldl :
    x ∈ (children.foldl (meet root) d).found ↔ x ∈ d.found ∨ x ∈ children ∧ x ≠ root := by
  induction children generalizing d with
  | nil => simp
  | cons child rest ih =>
    rw [List.foldl_cons, ih, meet]
    split
    · rename_i hold
      simp only [List.mem_cons]
      grind
    · rename_i hnew
      simp only [List.mem_append, List.mem_cons]
      grind

theorem mem_waiting_foldl :
    x ∈ (children.foldl (meet root) d).waiting ↔
      x ∈ d.waiting ∨ (x ∈ children ∧ x ≠ root) ∧ x ∉ d.found := by
  induction children generalizing d with
  | nil => simp
  | cons child rest ih =>
    rw [List.foldl_cons, ih, meet]
    split
    · rename_i hold
      simp only [List.mem_cons]
      grind
    · rename_i hnew
      simp only [List.mem_append, List.mem_cons]
      grind

theorem nodup_found_foldl (h : d.found.Nodup) : (children.foldl (meet root) d).found.Nodup := by
  induction children generalizing d with
  | nil => exact h
  | cons child rest ih =>
    refine ih ?_
    unfold meet
    split
    · exact h
    · rename_i hnew
      have hfound : child ∉ d.found := fun hf => hnew (.inr hf)
      exact h.append (List.nodup_singleton child) (by simpa using hfound)

/-- What holds between two expansions: nodes found are below the root and found once, only they and
the root can wait, and one that does not wait has all its children found. -/
structure Sound (g : Graph) (root : Int) (d : Descent) : Prop where
  once : d.found.Nodup
  below : ∀ x ∈ d.found, g.IsDescendant root x
  waits : ∀ x ∈ d.waiting, x = root ∨ x ∈ d.found
  expanded : ∀ x, x = root ∨ x ∈ d.found → x ∉ d.waiting →
    ∀ child, g.AstChild x child → child = root ∨ child ∈ d.found

theorem sound_start (g : Graph) (root : Int) : Sound g root ⟨[root], []⟩ := by
  refine ⟨List.nodup_nil, by simp, by simp, fun x hx hnot => ?_⟩
  have hroot : x = root := by simpa using hx
  simp [hroot] at hnot

theorem Sound.expand {rest found : List Int} (h : Sound g root ⟨id :: rest, found⟩) :
    Sound g root (Descent.expand g root id ⟨rest, found⟩) := by
  have hfound (x : Int) : x ∈ (Descent.expand g root id ⟨rest, found⟩).found ↔
      x ∈ found ∨ g.AstChild id x ∧ x ≠ root := by
    rw [Descent.expand, mem_found_foldl, mem_successors, AstChild]
  have hwaiting (x : Int) : x ∈ (Descent.expand g root id ⟨rest, found⟩).waiting ↔
      x ∈ rest ∨ (g.AstChild id x ∧ x ≠ root) ∧ x ∉ found := by
    rw [Descent.expand, mem_waiting_foldl, mem_successors, AstChild]
  refine ⟨nodup_found_foldl h.once, fun x hx => ?_, fun x hx => ?_, fun x hx hnot child hc => ?_⟩
  · rcases (hfound x).mp hx with hx | ⟨hc, hne⟩
    · exact h.below x hx
    · rcases h.waits id (List.mem_cons_self ..) with rfl | hid
      · exact ⟨hne, .single hc⟩
      · exact ⟨hne, (h.below id hid).2.tail hc⟩
  · rw [hfound]
    rcases (hwaiting x).mp hx with hx | ⟨hx, -⟩
    · exact (h.waits x (List.mem_cons_of_mem _ hx)).imp_right .inl
    · exact .inr (.inr hx)
  · rw [hwaiting, not_or] at hnot
    rw [hfound] at hx ⊢
    -- A node found just now would wait, so this one is the expanded node or an older one.
    have hold : x = root ∨ x ∈ found := by tauto
    by_cases hid : x = id
    · subst hid
      exact or_iff_not_imp_left.mpr fun hne => .inr ⟨hc, hne⟩
    · have hnot : x ∉ id :: rest := by simp [hid, hnot.1]
      exact (h.expanded x hold hnot child hc).imp_right .inl

-- ---------------------------------------------------------------------------
-- Whole descents
-- ---------------------------------------------------------------------------

theorem Sound.finish (h : Sound g root d) : Sound g root ⟨[], d.finish g root⟩ := by
  fun_induction Descent.finish g root d with
  | case1 found => exact h
  | case2 id rest found ih => exact ih h.expand

/-- When no node waits, all below the root is found. -/
theorem Sound.mem_iff {found : List Int} (h : Sound g root ⟨[], found⟩) :
    x ∈ found ↔ g.IsDescendant root x := by
  constructor
  · exact h.below x
  · rintro ⟨hne, hpath⟩
    have hreached : x = root ∨ x ∈ found := by
      clear hne
      induction hpath with
      | single hc => exact h.expanded root (.inl rfl) List.not_mem_nil _ hc
      | tail _ hc ih => exact h.expanded _ ih List.not_mem_nil _ hc
    exact hreached.resolve_left hne

end Descent

variable {g : Graph}

/-- Ids below a node, in the order in which a descent finds them. -/
def descend (g : Graph) (root : Int) : List Int := Descent.finish g root ⟨[root], []⟩

def depthFirstTypes (g : Graph) (root : Int) : List String :=
  ((g.descend root).mergeSort fun a b => decide (a ≤ b)).filterMap fun id =>
    (g.node? id).map (·.type)

theorem descend_spec (g : Graph) (root : Int) :
    (g.descend root).Nodup ∧ ∀ x, x ∈ g.descend root ↔ g.IsDescendant root x := by
  have hsound := (Descent.sound_start g root).finish
  exact ⟨hsound.once, fun x => hsound.mem_iff⟩

/-- By id, both searches list the same nodes. -/
theorem sort_descend (hg : g.WellFormed) (root : Int) :
    ((g.descend root).mergeSort fun a b => decide (a ≤ b)) = g.descendants root := by
  obtain ⟨honce, hmem⟩ := descend_spec g root
  have hnodup : ((g.descend root).mergeSort fun a b => decide (a ≤ b)).Nodup :=
    (List.mergeSort_perm ..).nodup_iff.mpr honce
  have hsorted : ((g.descend root).mergeSort fun a b => decide (a ≤ b)).Pairwise (· < ·) :=
    ((pairwise_mergeSort_key id _).and hnodup).imp fun h => Int.lt_iff_le_and_ne.mpr h
  refine hsorted.eq_of_mem_iff (pairwise_sortIds _) fun x => ?_
  rw [List.mem_mergeSort, hmem]
  exact (mem_descendants hg).symm

theorem depthFirstTypes_eq (hg : g.WellFormed) (root : Int) :
    g.depthFirstTypes root = g.subtreeTypes root := by
  rw [depthFirstTypes, sort_descend hg, subtreeTypes]

/-- A question about what is no node fails. The answer for a node are the types of the nodes below
it, each once and by id, and a depth-first search, which ends on every graph, gives the same. -/
theorem astTypes_answers (hg : g.Built) (id : Int) :
    ((∃ e, g.astTypes id = .error e) ↔ ∀ node ∈ g.nodes, node.id ≠ id) ∧
      (∀ types, g.astTypes id = .ok types ↔
        (∃ node ∈ g.nodes, node.id = id) ∧ g.IsSubtreeTypes id types) ∧
      (g.require id).map (fun _ => g.depthFirstTypes id) = g.astTypes id := by
  refine ⟨require_map_error, fun types => ?_, ?_⟩
  · rw [astTypes, require_map_ok, isSubtreeTypes_iff hg.wellFormed, eq_comm (a := types)]
  · rw [astTypes, depthFirstTypes_eq hg.wellFormed]

def tangledTree : Graph where
  nodes := [{ id := 7, type := "Condition" }, { id := 9, type := "Identifier" },
    { id := 8, type := "RelationalExpression" }, { id := 5, type := "Comment" }]
  edges := [⟨7, 9, .isAstParent⟩, ⟨7, 8, .isAstParent⟩, ⟨7, 9, .isAstParent⟩, ⟨8, 9, .isAstParent⟩,
    ⟨9, 7, .isAstParent⟩, ⟨8, 8, .isAstParent⟩, ⟨7, 5, .flowsTo⟩]

theorem astTypes_answers_tangledTree :
    tangledTree.Built ∧ (∃ e, tangledTree.astTypes 404 = .error e) ∧
      tangledTree.astTypes 7 = .ok ["RelationalExpression", "Identifier"] ∧
      tangledTree.IsSubtreeTypes 7 ["RelationalExpression", "Identifier"] := by
  have hb : tangledTree.Built :=
    built_of_ofSnapshot (s := ⟨tangledTree.nodes, tangledTree.edges⟩) rfl
  have htypes : tangledTree.astTypes 7 = .ok ["RelationalExpression", "Identifier"] := by cbv
  exact ⟨hb, (astTypes_answers hb 404).1.mpr (by decide), htypes,
    (((astTypes_answers hb 7).2.1 _).mp htypes).2⟩

end FlowTally.Graph
