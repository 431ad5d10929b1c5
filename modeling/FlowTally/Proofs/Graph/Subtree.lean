import FlowTally.Proofs.Graph.Built
import Mathlib.Data.List.Perm.Subperm
import Mathlib.Logic.Relation

/-!
# Syntax trees below a node

`subtreeTypes_spec`: in a well-formed graph the types below a node are those of
exactly the nodes, other than the node itself, that one or more syntax tree
edges lead to, each once and in the order of their ids. Cycles and shared
children are allowed.

The search goes in rounds. Every round but the last one finds a node that was
not seen before, so one round more than there are nodes is enough.
-/

namespace FlowTally.Graph

def AstChild (g : Graph) (parent child : Int) : Prop :=
  ∃ edge ∈ g.edges, edge.source = parent ∧ edge.kind = .isAstParent ∧ edge.target = child

/-- The second node lies below the first one in the syntax tree. -/
def IsDescendant (g : Graph) (root below : Int) : Prop :=
  below ≠ root ∧ Relation.TransGen g.AstChild root below

/-- `types` are those of the nodes below `root`, each node once and by id. -/
def IsSubtreeTypes (g : Graph) (root : Int) (types : List String) : Prop :=
  ∃ nodes : List Node, nodes.Pairwise (·.id < ·.id) ∧
    (∀ node, node ∈ nodes ↔ node ∈ g.nodes ∧ g.IsDescendant root node.id) ∧
    types = nodes.map (·.type)

-- ---------------------------------------------------------------------------
-- Rounds of a search
-- ---------------------------------------------------------------------------

section
variable {next : Int → List Int} {ids seen frontier : List Int} {x y : Int} {P : Int → Prop}

/-- What a round adds to the ids that were seen. -/
def unseen (next : Int → List Int) (seen frontier : List Int) : List Int :=
  (sortIds (frontier.flatMap next)).filter fun id => !seen.contains id

theorem mem_unseen : x ∈ unseen next seen frontier ↔ (∃ z ∈ frontier, x ∈ next z) ∧ x ∉ seen := by
  simp [unseen, mem_sortIds]

theorem nodup_unseen : (unseen next seen frontier).Nodup := (nodup_sortIds _).filter _

theorem closure_succ (fuel : Nat) :
    closure next (fuel + 1) seen frontier =
      if (unseen next seen frontier).isEmpty then seen
      else closure next fuel (seen ++ unseen next seen frontier) (unseen next seen frontier) := rfl

theorem mem_closure_of_mem (fuel : Nat) (hx : x ∈ seen) : x ∈ closure next fuel seen frontier := by
  induction fuel generalizing seen frontier with
  | zero => exact hx
  | succ fuel ih =>
    rw [closure_succ]
    split
    · exact hx
    · exact ih (List.mem_append_left _ hx)

/-- What `next` keeps true of everything found so far is true of all that is found. -/
theorem closure_sound (fuel : Nat) (hseen : ∀ x ∈ seen, P x)
    (hfrontier : ∀ x ∈ frontier, ∀ y ∈ next x, P y) (hnext : ∀ x, P x → ∀ y ∈ next x, P y) :
    ∀ x ∈ closure next fuel seen frontier, P x := by
  induction fuel generalizing seen frontier with
  | zero => exact hseen
  | succ fuel ih =>
    rw [closure_succ]
    split
    · exact hseen
    · have hfresh : ∀ x ∈ unseen next seen frontier, P x := by
        intro x hx
        obtain ⟨⟨z, hz, hxz⟩, -⟩ := mem_unseen.mp hx
        exact hfrontier z hz x hxz
      refine ih (fun x hx => ?_) (fun x hx => hnext x (hfresh x hx))
      rcases List.mem_append.mp hx with hx | hx
      · exact hseen x hx
      · exact hfresh x hx

/-- Between two rounds, only ids of the frontier can have successors that were not seen. -/
structure Explored (next : Int → List Int) (ids seen frontier : List Int) : Prop where
  nodup : seen.Nodup
  inside : seen ⊆ ids
  done : ∀ x ∈ seen, x ∉ frontier → ∀ y ∈ next x, y ∈ seen

theorem mem_append_unseen (hx : x ∈ frontier) (hy : y ∈ next x) :
    y ∈ seen ++ unseen next seen frontier := by
  by_cases hs : y ∈ seen
  · exact List.mem_append_left _ hs
  · exact List.mem_append_right _ (mem_unseen.mpr ⟨⟨x, hx, hy⟩, hs⟩)

theorem Explored.successor (h : Explored next ids seen frontier) (hx : x ∈ frontier ∨ x ∈ seen)
    (hy : y ∈ next x) : y ∈ seen ++ unseen next seen frontier := by
  by_cases hf : x ∈ frontier
  · exact mem_append_unseen hf hy
  · exact List.mem_append_left _ (h.done x (hx.resolve_left hf) hf y hy)

theorem Explored.round (h : Explored next ids seen frontier) (hids : ∀ x, next x ⊆ ids) :
    Explored next ids (seen ++ unseen next seen frontier) (unseen next seen frontier) := by
  refine ⟨List.nodup_append.mpr ⟨h.nodup, nodup_unseen, ?_⟩, List.append_subset.mpr ⟨h.inside, ?_⟩,
    fun x hx hf y hy => h.successor (.inr ((List.mem_append.mp hx).resolve_right hf)) hy⟩
  · rintro x hx y hy rfl
    exact (mem_unseen.mp hy).2 hx
  · intro x hx
    obtain ⟨⟨z, -, hxz⟩, -⟩ := mem_unseen.mp hx
    exact hids z hxz

/-- With more rounds than there are ids left to see, all that is found has its successors among
what is found. -/
theorem closure_closed (fuel : Nat) (hids : ∀ x, next x ⊆ ids)
    (h : Explored next ids seen frontier) (hfuel : ids.length < fuel + seen.length) :
    ∀ x, x ∈ frontier ∨ x ∈ closure next fuel seen frontier →
      ∀ y ∈ next x, y ∈ closure next fuel seen frontier := by
  induction fuel generalizing seen frontier with
  | zero =>
    have hle : seen.length ≤ ids.length := (h.nodup.subperm h.inside).length_le
    omega
  | succ fuel ih =>
    rw [closure_succ]
    split
    · rename_i hempty
      intro x hx y hy
      have hfound := h.successor hx hy
      rwa [List.isEmpty_iff.mp hempty, List.append_nil] at hfound
    · rename_i hmore
      have hpos : 0 < (unseen next seen frontier).length :=
        List.length_pos_iff.mpr (by simpa using hmore)
      rintro x (hx | hx) y hy
      · exact mem_closure_of_mem fuel (mem_append_unseen hx hy)
      · exact ih (h.round hids) (by rw [List.length_append]; omega) x (.inr hx) y hy

end

-- ---------------------------------------------------------------------------
-- Descendants
-- ---------------------------------------------------------------------------

variable {g : Graph} {root below : Int}

theorem mem_descendants (hg : g.WellFormed) :
    below ∈ g.descendants root ↔ g.IsDescendant root below := by
  have hnext (x y : Int) : y ∈ (g.successors x .isAstParent).filter (fun child => child != root) ↔
      g.AstChild x y ∧ y ≠ root := by
    simp [mem_successors, AstChild]
  rw [descendants, mem_sortIds]
  constructor
  · refine closure_sound (P := g.IsDescendant root) _ (by simp) ?_ ?_ below
    · intro x hx y hy
      obtain rfl := List.mem_singleton.mp hx
      obtain ⟨hc, hne⟩ := (hnext x y).mp hy
      exact ⟨hne, .single hc⟩
    · rintro x ⟨-, hx⟩ y hy
      obtain ⟨hc, hne⟩ := (hnext x y).mp hy
      exact ⟨hne, hx.tail hc⟩
  · rintro ⟨hne, hpath⟩
    have hids : ∀ x, ∀ y ∈ (g.successors x .isAstParent).filter (fun child => child != root),
        y ∈ g.nodes.map (·.id) := by
      intro x y hy
      obtain ⟨⟨edge, he, -, -, rfl⟩, -⟩ := (hnext x y).mp hy
      exact hasNode_iff.mp (hg.target edge he)
    have hclosed := closure_closed (g.nodes.length + 1) hids
      (⟨List.nodup_nil, List.nil_subset _, nofun⟩ : Explored _ _ [] [root]) (by simp)
    -- Every node on the way is the root again or was found.
    have hall : ∀ x, Relation.TransGen g.AstChild root x → x = root ∨ x ∈
        closure (fun id => (g.successors id .isAstParent).filter fun child => child != root)
          (g.nodes.length + 1) [] [root] := by
      intro x hx
      induction hx with
      | single hc =>
        refine or_iff_not_imp_left.mpr fun hne => ?_
        exact hclosed root (.inl (List.mem_singleton_self root)) _ ((hnext _ _).mpr ⟨hc, hne⟩)
      | tail _ hc ih =>
        refine or_iff_not_imp_left.mpr fun hne => ?_
        exact hclosed _ (ih.imp_left fun h => h ▸ List.mem_singleton_self root) _
          ((hnext _ _).mpr ⟨hc, hne⟩)
    exact (hall below hpath).resolve_left hne

/-- Below a node are nodes only. -/
theorem IsDescendant.hasNode (h : g.IsDescendant root below) (hg : g.WellFormed) :
    g.hasNode below = true := by
  obtain ⟨_, -, edge, he, -, -, rfl⟩ := Relation.TransGen.tail'_iff.mp h.2
  exact hg.target edge he

theorem subtreeTypes_spec (hg : g.WellFormed) (root : Int) :
    g.IsSubtreeTypes root (g.subtreeTypes root) := by
  refine ⟨(g.descendants root).filterMap g.node?, ?_, fun node => ?_, ?_⟩
  · rw [List.pairwise_filterMap]
    refine (pairwise_sortIds _).imp fun hab a ha b hb => ?_
    rwa [((node?_eq_some hg).mp ha).2, ((node?_eq_some hg).mp hb).2]
  · simp only [List.mem_filterMap, mem_descendants hg, node?_eq_some hg]
    constructor
    · rintro ⟨id, hd, hn, rfl⟩
      exact ⟨hn, hd⟩
    · rintro ⟨hn, hd⟩
      exact ⟨node.id, hd, hn, rfl⟩
  · simp [subtreeTypes, List.map_filterMap]

theorem IsSubtreeTypes.unique {types types' : List String} (h : g.IsSubtreeTypes root types)
    (h' : g.IsSubtreeTypes root types') : types = types' := by
  obtain ⟨nodes, hsorted, hm, rfl⟩ := h
  obtain ⟨nodes', hsorted', hm', rfl⟩ := h'
  have hnodup {ns : List Node} (hs : ns.Pairwise (·.id < ·.id)) : ns.Nodup := by
    refine hs.imp fun {a b} hlt => ?_
    rintro rfl
    exact Int.lt_irrefl _ hlt
  have hperm : nodes.Perm nodes' :=
    (List.perm_ext_iff_of_nodup (hnodup hsorted) (hnodup hsorted')).mpr fun node =>
      (hm node).trans (hm' node).symm
  rw [hperm.eq_of_pairwise (fun a b _ _ hab hba => absurd hab (Int.lt_asymm hba)) hsorted hsorted']

theorem isSubtreeTypes_iff (hg : g.WellFormed) {types : List String} :
    g.IsSubtreeTypes root types ↔ types = g.subtreeTypes root := by
  constructor
  · intro h
    exact h.unique (subtreeTypes_spec hg root)
  · rintro rfl
    exact subtreeTypes_spec hg root

theorem subtreeTypes_isEmpty (hg : g.WellFormed) :
    (g.subtreeTypes root).isEmpty = false ↔ ∃ below, g.IsDescendant root below := by
  obtain ⟨nodes, -, hm, htypes⟩ := subtreeTypes_spec hg root
  rw [htypes, List.isEmpty_eq_false_iff_exists_mem]
  constructor
  · rintro ⟨type, ht⟩
    obtain ⟨node, hn, -⟩ := List.mem_map.mp ht
    exact ⟨node.id, ((hm node).mp hn).2⟩
  · rintro ⟨below, hb⟩
    obtain ⟨node, hn, rfl⟩ := List.mem_map.mp (hasNode_iff.mp (hb.hasNode hg))
    exact ⟨node.type, List.mem_map_of_mem ((hm node).mpr ⟨hn, hb⟩)⟩

end FlowTally.Graph
