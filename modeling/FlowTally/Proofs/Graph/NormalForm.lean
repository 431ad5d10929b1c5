import FlowTally.Proofs.Graph.Snapshot
import Mathlib.Data.Prod.Lex
import Mathlib.Data.String.Basic

/-!
# Snapshots in normal form

The snapshot of a graph has its nodes by id and its edges by source, target and
kind (`normalizes_snapshot`). Ids tell nodes apart and keys tell edges apart,
equal edges aside, so a snapshot has one normal form (`Normalizes.unique`). It
does not show in which order nodes and edges came, and a graph that is built
from it has it again.
-/

namespace FlowTally

def EdgeKind.key : EdgeKind → Nat ×ₗ String
  | .flowsTo => toLex (0, "")
  | .reaches => toLex (1, "")
  | .controls => toLex (2, "")
  | .isAstParent => toLex (3, "")
  | .isParentDirOf => toLex (4, "")
  | .isFileOf => toLex (5, "")
  | .isFunctionOfCfg => toLex (6, "")
  | .other name => toLex (7, name)

def Edge.key (edge : Edge) : Int ×ₗ Int ×ₗ Nat ×ₗ String :=
  toLex (edge.source, toLex (edge.target, edge.kind.key))

/-- The nodes of a snapshot by id and its edges by their keys, all of them. -/
structure Snapshot.Normalizes (normal s : Snapshot) : Prop where
  nodes : normal.nodes.Perm s.nodes
  edges : normal.edges.Perm s.edges
  byId : normal.nodes.Pairwise (·.id < ·.id)
  byKey : normal.edges.Pairwise (·.key ≤ ·.key)

-- ---------------------------------------------------------------------------
-- Order of edges
-- ---------------------------------------------------------------------------

theorem EdgeKind.key_injective : Function.Injective EdgeKind.key := by
  intro a b h
  cases a <;> cases b <;> simp_all [EdgeKind.key]

theorem EdgeKind.rank_eq (kind : EdgeKind) : kind.rank = (ofLex kind.key).1 := by
  cases kind <;> rfl

theorem EdgeKind.le_iff (a b : EdgeKind) : a.le b = true ↔ a.key ≤ b.key := by
  simp only [le, Bool.or_eq_true, Bool.and_eq_true, decide_eq_true_eq, beq_iff_eq, rank_eq]
  cases a <;> cases b <;> simp [key, name, Prod.Lex.le_iff]

namespace Edge

variable {a b : Edge}

theorem key_injective : Function.Injective Edge.key := by
  rintro ⟨source, target, kind⟩ ⟨source', target', kind'⟩ h
  simp only [key, EmbeddingLike.apply_eq_iff_eq, Prod.mk.injEq] at h
  rw [h.1, h.2.1, EdgeKind.key_injective h.2.2]

theorem le_iff : a.le b = true ↔ a.key ≤ b.key := by
  simp only [le, key, EdgeKind.le_iff, Prod.Lex.toLex_le_toLex, Bool.or_eq_true, Bool.and_eq_true,
    decide_eq_true_eq, beq_iff_eq]

theorem le_eq : Edge.le = fun a b => decide (a.key ≤ b.key) := by
  funext a b
  exact Bool.eq_iff_iff.mpr (le_iff.trans decide_eq_true_iff.symm)

end Edge

-- ---------------------------------------------------------------------------
-- Normal forms
-- ---------------------------------------------------------------------------

variable {g : Graph} {s moved normal normal' : Snapshot}

theorem Snapshot.Normalizes.unique (h : normal.Normalizes s) (h' : normal'.Normalizes moved)
    (hnodes : s.nodes.Perm moved.nodes) (hedges : s.edges.Perm moved.edges) : normal = normal' := by
  have hn : normal.nodes = normal'.nodes := by
    refine List.Perm.eq_of_pairwise (fun a b _ _ hab hba => absurd hab (Int.lt_asymm hba)) h.byId
      h'.byId ?_
    exact (h.nodes.trans hnodes).trans h'.nodes.symm
  have he : normal.edges = normal'.edges := by
    refine List.Perm.eq_of_pairwise (fun a b _ _ hab hba => ?_) h.byKey h'.byKey ?_
    · exact Edge.key_injective (le_antisymm hab hba)
    · exact (h.edges.trans hedges).trans h'.edges.symm
  obtain ⟨nodes, edges⟩ := normal
  cases hn
  cases he
  rfl

namespace Graph

theorem normalizes_snapshot (hg : g.WellFormed) : g.snapshot.Normalizes ⟨g.nodes, g.edges⟩ := by
  have hdistinct : (g.snapshot.nodes.map (·.id)).Nodup :=
    ((List.mergeSort_perm ..).map _).nodup_iff.mpr hg.distinct
  refine ⟨List.mergeSort_perm .., List.mergeSort_perm .., ?_, ?_⟩
  · have hsorted := pairwise_mergeSort_key (fun node : Node => node.id) g.nodes
    exact (hsorted.and (List.pairwise_map.mp hdistinct)).imp fun h => Int.lt_iff_le_and_ne.mpr h
  · rw [snapshot, Edge.le_eq]
    exact pairwise_mergeSort_key Edge.key g.edges

theorem normalizes_of_ofSnapshot (h : ofSnapshot s = .ok g) : g.snapshot.Normalizes s := by
  have hg := (built_of_ofSnapshot h).wellFormed
  obtain ⟨-, rfl⟩ := ofSnapshot_ok.mp h
  exact normalizes_snapshot hg

theorem snapshot_of_perm (h : ofSnapshot s = .ok g) (hnodes : s.nodes.Perm moved.nodes)
    (hedges : s.edges.Perm moved.edges) : (ofSnapshot moved).map snapshot = .ok g.snapshot := by
  obtain ⟨hfits, -⟩ := ofSnapshot_ok.mp h
  have hfits' : moved.Fits :=
    hfits.congr hnodes fun edge he => ⟨edge, hedges.mem_iff.mpr he, rfl, rfl⟩
  have hmoved : ofSnapshot moved = .ok ⟨moved.nodes, moved.edges⟩ := ofSnapshot_ok.mpr ⟨hfits', rfl⟩
  have hsame := (normalizes_of_ofSnapshot hmoved).unique (normalizes_of_ofSnapshot h) hnodes.symm
    hedges.symm
  rw [hmoved, ← hsame]
  rfl

theorem snapshot_snapshot (h : ofSnapshot s = .ok g) :
    (ofSnapshot g.snapshot).map snapshot = .ok g.snapshot :=
  have hnormal := normalizes_of_ofSnapshot h
  snapshot_of_perm h hnormal.nodes.symm hnormal.edges.symm

end Graph

end FlowTally
