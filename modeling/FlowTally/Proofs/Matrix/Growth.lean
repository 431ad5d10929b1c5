import FlowTally.Matrix.Basic
import FlowTally.Text.Natural
import Mathlib.Algebra.Group.Nat.Defs
import Mathlib.Order.Bounds.Basic
import Mathlib.Logic.Relation

/-!
# Growth of an axis

An axis has a logical size and a capacity, and every index that is addressed may make both
grow. `Covers` says what they are for the set of all indices that were addressed, whatever
their order (`Covers.insert`, `Covers.unique`). The capacity is found by doubling, and no
doubling passes 64 bits as long as the indices are below `2^63` (`Covers.findsCapacity`). A
list has room for the rows up to a capacity of `rowBound`, so for the rows before that
(`Covers.hasRoom_iff`).
-/

namespace FlowTally.CountMatrix

open Text.Natural (bound64)

abbrev indexBound : Nat := 9223372036854775808

/-- One more than the largest row for which there is room. -/
abbrev rowBound : Nat := 288230376151711744

/-- A number that doubling leads to. -/
def IsCapacity (n : Nat) : Prop := ∃ k, n = 8 * 2 ^ k

/-- Size and capacity of an axis on which just these indices have been addressed. -/
structure Covers (addressed : Set Nat) (size capacity : Nat) : Prop where
  size : addressed = ∅ ∧ size = 0 ∨ ∃ last, IsGreatest addressed last ∧ size = last + 1
  capacity : IsLeast {n | IsCapacity n ∧ ∀ index ∈ addressed, index < n} capacity

def Doubles (index capacity next : Nat) : Prop := capacity ≤ index ∧ next = 2 * capacity

/-- The loop ends with a capacity that covers the index, and each capacity on the way has 64
bits. -/
structure FindsCapacity (capacity index : Nat) : Prop where
  ends : Relation.ReflTransGen (Doubles index) capacity (grown capacity index)
  covers : index < grown capacity index
  bounded : ∀ n, Relation.ReflTransGen (Doubles index) capacity n → n < bound64

variable {addressed : Set Nat} {matrix : CountMatrix}
  {size capacity size' capacity' index row m n : Nat}

-- ---------------------------------------------------------------------------
-- Doubling
-- ---------------------------------------------------------------------------

theorem IsCapacity.pos (h : IsCapacity n) : 0 < n := by
  obtain ⟨k, rfl⟩ := h
  exact Nat.mul_pos (by decide) (Nat.two_pow_pos k)

theorem IsCapacity.two_mul (h : IsCapacity n) : IsCapacity (2 * n) := by
  obtain ⟨k, rfl⟩ := h
  exact ⟨k + 1, by rw [Nat.pow_succ, Nat.mul_left_comm, Nat.mul_comm 2]⟩

theorem IsCapacity.two_mul_le (hm : IsCapacity m) (hn : IsCapacity n) (h : m < n) : 2 * m ≤ n := by
  obtain ⟨j, rfl⟩ := hm
  obtain ⟨k, rfl⟩ := hn
  have hpow : 2 ^ j < 2 ^ k := Nat.lt_of_mul_lt_mul_left h
  have hjk : j + 1 ≤ k := (Nat.pow_lt_pow_iff_right (by decide)).mp hpow
  have hle : 2 ^ (j + 1) ≤ 2 ^ k := Nat.pow_le_pow_right (by decide) hjk
  rw [Nat.pow_succ] at hle
  omega

theorem grown_of_lt (h : index < capacity) : grown capacity index = capacity := by
  rw [grown, if_pos (.inr h)]

theorem isLeast_grown (hc : IsCapacity capacity) (index : Nat) :
    IsLeast {n | IsCapacity n ∧ capacity ≤ n ∧ index < n} (grown capacity index) := by
  fun_induction grown capacity index with
  | case1 capacity hstop =>
    have hlt : index < capacity := hstop.resolve_left hc.pos.ne'
    exact ⟨⟨hc, Nat.le_refl _, hlt⟩, fun n hn => hn.2.1⟩
  | case2 capacity hgo ih =>
    have hle : capacity ≤ index := Nat.not_lt.mp fun hlt => hgo (.inr hlt)
    obtain ⟨⟨hcapacity, hdouble, hindex⟩, hleast⟩ := ih hc.two_mul
    refine ⟨⟨hcapacity, by omega, hindex⟩, fun n ⟨hn, _, hlt⟩ => hleast ⟨hn, ?_, hlt⟩⟩
    exact hc.two_mul_le hn (Nat.lt_of_le_of_lt hle hlt)

theorem ends_grown (hpos : 0 < capacity) (index : Nat) :
    Relation.ReflTransGen (Doubles index) capacity (grown capacity index) := by
  fun_induction grown capacity index with
  | case1 capacity _ => exact .refl
  | case2 capacity hgo ih =>
    have hle : capacity ≤ index := Nat.not_lt.mp fun hlt => hgo (.inr hlt)
    exact .head ⟨hle, rfl⟩ (ih (by omega))

/-- What is doubled does not cover the index, so twice the index is never passed. -/
theorem lt_bound64_of_doubles (hcapacity : capacity < bound64) (hindex : index < indexBound)
    (h : Relation.ReflTransGen (Doubles index) capacity n) : n < bound64 := by
  cases h with
  | refl => exact hcapacity
  | tail _ hlast =>
    obtain ⟨hle, rfl⟩ := hlast
    unfold bound64 indexBound at *
    omega

-- ---------------------------------------------------------------------------
-- Room for rows
-- ---------------------------------------------------------------------------

theorem isCapacity_rowBound : IsCapacity rowBound := ⟨55, by decide⟩

/-- The next capacity takes more bytes than a list may. -/
theorem IsCapacity.fitsList_iff (h : IsCapacity n) : fitsList n 24 = true ↔ n ≤ rowBound := by
  rw [fitsList, decide_eq_true_iff]
  constructor
  · intro hfits
    by_contra hmore
    have hdouble := isCapacity_rowBound.two_mul_le h (Nat.not_le.mp hmore)
    unfold listBound rowBound at *
    omega
  · intro hle
    unfold listBound rowBound at *
    omega

theorem IsCapacity.grown_le_iff (hm : IsCapacity m) (hn : IsCapacity n) (hle : m ≤ n) :
    grown m index ≤ n ↔ index < n := by
  obtain ⟨⟨-, -, hindex⟩, hleast⟩ := isLeast_grown hm index
  exact ⟨Nat.lt_of_lt_of_le hindex, fun hlt => hleast ⟨hn, hle, hlt⟩⟩

-- ---------------------------------------------------------------------------
-- Addressing
-- ---------------------------------------------------------------------------

theorem covers_empty : Covers ∅ 0 8 := by
  refine ⟨.inl ⟨rfl, rfl⟩, ⟨⟨0, rfl⟩, by simp⟩, ?_⟩
  rintro n ⟨⟨k, rfl⟩, -⟩
  exact Nat.le_mul_of_pos_right 8 (Nat.two_pow_pos k)

theorem Covers.insert (h : Covers addressed size capacity) (index : Nat) :
    Covers (insert index addressed) (max size (index + 1)) (grown capacity index) := by
  obtain ⟨hsize, ⟨hcapacity, hcovers⟩, hleast⟩ := h
  obtain ⟨⟨hgrown, hle, hindex⟩, hgrownLeast⟩ := isLeast_grown hcapacity index
  refine ⟨.inr ?_, ⟨hgrown, fun i hi => ?_⟩, fun n ⟨hn, hall⟩ => hgrownLeast ⟨hn, ?_, ?_⟩⟩
  · rcases hsize with ⟨rfl, rfl⟩ | ⟨last, hlast, rfl⟩
    · refine ⟨index, ?_, Nat.zero_max _⟩
      rw [insert_empty_eq]
      exact isGreatest_singleton
    · exact ⟨max index last, hlast.insert index, by omega⟩
  · rcases Set.mem_insert_iff.mp hi with rfl | hi
    · exact hindex
    · exact Nat.lt_of_lt_of_le (hcovers i hi) hle
  · exact hleast ⟨hn, fun i hi => hall i (Set.mem_insert_of_mem index hi)⟩
  · exact hall index (Set.mem_insert index addressed)

theorem Covers.size_le (h : Covers addressed size capacity) : size ≤ capacity := by
  rcases h.size with ⟨-, rfl⟩ | ⟨last, hlast, rfl⟩
  · exact Nat.zero_le _
  · exact h.capacity.1.2 last hlast.1

theorem Covers.unique (h : Covers addressed size capacity) (h' : Covers addressed size' capacity') :
    size = size' ∧ capacity = capacity' := by
  refine ⟨?_, h.capacity.unique h'.capacity⟩
  rcases h.size with ⟨hempty, rfl⟩ | ⟨last, hlast, rfl⟩
  · rcases h'.size with ⟨-, rfl⟩ | ⟨last', hlast', -⟩
    · rfl
    · rw [hempty] at hlast'
      exact absurd hlast'.1 (Set.notMem_empty last')
  · rcases h'.size with ⟨hempty, -⟩ | ⟨last', hlast', rfl⟩
    · rw [hempty] at hlast
      exact absurd hlast.1 (Set.notMem_empty last)
    · rw [hlast.unique hlast']

theorem Covers.capacity_le (h : Covers addressed size capacity) (hn : IsCapacity n)
    (hsmall : ∀ i ∈ addressed, i < n) : capacity ≤ n := h.capacity.2 ⟨hn, hsmall⟩

theorem Covers.findsCapacity (h : Covers addressed size capacity)
    (hsmall : ∀ i ∈ addressed, i < indexBound) (hindex : index < indexBound) :
    FindsCapacity capacity index := by
  have hcapacity : IsCapacity capacity := h.capacity.1.1
  have hle : capacity ≤ indexBound := h.capacity_le ⟨60, by decide⟩ hsmall
  refine ⟨ends_grown hcapacity.pos index, (isLeast_grown hcapacity index).1.2.2, fun n hn => ?_⟩
  exact lt_bound64_of_doubles (Nat.lt_of_le_of_lt hle (by decide)) hindex hn

theorem Covers.hasRoom_iff (h : Covers addressed matrix.rows matrix.rowCapacity)
    (hsmall : ∀ i ∈ addressed, i < rowBound) : matrix.hasRoom row = true ↔ row < rowBound := by
  have hcapacity : IsCapacity matrix.rowCapacity := h.capacity.1.1
  have hle := h.capacity_le isCapacity_rowBound hsmall
  rw [hasRoom, (isLeast_grown hcapacity row).1.1.fitsList_iff]
  exact hcapacity.grown_le_iff isCapacity_rowBound hle

end FlowTally.CountMatrix
