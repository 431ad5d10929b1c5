import FlowTally.Matrix.Basic
import Mathlib.Data.List.Nodup
import Mathlib.Data.List.Sort

/-!
# Counts in a matrix

Every matrix that operations lead to is *well formed*: its cells stand in
strict row-major order inside the shape, and no count is zero or too large. In
such a matrix a place has one cell at most, so `get` reads back what was added:
`increment_ok` says what an increment that fits does to every place.
-/

namespace FlowTally

def Cell.Before (a b : Cell) : Prop := a.row < b.row ∨ (a.row = b.row ∧ a.column < b.column)

def Cell.At (cell : Cell) (row column : Nat) : Prop := cell.row = row ∧ cell.column = column

instance (cell : Cell) (row column : Nat) : Decidable (cell.At row column) :=
  inferInstanceAs (Decidable (_ ∧ _))

namespace CountMatrix

/-- Matrices that operations lead to, refused increments included, whether or not there is room for
the rows. -/
inductive Reached : CountMatrix → Prop
  | empty : Reached {}
  | openRow (row : Nat) : Reached m → Reached (m.openRow row)
  | increment (row column delta : Nat) : Reached m → Reached (m.increment row column delta).2

structure WellFormed (m : CountMatrix) : Prop where
  sorted : m.cells.Pairwise Cell.Before
  positive : ∀ cell ∈ m.cells, 0 < cell.count
  bounded : ∀ cell ∈ m.cells, cell.count < countBound
  inside : ∀ cell ∈ m.cells, cell.row < m.rows ∧ cell.column < m.columns

variable {m : CountMatrix} {cell other : Cell} {cells : List Cell} {row column delta r c : Nat}

-- ---------------------------------------------------------------------------
-- Reading
-- ---------------------------------------------------------------------------

theorem before_of_before_at (h : cell.Before other) (ho : other.At r c) : ¬ cell.At r c := by
  rintro ⟨rfl, rfl⟩
  obtain ⟨h1, h2⟩ := ho
  unfold Cell.Before at h
  omega

theorem countAt_eq_zero (h : ∀ cell ∈ cells, ¬ cell.At r c) : CellTable.countAt cells r c = 0 := by
  unfold CellTable.countAt
  split
  · rename_i cell hf
    have hm := List.mem_reverse.mp (List.mem_of_find?_eq_some hf)
    exact absurd (by simpa [Cell.At] using List.find?_some hf) (h cell hm)
  · rfl

/-- In strict order a place has one cell at most. -/
theorem eq_of_at (hs : cells.Pairwise Cell.Before) (hc : cell ∈ cells) (ho : other ∈ cells)
    (hca : cell.At r c) (hoa : other.At r c) : cell = other := by
  induction cells with
  | nil => cases hc
  | cons first rest ih =>
    obtain ⟨hfirst, hrest⟩ := List.pairwise_cons.mp hs
    rcases List.mem_cons.mp hc with rfl | hcr <;> rcases List.mem_cons.mp ho with rfl | hor
    · rfl
    · exact absurd hca (before_of_before_at (hfirst other hor) hoa)
    · exact absurd hoa (before_of_before_at (hfirst cell hcr) hca)
    · exact ih hrest hcr hor

theorem countAt_of_mem (hs : cells.Pairwise Cell.Before) (hm : cell ∈ cells) (ha : cell.At r c) :
    CellTable.countAt cells r c = cell.count := by
  unfold CellTable.countAt
  split
  · rename_i found hf
    have hfm := List.mem_reverse.mp (List.mem_of_find?_eq_some hf)
    have hfa : found.At r c := by simpa [Cell.At] using List.find?_some hf
    rw [eq_of_at hs hfm hm hfa ha]
  · rename_i hf
    have hne := List.find?_eq_none.mp hf cell (List.mem_reverse.mpr hm)
    exact absurd ha (by simpa [Cell.At] using hne)

theorem place_lt {rows columns : Nat} (hr : row < rows) (hc : column < columns) :
    row * columns + column < rows * columns := by
  have hrow : (row + 1) * columns ≤ rows * columns := Nat.mul_le_mul_right columns hr
  rw [Nat.succ_mul] at hrow
  omega

theorem length_le_mul {rows columns : Nat} (hs : cells.Pairwise Cell.Before)
    (hi : ∀ cell ∈ cells, cell.row < rows ∧ cell.column < columns) :
    cells.length ≤ rows * columns := by
  have hnodup : (cells.map fun cell => cell.row * columns + cell.column).Nodup := by
    refine List.pairwise_map.mpr (hs.imp_of_mem ?_)
    intro a b ha hb hab
    rcases hab with hrow | ⟨hrow, hcolumn⟩
    · have hlt := place_lt hrow (hi a ha).2
      omega
    · rw [hrow]
      omega
  have hsubset : (cells.map fun cell => cell.row * columns + cell.column) ⊆
      List.range (rows * columns) := by
    intro n hn
    obtain ⟨cell, hcell, rfl⟩ := List.mem_map.mp hn
    exact List.mem_range.mpr (place_lt (hi cell hcell).1 (hi cell hcell).2)
  simpa using hnodup.length_le_of_subset hsubset

-- ---------------------------------------------------------------------------
-- Setting a cell
-- ---------------------------------------------------------------------------

theorem mem_setCell (hs : cells.Pairwise Cell.Before) :
    other ∈ setCell cell cells ↔
      other = cell ∨ (other ∈ cells ∧ ¬ other.At cell.row cell.column) := by
  induction cells with
  | nil => simp [setCell]
  | cons first rest ih =>
    obtain ⟨hfirst, hrest⟩ := List.pairwise_cons.mp hs
    have hafter (hb : cell.At first.row first.column ∨ cell.Before first) :
        other ∈ rest → ¬ other.At cell.row cell.column := by
      intro ho ⟨h1, h2⟩
      have hb' := hfirst other ho
      unfold Cell.At Cell.Before at *
      omega
    simp only [setCell]
    split
    · rename_i hat
      have hat' : first.At cell.row cell.column := hat
      have hrest' := hafter (.inl ⟨hat.1.symm, hat.2.symm⟩)
      simp only [List.mem_cons]
      constructor
      · rintro (rfl | ho)
        · exact .inl rfl
        · exact .inr ⟨.inr ho, hrest' ho⟩
      · rintro (rfl | ⟨rfl | ho, hne⟩)
        · exact .inl rfl
        · exact absurd hat' hne
        · exact .inr ho
    · split
      · rename_i hne hb
        have hrest' := hafter (.inr hb)
        simp only [List.mem_cons]
        constructor
        · rintro (rfl | rfl | ho)
          · exact .inl rfl
          · exact .inr ⟨.inl rfl, hne⟩
          · exact .inr ⟨.inr ho, hrest' ho⟩
        · rintro (rfl | ⟨rfl | ho, -⟩)
          · exact .inl rfl
          · exact .inr (.inl rfl)
          · exact .inr (.inr ho)
      · rename_i hne hb
        simp only [List.mem_cons, ih hrest]
        constructor
        · rintro (rfl | rfl | ⟨ho, ha⟩)
          · exact .inr ⟨.inl rfl, hne⟩
          · exact .inl rfl
          · exact .inr ⟨.inr ho, ha⟩
        · rintro (rfl | ⟨rfl | ho, ha⟩)
          · exact .inr (.inl rfl)
          · exact .inl rfl
          · exact .inr (.inr ⟨ho, ha⟩)

theorem pairwise_setCell (hs : cells.Pairwise Cell.Before) :
    (setCell cell cells).Pairwise Cell.Before := by
  induction cells with
  | nil => simp [setCell]
  | cons first rest ih =>
    obtain ⟨hfirst, hrest⟩ := List.pairwise_cons.mp hs
    simp only [setCell]
    split
    · rename_i hat
      refine List.pairwise_cons.mpr ⟨fun other ho => ?_, hrest⟩
      have hb := hfirst other ho
      unfold Cell.Before at *
      omega
    · split
      · rename_i hb
        refine List.pairwise_cons.mpr ⟨fun other ho => ?_, hs⟩
        rcases List.mem_cons.mp ho with rfl | ho
        · exact hb
        · have hb' := hfirst other ho
          unfold Cell.Before at *
          omega
      · rename_i hne hnb
        refine List.pairwise_cons.mpr ⟨fun other ho => ?_, ih hrest⟩
        rcases (mem_setCell hrest).mp ho with rfl | ⟨ho, -⟩
        · unfold Cell.Before
          omega
        · exact hfirst other ho

theorem countAt_setCell (hs : cells.Pairwise Cell.Before) :
    CellTable.countAt (setCell cell cells) r c =
      if cell.At r c then cell.count else CellTable.countAt cells r c := by
  have hs' : (setCell cell cells).Pairwise Cell.Before := pairwise_setCell hs
  split
  · rename_i ha
    exact countAt_of_mem hs' ((mem_setCell hs).mpr (.inl rfl)) ha
  · rename_i ha
    by_cases hex : ∃ other ∈ cells, other.At r c
    · obtain ⟨other, ho, hoa⟩ := hex
      have hne : ¬ other.At cell.row cell.column := fun h =>
        ha ⟨h.1.symm.trans hoa.1, h.2.symm.trans hoa.2⟩
      rw [countAt_of_mem hs ho hoa, countAt_of_mem hs' ((mem_setCell hs).mpr (.inr ⟨ho, hne⟩)) hoa]
    · have hno : ∀ other ∈ cells, ¬ other.At r c := fun other ho h => hex ⟨other, ho, h⟩
      rw [countAt_eq_zero hno, countAt_eq_zero]
      intro other ho
      rcases (mem_setCell hs).mp ho with rfl | ⟨ho, -⟩
      · exact ha
      · exact hno other ho

-- ---------------------------------------------------------------------------
-- Operations
-- ---------------------------------------------------------------------------

theorem wellFormed_empty : WellFormed {} := ⟨.nil, by simp, by simp, by simp⟩

theorem WellFormed.openRow (h : m.WellFormed) (row : Nat) : (m.openRow row).WellFormed :=
  ⟨h.sorted, h.positive, h.bounded, fun cell hc =>
    ⟨Nat.lt_of_lt_of_le (h.inside cell hc).1 (Nat.le_max_left ..), (h.inside cell hc).2⟩⟩

theorem WellFormed.openColumn (h : m.WellFormed) (column : Nat) :
    (m.openColumn column).WellFormed :=
  ⟨h.sorted, h.positive, h.bounded, fun cell hc =>
    ⟨(h.inside cell hc).1, Nat.lt_of_lt_of_le (h.inside cell hc).2 (Nat.le_max_left ..)⟩⟩

theorem WellFormed.crop_cells {rows columns : Nat} (h : m.WellFormed) (hr : m.rows ≤ rows)
    (hc : m.columns ≤ columns) : (m.crop rows columns).cells = m.cells := by
  refine List.filter_eq_self.mpr fun cell hm => ?_
  have hinside := h.inside cell hm
  simp only [Bool.and_eq_true, decide_eq_true_eq]
  omega

theorem get_eq_zero (h : m.WellFormed) (hc : m.columns ≤ c) : m.get r c = 0 :=
  countAt_eq_zero fun cell hm ha => by
    have hlt := (h.inside cell hm).2
    rw [ha.2] at hlt
    omega

theorem increment_eq :
    m.increment row column delta =
      if delta = 0 then (.ok (), (m.openRow row).openColumn column)
      else if m.get row column + delta < countBound then
        (.ok (), { (m.openRow row).openColumn column with
          cells := setCell ⟨row, column, m.get row column + delta⟩ m.cells })
      else (.error ⟨row, column⟩, (m.openRow row).openColumn column) := rfl

theorem WellFormed.increment (h : m.WellFormed) (row column delta : Nat) :
    (m.increment row column delta).2.WellFormed := by
  have hgrown := (h.openRow row).openColumn column
  rw [increment_eq]
  split
  · exact hgrown
  · rename_i hd
    split
    · rename_i hfits
      have hmem : ∀ other ∈ setCell ⟨row, column, m.get row column + delta⟩ m.cells,
          other = ⟨row, column, m.get row column + delta⟩ ∨ other ∈ m.cells := fun other ho =>
        ((mem_setCell h.sorted).mp ho).imp_right And.left
      refine ⟨pairwise_setCell h.sorted, fun other ho => ?_, fun other ho => ?_, fun other ho => ?_⟩
      · rcases hmem other ho with rfl | ho
        · exact Nat.lt_of_lt_of_le (Nat.pos_of_ne_zero hd) (Nat.le_add_left ..)
        · exact h.positive other ho
      · rcases hmem other ho with rfl | ho
        · exact hfits
        · exact h.bounded other ho
      · rcases hmem other ho with rfl | ho
        · exact ⟨Nat.lt_of_lt_of_le (Nat.lt_succ_self row) (Nat.le_max_right ..),
            Nat.lt_of_lt_of_le (Nat.lt_succ_self column) (Nat.le_max_right ..)⟩
        · exact hgrown.inside other ho
    · exact hgrown

theorem Reached.wellFormed (h : Reached m) : m.WellFormed := by
  induction h with
  | empty => exact wellFormed_empty
  | openRow row _ ih => exact ih.openRow row
  | increment row column delta _ ih => exact ih.increment row column delta

/-- Where the sum fits, one place counts more and no other place changes. -/
theorem increment_ok (h : m.WellFormed) (row column : Nat)
    (hfits : m.get row column + delta < countBound) :
    ∃ m', m.increment row column delta = (.ok (), m') ∧ m'.WellFormed ∧
      m'.rows = max m.rows (row + 1) ∧ m'.columns = max m.columns (column + 1) ∧
      ∀ r c, m'.get r c = m.get r c + if row = r ∧ column = c then delta else 0 := by
  have hwf := h.increment row column delta
  rw [increment_eq] at hwf ⊢
  by_cases hzero : delta = 0
  · rw [if_pos hzero] at hwf ⊢
    refine ⟨_, rfl, hwf, rfl, rfl, fun r c => ?_⟩
    rw [hzero, ite_self]
    rfl
  · rw [if_neg hzero, if_pos hfits] at hwf ⊢
    refine ⟨_, rfl, hwf, rfl, rfl, fun r c => (countAt_setCell h.sorted).trans ?_⟩
    by_cases ha : row = r ∧ column = c
    · rw [if_pos (show Cell.At ⟨row, column, _⟩ r c from ha), if_pos ha, ha.1, ha.2]
    · rw [if_neg (show ¬ Cell.At ⟨row, column, _⟩ r c from ha), if_neg ha]
      rfl

-- ---------------------------------------------------------------------------
-- Cells from counts
-- ---------------------------------------------------------------------------

instance : Std.Irrefl Cell.Before where
  irrefl cell h := by
    unfold Cell.Before at h
    omega

instance : Std.Antisymm Cell.Before where
  antisymm a b hab hba := by
    unfold Cell.Before at hab hba
    omega

theorem WellFormed.mem_cells (h : m.WellFormed) :
    cell ∈ m.cells ↔ 0 < cell.count ∧ m.get cell.row cell.column = cell.count := by
  constructor
  · intro hm
    exact ⟨h.positive cell hm, countAt_of_mem h.sorted hm ⟨rfl, rfl⟩⟩
  · rintro ⟨hpos, hget⟩
    by_cases hex : ∃ other ∈ m.cells, other.At cell.row cell.column
    · obtain ⟨other, hm, hat⟩ := hex
      have hcount : other.count = cell.count :=
        (countAt_of_mem h.sorted hm hat).symm.trans hget
      obtain ⟨hrow, hcolumn⟩ := hat
      cases other
      cases cell
      cases hrow
      cases hcolumn
      cases hcount
      exact hm
    · have hzero : m.get cell.row cell.column = 0 :=
        countAt_eq_zero fun other hm hat => hex ⟨other, hm, hat⟩
      omega

/-- The counts of a matrix determine its cells. -/
theorem WellFormed.cells_ext {m' : CountMatrix} (h : m.WellFormed) (h' : m'.WellFormed)
    (hget : ∀ r c, m.get r c = m'.get r c) : m.cells = m'.cells :=
  h.sorted.eq_of_mem_iff h'.sorted fun cell => by rw [h.mem_cells, h'.mem_cells, hget]

end CountMatrix

end FlowTally
