import FlowTally.Proofs.Matrix.Dense
import FlowTally.Proofs.Matrix.Operations

/-!
# Crops of a matrix

A crop has exactly the cells of the matrix that lie in the asked shape, whether that is
smaller or larger than the matrix (`mem_crop`), and going through the rows of the store,
each up to its last column, lists the same cells in the same order (`cropByRows_eq`). As
rows of numbers a crop shows the count of every place (`dense?_crop`), as far as a list can have
that size (`layOut?_crop`).
-/

namespace FlowTally.CountMatrix

open CellTable (countAt grid)

/-- Column and count of the cells in each row that the capacity has. -/
def storedRows (m : CountMatrix) : List (List (Nat × Nat)) :=
  (List.range m.rowCapacity).map fun row =>
    (m.cells.filter (·.row == row)).map fun cell => (cell.column, cell.count)

/-- The cells of the first rows, in each those before a column. -/
def cropByRows (m : CountMatrix) (rows columns : Nat) : List Cell :=
  (m.storedRows.take rows).zipIdx.flatMap fun (counts, row) =>
    (counts.takeWhile fun (column, _) => column < columns).map fun (column, count) =>
      ⟨row, column, count⟩

variable {m : CountMatrix} {cell : Cell} {rows columns r c : Nat}

-- ---------------------------------------------------------------------------
-- Cells
-- ---------------------------------------------------------------------------

theorem WellFormed.mem_crop (h : m.WellFormed) :
    cell ∈ (m.crop rows columns).cells ↔
      (cell.row < rows ∧ cell.column < columns) ∧ cell.count ≠ 0 ∧
        cell.count = m.get cell.row cell.column := by
  simp only [crop, List.mem_filter, h.mem_cells, Bool.and_eq_true, decide_eq_true_eq,
    Nat.pos_iff_ne_zero]
  rw [and_comm, eq_comm (a := m.get _ _)]

theorem WellFormed.pairwise_crop (h : m.WellFormed) (rows columns : Nat) :
    (m.crop rows columns).cells.Pairwise Cell.Before := h.sorted.filter _

/-- Where the items that pass come first, nothing behind the first refused one is lost. -/
theorem takeWhile_eq_filter {p : α → Bool} {items : List α}
    (h : items.Pairwise fun a b => p b = true → p a = true) : items.takeWhile p = items.filter p := by
  induction items with
  | nil => rfl
  | cons item rest ih =>
    obtain ⟨hitem, hrest⟩ := List.pairwise_cons.mp h
    cases hp : p item with
    | true => rw [List.takeWhile_cons_of_pos hp, List.filter_cons_of_pos hp, ih hrest]
    | false =>
      have hnone : ∀ other ∈ rest, ¬ p other = true := fun other hm ho => by
        simpa [hp] using hitem other hm ho
      have hrefused : ¬ p item = true := by simp [hp]
      rw [List.takeWhile_cons_of_neg hrefused, List.filter_cons_of_neg hrefused,
        List.filter_eq_nil_iff.mpr hnone]

theorem WellFormed.row_crop (h : m.WellFormed) (row columns : Nat) :
    ((((m.cells.filter (·.row == row)).map fun cell => (cell.column, cell.count)).takeWhile
        fun (column, _) => column < columns).map fun (column, count) => Cell.mk row column count) =
      m.cells.filter fun cell => cell.row == row && cell.column < columns := by
  have hprefix : (m.cells.filter (·.row == row)).Pairwise fun a b =>
      decide (b.column < columns) = true → decide (a.column < columns) = true := by
    refine (h.sorted.filter _).imp_of_mem fun {a b} ha hb hab => ?_
    have hrow : a.row = row := by simpa using (List.mem_filter.mp ha).2
    have hrow' : b.row = row := by simpa using (List.mem_filter.mp hb).2
    unfold Cell.Before at hab
    simp only [decide_eq_true_eq]
    omega
  have hcells := takeWhile_eq_filter hprefix
  rw [List.filter_filter] at hcells
  rw [List.takeWhile_map, List.map_map]
  refine (congrArg (List.map _) hcells).trans ?_
  have hsame : ∀ cell ∈ m.cells.filter (fun cell => cell.column < columns && cell.row == row),
      Cell.mk row cell.column cell.count = cell := by
    intro cell hm
    obtain ⟨-, hrow⟩ := Bool.and_eq_true_iff.mp (List.mem_filter.mp hm).2
    rw [← eq_of_beq hrow]
  exact (List.map_congr_left hsame).trans ((List.map_id' _).trans
    (List.filter_congr fun cell _ => Bool.and_comm ..))

theorem zipIdx_take_map_range (f : Nat → α) (n k : Nat) :
    (((List.range n).map f).take k).zipIdx = (List.range (min k n)).map fun i => (f i, i) := by
  rw [← List.map_take, List.take_range]
  refine List.ext_getElem (by simp) fun i _ _ => ?_
  simp

/-- Rows that the capacity does not have are empty, so the store may end before the asked shape
does. -/
theorem WellFormed.cropByRows_eq (h : m.WellFormed) (hrows : m.rows ≤ m.rowCapacity)
    (rows columns : Nat) : m.cropByRows rows columns = (m.crop rows columns).cells := by
  have hlisted : m.cropByRows rows columns = (List.range (min rows m.rowCapacity)).flatMap fun row =>
      m.cells.filter fun cell => cell.row == row && cell.column < columns := by
    rw [cropByRows, storedRows, zipIdx_take_map_range, List.flatMap_map]
    exact List.flatMap_congr fun row _ => h.row_crop row columns
  rw [hlisted]
  refine List.Pairwise.eq_of_mem_iff ?_ (h.pairwise_crop rows columns) fun cell => ?_
  · refine List.pairwise_flatMap.mpr ⟨fun row _ => h.sorted.filter _, ?_⟩
    refine List.pairwise_lt_range.imp fun {row row'} hlt a ha b hb => ?_
    simp only [List.mem_filter, Bool.and_eq_true, beq_iff_eq] at ha hb
    exact .inl (ha.2.1 ▸ hb.2.1 ▸ hlt)
  · simp only [List.mem_flatMap, List.mem_range, List.mem_filter, crop, Bool.and_eq_true, beq_iff_eq,
      decide_eq_true_eq]
    constructor
    · rintro ⟨row, hrow, hm, rfl, hcolumn⟩
      exact ⟨hm, by omega, hcolumn⟩
    · rintro ⟨hm, hrow, hcolumn⟩
      have hinside := (h.inside cell hm).1
      exact ⟨cell.row, by omega, hm, rfl, hcolumn⟩

-- ---------------------------------------------------------------------------
-- Rows of numbers
-- ---------------------------------------------------------------------------

theorem WellFormed.countAt_crop (h : m.WellFormed) (hr : r < rows) (hc : c < columns) :
    countAt (m.crop rows columns).cells r c = m.get r c := by
  by_cases hex : ∃ cell ∈ m.cells, cell.At r c
  · obtain ⟨cell, hm, hat⟩ := hex
    have hcrop : cell ∈ (m.crop rows columns).cells := by
      obtain ⟨rfl, rfl⟩ := hat
      exact List.mem_filter.mpr ⟨hm, by simp [hr, hc]⟩
    rw [countAt_of_mem (h.pairwise_crop rows columns) hcrop hat]
    exact (countAt_of_mem h.sorted hm hat).symm
  · have hno : ∀ cell ∈ m.cells, ¬ cell.At r c := fun cell hm hat => hex ⟨cell, hm, hat⟩
    have hzero : countAt (m.crop rows columns).cells r c = 0 :=
      countAt_eq_zero fun cell hm => hno cell (List.mem_filter.mp hm).1
    exact hzero.trans (countAt_eq_zero hno).symm

theorem grid_congr {number number' : Nat → Nat → Nat}
    (h : ∀ r < rows, ∀ c < columns, number r c = number' r c) :
    grid rows columns number = grid rows columns number' :=
  List.map_congr_left fun r hr => List.map_congr_left fun c hc =>
    h r (List.mem_range.mp hr) c (List.mem_range.mp hc)

theorem WellFormed.dense?_crop (h : m.WellFormed) (rows columns : Nat) :
    (m.crop rows columns).dense? = some (grid rows columns m.get) := by
  rw [CellTable.dense?_eq fun cell hm => (h.mem_crop.mp hm).1]
  exact congrArg some (grid_congr fun r hr c hc => h.countAt_crop hr hc)

/-- A crop can be laid out unless its rows or its columns alone are too many for one list. -/
theorem WellFormed.layOut?_crop (h : m.WellFormed) (rows columns : Nat) :
    (m.crop rows columns).layOut? =
      if rows * 24 < listBound ∧ columns * 8 < listBound then some (grid rows columns m.get)
      else none := by
  have hfits : (m.crop rows columns).fitsDense = true ↔
      rows * 24 < listBound ∧ columns * 8 < listBound := by
    simp only [CellTable.fitsDense, fitsList, Bool.and_eq_true, decide_eq_true_eq]
    rfl
  simp only [CellTable.layOut?, hfits, h.dense?_crop]

namespace Ledger

/-- A crop lists the counts of the places inside the asked shape that are not zero, each once and
in row-major order, and the rows of the store list the same. As rows of numbers, in which every
cell finds its place, it shows the count of every place, if a list can have that size. -/
theorem run_crop (ops : List Operation) (rows columns : Nat) :
    let m := (run ops).matrix
    let t := m.crop rows columns
    (∀ cell, cell ∈ t.cells ↔
        (cell.row < rows ∧ cell.column < columns) ∧ cell.count ≠ 0 ∧
          cell.count = m.get cell.row cell.column) ∧
      t.cells.Pairwise Cell.Before ∧
      t.cells = m.cropByRows rows columns ∧
      t.dense? = some (grid rows columns m.get) ∧
      t.layOut? =
        if rows * 24 < listBound ∧ columns * 8 < listBound then some (grid rows columns m.get)
        else none := by
  have hwf := run_wellFormed ops
  have hrows : (run ops).matrix.rows ≤ (run ops).matrix.rowCapacity := (run_covers ops).1.size_le
  exact ⟨fun cell => hwf.mem_crop, hwf.pairwise_crop rows columns,
    (hwf.cropByRows_eq hrows rows columns).symm, hwf.dense?_crop rows columns,
    hwf.layOut?_crop rows columns⟩

/-- Without any row there is still no list of so many columns. -/
theorem run_crop_wideShape :
    ((run []).matrix.crop 0 2305843009213693952).layOut? = none ∧
      grid 0 2305843009213693952 (run []).matrix.get = [] ∧
      ¬ ∀ (ops : List Operation) (rows columns : Nat),
        ((run ops).matrix.crop rows columns).layOut? =
          some (grid rows columns (run ops).matrix.get) := by
  have hnone : ((run []).matrix.crop 0 2305843009213693952).layOut? = none := by decide
  refine ⟨hnone, rfl, fun h => ?_⟩
  rw [h] at hnone
  cases hnone

end Ledger

end FlowTally.CountMatrix
