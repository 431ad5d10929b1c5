import FlowTally.Proofs.Matrix.Counts
import Mathlib.Data.List.Induction

/-!
# Rows of numbers

A table whose cells lie inside its shape can be laid out: every cell that is written
finds its place (`store?_grid`), and at the end each place holds the last of the counts
that the table lists for it, or zero (`dense?_eq`).
-/

namespace FlowTally.CellTable

variable {cells : List Cell} {cell : Cell} {rows columns : Nat} {t : CellTable}

/-- Rows with a number for each place of a shape. -/
def grid (rows columns : Nat) (number : Nat → Nat → Nat) : List (List Nat) :=
  (List.range rows).map fun row => (List.range columns).map (number row)

/-- The number of each place: the last of the counts that the table lists for it. -/
def counts (t : CellTable) : List (List Nat) := grid t.rows t.columns (countAt t.cells)

theorem countAt_nil : countAt [] = fun _ _ => 0 := rfl

theorem countAt_concat (cells : List Cell) (cell : Cell) :
    countAt (cells ++ [cell]) = fun r c =>
      if cell.At r c then cell.count else countAt cells r c := by
  funext r c
  unfold countAt
  rw [List.reverse_concat, List.find?_cons]
  by_cases hat : cell.At r c
  · obtain ⟨hrow, hcolumn⟩ := hat
    simp [Cell.At, hrow, hcolumn]
  · have hother : (cell.row == r && cell.column == c) = false := by simpa [Cell.At] using hat
    rw [hother, if_neg hat]

theorem set_map_range (f : Nat → α) (n i : Nat) (a : α) :
    ((List.range n).map f).set i a = (List.range n).map fun j => if i = j then a else f j := by
  refine List.ext_getElem (by simp) fun j _ _ => ?_
  simp [List.getElem_set]

theorem store?_grid {number : Nat → Nat → Nat} (hrow : cell.row < rows)
    (hcolumn : cell.column < columns) :
    store? (grid rows columns number) cell =
      some (grid rows columns fun r c => if cell.At r c then cell.count else number r c) := by
  have hfound : (grid rows columns number)[cell.row]? =
      some ((List.range columns).map (number cell.row)) := by
    simp [grid, List.getElem?_range hrow]
  simp only [store?, hfound, List.length_map, List.length_range, if_pos hcolumn]
  simp only [grid, set_map_range]
  refine congrArg some (List.map_congr_left fun r _ => ?_)
  by_cases hr : cell.row = r
  · subst hr
    simp [Cell.At]
  · simp [Cell.At, hr]

theorem foldlM_store? (h : ∀ cell ∈ cells, cell.row < rows ∧ cell.column < columns) :
    cells.foldlM store? (List.replicate rows (List.replicate columns 0)) =
      some (grid rows columns (countAt cells)) := by
  induction cells using List.reverseRecOn with
  | nil => simp [grid, countAt_nil]
  | append_singleton cells cell ih =>
    obtain ⟨hcells, hcell⟩ := List.forall_mem_append.mp h
    obtain ⟨hrow, hcolumn⟩ := hcell cell (List.mem_singleton_self cell)
    rw [List.foldlM_append, ih hcells, countAt_concat]
    simp [store?_grid hrow hcolumn]

theorem dense?_eq (h : ∀ cell ∈ t.cells, cell.row < t.rows ∧ cell.column < t.columns) :
    t.dense? = some t.counts :=
  foldlM_store? h

end FlowTally.CellTable
