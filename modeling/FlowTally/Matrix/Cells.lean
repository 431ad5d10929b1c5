/-!
# Tables of counts

A `CellTable` lists the cells of a matrix of known shape that are not zero, in
row-major order. A cell that is listed twice has the last of its counts in the
dense form; a cell outside the shape has no dense form.
-/

namespace FlowTally

/-- One more than the bytes that one list may take. -/
def listBound : Nat := 9223372036854775808

/-- One list can hold so many items of so many bytes each. -/
def fitsList (items bytes : Nat) : Bool := items * bytes < listBound

structure Cell where
  row : Nat
  column : Nat
  count : Nat
deriving DecidableEq, Repr, Inhabited

/-- Row-major order, cells at one place by count. -/
def Cell.le (a b : Cell) : Bool :=
  a.row < b.row ||
    (a.row == b.row && (a.column < b.column || (a.column == b.column && a.count ≤ b.count)))

theorem Cell.le_trans (a b c : Cell) (hab : a.le b = true) (hbc : b.le c = true) :
    a.le c = true := by
  simp only [Cell.le, Bool.or_eq_true, Bool.and_eq_true, decide_eq_true_eq, beq_iff_eq] at *
  omega

theorem Cell.le_antisymm (a b : Cell) (hab : a.le b = true) (hba : b.le a = true) : a = b := by
  cases a
  cases b
  simp only [Cell.le, Bool.or_eq_true, Bool.and_eq_true, decide_eq_true_eq, beq_iff_eq,
    Cell.mk.injEq] at *
  omega

theorem Cell.le_total (a b : Cell) : (a.le b || b.le a) = true := by
  simp only [Cell.le, Bool.or_eq_true, Bool.and_eq_true, decide_eq_true_eq, beq_iff_eq]
  omega

structure CellTable where
  rows : Nat
  columns : Nat
  cells : List Cell
deriving DecidableEq, Repr, Inhabited

namespace CellTable

def countAt (cells : List Cell) (row column : Nat) : Nat :=
  match cells.reverse.find? fun cell => cell.row == row && cell.column == column with
  | some cell => cell.count
  | none => 0

def store? (rows : List (List Nat)) (cell : Cell) : Option (List (List Nat)) :=
  match rows[cell.row]? with
  | none => none
  | some counts =>
    if cell.column < counts.length then
      some (rows.set cell.row (counts.set cell.column cell.count))
    else none

/-- The rows of numbers: zeros, over which the cells are written one after the other. -/
def dense? (t : CellTable) : Option (List (List Nat)) :=
  t.cells.foldlM store? (List.replicate t.rows (List.replicate t.columns 0))

/-- Rows of numbers can be laid out: eight bytes for a number, twenty-four for a row. -/
def fitsDense (t : CellTable) : Bool := fitsList t.rows 24 && fitsList t.columns 8

def layOut? (t : CellTable) : Option (List (List Nat)) := if t.fitsDense then t.dense? else none

end CellTable

end FlowTally
