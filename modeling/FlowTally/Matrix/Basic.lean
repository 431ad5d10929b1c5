import FlowTally.Matrix.Cells

/-!
# Growing count matrices

A matrix keeps its non-zero cells, its logical shape and its capacity apart.
The logical shape is the smallest that covers every index addressed so far.
The capacity of an axis starts at eight and doubles until it covers the index.
The rows stand in one list, each in twenty-four bytes, so the capacity of the rows
is limited; the columns are only counted. Counts stay below `2^64`.
-/

namespace FlowTally

structure CountMatrix where
  /-- Non-zero cells in row-major order, each place once. -/
  cells : List Cell := []
  rows : Nat := 0
  columns : Nat := 0
  rowCapacity : Nat := 8
  columnCapacity : Nat := 8
deriving DecidableEq, Repr, Inhabited

namespace CountMatrix

def countBound : Nat := 18446744073709551616

structure Overflow where
  row : Nat
  column : Nat
deriving DecidableEq, Repr

def Overflow.message (o : Overflow) : String := s!"count overflow at ({o.row}, {o.column})"

/-- The first doubling of a capacity that is greater than the index. -/
def grown (capacity index : Nat) : Nat :=
  if capacity = 0 ∨ index < capacity then capacity else grown (2 * capacity) index
termination_by index + 1 - capacity
decreasing_by omega

/-- The rows can be brought to a capacity that covers the row. -/
def hasRoom (m : CountMatrix) (row : Nat) : Bool := fitsList (grown m.rowCapacity row) 24

/-- Makes a row for which there is room part of the shape. -/
def openRow (m : CountMatrix) (row : Nat) : CountMatrix :=
  { m with rowCapacity := grown m.rowCapacity row, rows := max m.rows (row + 1) }

/-- Opens a row, or stops where there is no room for it. -/
def openRow? (m : CountMatrix) (row : Nat) : Option CountMatrix :=
  if m.hasRoom row then some (m.openRow row) else none

def openColumn (m : CountMatrix) (column : Nat) : CountMatrix :=
  { m with columnCapacity := grown m.columnCapacity column, columns := max m.columns (column + 1) }

def get (m : CountMatrix) (row column : Nat) : Nat := CellTable.countAt m.cells row column

/-- Sets a place to a count, the order kept. -/
def setCell (cell : Cell) : List Cell → List Cell
  | [] => [cell]
  | other :: rest =>
    if other.row = cell.row ∧ other.column = cell.column then cell :: rest
    else if cell.row < other.row ∨ (cell.row = other.row ∧ cell.column < other.column) then
      cell :: other :: rest
    else other :: setCell cell rest

/-- Adds to a cell of a row for which there is room; the shape covers the cell even if the sum
does not fit. -/
def increment (m : CountMatrix) (row column delta : Nat) : Except Overflow Unit × CountMatrix :=
  let m := (m.openRow row).openColumn column
  if delta = 0 then (.ok (), m)
  else
    let sum := m.get row column + delta
    if sum < countBound then (.ok (), { m with cells := setCell ⟨row, column, sum⟩ m.cells })
    else (.error ⟨row, column⟩, m)

/-- Adds to a cell, or stops where there is no room for its row. -/
def increment? (m : CountMatrix) (row column delta : Nat) :
    Option (Except Overflow Unit × CountMatrix) :=
  if m.hasRoom row then some (m.increment row column delta) else none

def nonZero (m : CountMatrix) : Nat := m.cells.length

def crop (m : CountMatrix) (rows columns : Nat) : CellTable :=
  ⟨rows, columns, m.cells.filter fun cell => cell.row < rows && cell.column < columns⟩

end CountMatrix

end FlowTally
