import FlowTally.Matrix.Cells
import FlowTally.Text.Blank
import FlowTally.Text.Content
import FlowTally.Text.Natural

/-!
# Matrix Market text

A table is written as a header, a size line of rows, columns and cell count,
and a line for each cell with one-based places:

    %%MatrixMarket matrix coordinate integer general
    2 3 1
    1 3 7

The reader accepts the header in any letter case, skips blank lines and lines
that start with a percent sign, and sorts the cells.
-/

namespace FlowTally.Market

def header : List Char := "%%MatrixMarket matrix coordinate integer general".toList

inductive Fault where
  | empty
  | header (line : List Char)
  | noSize
  | field (text : List Char) (fault : Text.Natural.Fault)
  | fieldCount (line : List Char)
  | tooMany (declared rows columns : Nat)
  | outside (row column rows columns : Nat)
  | cellCount (declared found : Nat)
  | notText
deriving DecidableEq, Repr

def Fault.message : Fault → String
  | .empty => "empty Matrix Market file"
  | .header line => s!"unsupported header '{String.ofList line}'"
  | .noSize => "missing size line"
  | .field text fault => s!"bad field '{String.ofList text}': {fault.message}"
  | .fieldCount line => s!"expected 3 fields in '{String.ofList line}'"
  | .tooMany declared rows columns =>
    s!"size line declares {declared} entries for a {rows}x{columns} matrix"
  | .outside row column rows columns => s!"entry ({row}, {column}) outside {rows}x{columns}"
  | .cellCount declared found => s!"size line declares {declared} entries, found {found}"
  | .notText => "stream did not contain valid UTF-8"

def numbers (ns : List Nat) : List Char :=
  [' '].intercalate (ns.map Text.Natural.digits) ++ ['\n']

def write (t : CellTable) : List Char :=
  header ++ '\n' :: numbers [t.rows, t.columns, t.cells.length] ++
    t.cells.flatMap fun cell => numbers [cell.row + 1, cell.column + 1, cell.count]

/-- Every one-based place fits in 64 bits. -/
def isWritable (t : CellTable) : Bool :=
  t.cells.all fun cell =>
    cell.row + 1 < Text.Natural.bound64 && cell.column + 1 < Text.Natural.bound64

def write? (t : CellTable) : Option (List Char) := if isWritable t then some (write t) else none

def lowerAscii (c : Char) : Char := c.toLower

def isHeader (line : List Char) : Bool :=
  (Text.trim line).map lowerAscii == header.map lowerAscii

def isSkipped (line : List Char) : Bool :=
  match Text.trim line with
  | [] => true
  | c :: _ => c == '%'

def readFields : List (List Char) → Except Fault (List Nat)
  | [] => .ok []
  | field :: rest =>
    match Text.Natural.read Text.Natural.bound64 field with
    | .error fault => .error (.field field fault)
    | .ok n => (readFields rest).map (n :: ·)

def readTriple (line : List Char) : Except Fault (Nat × Nat × Nat) :=
  match readFields (Text.words line) with
  | .error fault => .error fault
  | .ok [a, b, c] => .ok (a, b, c)
  | .ok _ => .error (.fieldCount line)

def findSize : List Content → Except Fault (List Char × List Content)
  | [] => .error .noSize
  | line :: rest =>
    match line.chars? with
    | none => .error .notText
    | some cs => if isSkipped cs then findSize rest else .ok (cs, rest)

def readCell (rows columns : Nat) (line : List Char) : Except Fault Cell :=
  match readTriple line with
  | .error fault => .error fault
  | .ok (row, column, count) =>
    if row = 0 ∨ column = 0 ∨ rows < row ∨ columns < column then
      .error (.outside row column rows columns)
    else .ok ⟨row - 1, column - 1, count⟩

def readCells (rows columns : Nat) : List Content → Except Fault (List Cell)
  | [] => .ok []
  | line :: rest =>
    match line.chars? with
    | none => .error .notText
    | some cs =>
      if isSkipped cs then readCells rows columns rest
      else
        match readCell rows columns (Text.trim cs) with
        | .error fault => .error fault
        | .ok cell => (readCells rows columns rest).map (cell :: ·)

def readBody (lines : List Content) : Except Fault CellTable :=
  match findSize lines with
  | .error fault => .error fault
  | .ok (size, rest) =>
    match readTriple size with
    | .error fault => .error fault
    | .ok (rows, columns, declared) =>
      if rows * columns < Text.Natural.bound64 ∧ rows * columns < declared then
        .error (.tooMany declared rows columns)
      else
        match readCells rows columns rest with
        | .error fault => .error fault
        | .ok cells =>
          if cells.length = declared then .ok ⟨rows, columns, cells.mergeSort Cell.le⟩
          else .error (.cellCount declared cells.length)

def readLines : List Content → Except Fault CellTable
  | [] => .error .empty
  | line :: rest =>
    match line.chars? with
    | none => .error .notText
    | some cs => if isHeader cs then readBody rest else .error (.header cs)

def read (content : Content) : Except Fault CellTable := readLines content.lines

end FlowTally.Market
