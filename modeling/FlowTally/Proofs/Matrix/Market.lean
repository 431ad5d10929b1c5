import FlowTally.Matrix.Market
import FlowTally.Proofs.Except
import FlowTally.Proofs.Text.Blank
import FlowTally.Proofs.Text.Digits
import FlowTally.Proofs.Text.Lines

/-!
# Tables read back from Matrix Market text

`read_write`: a table whose cells are in order, inside its shape and no more
than the shape has places is read back from its text. The text is one line of
numbers after the other, and a line of numbers is read back number by number.
-/

namespace FlowTally.Market

open Content (OneLine ofChars)
open Text (Solid isBlank_of_isDigit trim words)
open Text.Natural (bound64 digits)

/-- A table that its text can stand for. -/
structure Regular (t : CellTable) : Prop where
  sorted : t.cells.Pairwise fun a b => a.le b = true
  inside : ∀ cell ∈ t.cells, cell.row < t.rows ∧ cell.column < t.columns
  counts : ∀ cell ∈ t.cells, cell.count < bound64
  rows : t.rows < bound64
  columns : t.columns < bound64
  cells : t.cells.length < bound64
  room : t.rows * t.columns < bound64 → t.cells.length ≤ t.rows * t.columns

variable {t : CellTable} {n a b c : Nat} {ns : List Nat} {ch : Char}

-- ---------------------------------------------------------------------------
-- Lines of numbers
-- ---------------------------------------------------------------------------

def fields (ns : List Nat) : List Char := [' '].intercalate (ns.map digits)

theorem isDigit_of_mem_digits (h : ch ∈ digits n) : ch.isDigit = true :=
  Nat.isDigit_of_mem_toDigits (by decide) (by decide) h

theorem solid_digits (n : Nat) : Solid (digits n) := fun _ h =>
  isBlank_of_isDigit (isDigit_of_mem_digits h)

theorem words_fields (ns : List Nat) : words (fields ns) = ns.map digits := by
  refine Text.words_intercalate (by decide) fun w hw => ?_
  obtain ⟨n, -, rfl⟩ := List.mem_map.mp hw
  exact ⟨solid_digits n, Nat.toDigits_ne_nil⟩

theorem readFields_digits (h : ∀ n ∈ ns, n < bound64) : readFields (ns.map digits) = .ok ns := by
  induction ns with
  | nil => rfl
  | cons n ns ih =>
    obtain ⟨hn, hns⟩ := List.forall_mem_cons.mp h
    simp [readFields, Text.Natural.read_digits hn, ih hns, Except.map]

theorem readTriple_fields (ha : a < bound64) (hb : b < bound64) (hc : c < bound64) :
    readTriple (fields [a, b, c]) = .ok (a, b, c) := by
  have hread : readFields ([a, b, c].map digits) = .ok [a, b, c] :=
    readFields_digits (by simp [ha, hb, hc])
  simp only [readTriple, words_fields, hread]

theorem mem_fields (h : ch ∈ fields ns) : ch.isDigit = true ∨ ch = ' ' := by
  induction ns with
  | nil => simp [fields] at h
  | cons n ns ih =>
    cases ns with
    | nil =>
      rw [fields, List.map_singleton, List.intercalate_singleton] at h
      exact .inl (isDigit_of_mem_digits h)
    | cons m ns =>
      rw [fields, List.map_cons, List.map_cons, List.intercalate_cons_cons] at h
      rcases List.mem_append.mp h with h | h
      · rcases List.mem_append.mp h with h | h
        · exact .inl (isDigit_of_mem_digits h)
        · exact .inr (List.mem_singleton.mp h)
      · exact ih h

theorem oneLine_fields (ns : List Nat) : OneLine (fields ns) := by
  constructor
  · intro h
    have := mem_fields h
    revert this
    decide
  · intro h
    have := mem_fields h
    revert this
    decide

theorem fields_triple (a b c : Nat) :
    fields [a, b, c] = digits a ++ ' ' :: digits b ++ ' ' :: digits c := by
  simp [fields, List.intercalate_cons_cons]

theorem head?_fields (h : ch ∈ (fields [a, b, c]).head?) : ch.isDigit = true := by
  have hne : (digits a).head?.isSome = true := by simp [digits]
  rw [fields_triple, List.append_assoc, List.head?_append, Option.or_of_isSome hne] at h
  exact isDigit_of_mem_digits (List.mem_of_mem_head? h)

theorem getLast?_fields (h : ch ∈ (fields [a, b, c]).getLast?) : ch.isDigit = true := by
  have hne : (digits c).getLast?.isSome = true := by simp [digits]
  rw [fields_triple, List.append_cons, List.getLast?_append, Option.or_of_isSome hne] at h
  exact isDigit_of_mem_digits (List.mem_of_mem_getLast? h)

theorem trim_fields (a b c : Nat) : trim (fields [a, b, c]) = fields [a, b, c] :=
  Text.trim_eq_self (fun _ h => isBlank_of_isDigit (head?_fields h))
    fun _ h => isBlank_of_isDigit (getLast?_fields h)

theorem isSkipped_fields (a b c : Nat) : isSkipped (fields [a, b, c]) = false := by
  rw [isSkipped, trim_fields]
  cases hf : fields [a, b, c] with
  | nil =>
    rw [fields_triple, List.append_assoc] at hf
    simp [digits] at hf
  | cons d ds =>
    have hdigit : d.isDigit = true := head?_fields (hf ▸ rfl : d ∈ (fields [a, b, c]).head?)
    simp only [beq_eq_false_iff_ne]
    rintro rfl
    revert hdigit
    decide

-- ---------------------------------------------------------------------------
-- Cells
-- ---------------------------------------------------------------------------

def cellFields (cell : Cell) : List Char := fields [cell.row + 1, cell.column + 1, cell.count]

theorem readCell_cellFields {cell : Cell} (ht : Regular t) (hm : cell ∈ t.cells) :
    readCell t.rows t.columns (cellFields cell) = .ok cell := by
  obtain ⟨hrow, hcolumn⟩ := ht.inside cell hm
  have hrows := ht.rows
  have hcolumns := ht.columns
  have hread := readTriple_fields (a := cell.row + 1) (b := cell.column + 1) (by omega) (by omega)
    (ht.counts cell hm)
  rw [readCell, cellFields, hread]
  simp only
  rw [if_neg (by omega)]
  rfl

theorem readCells_cellFields {cells : List Cell} (ht : Regular t)
    (hm : ∀ cell ∈ cells, cell ∈ t.cells) :
    readCells t.rows t.columns (cells.map fun cell => ofChars (cellFields cell)) = .ok cells := by
  induction cells with
  | nil => rfl
  | cons cell cells ih =>
    obtain ⟨hcell, hcells⟩ := List.forall_mem_cons.mp hm
    have htrim : trim (cellFields cell) = cellFields cell := trim_fields ..
    have hskip : isSkipped (cellFields cell) = false := isSkipped_fields ..
    simp [readCells, hskip, htrim, readCell_cellFields ht hcell, ih hcells, Except.map]

-- ---------------------------------------------------------------------------
-- Tables
-- ---------------------------------------------------------------------------

theorem isHeader_header : isHeader header = true := by decide +kernel

theorem lines_write (t : CellTable) :
    Content.lines (ofChars (write t)) =
      ofChars header :: ofChars (fields [t.rows, t.columns, t.cells.length]) ::
        t.cells.map fun cell => ofChars (cellFields cell) := by
  have hheader : OneLine header := by decide
  have hcells : Content.lines (ofChars (t.cells.flatMap fun cell => cellFields cell ++ ['\n'])) =
      t.cells.map fun cell => ofChars (cellFields cell) :=
    Content.lines_flatMap cellFields fun _ _ => oneLine_fields _
  have hsize := Content.lines_oneLine (oneLine_fields [t.rows, t.columns, t.cells.length])
    (ofChars (t.cells.flatMap fun cell => cellFields cell ++ ['\n']))
  have hwritten : write t = header ++ '\n' :: (fields [t.rows, t.columns, t.cells.length] ++
      '\n' :: t.cells.flatMap fun cell => cellFields cell ++ ['\n']) := by
    simp [write, numbers, fields, cellFields]
  rw [hwritten, Content.ofChars_append]
  refine (Content.lines_oneLine hheader _).trans (congrArg _ ?_)
  change Content.lines (ofChars (_ ++ _)) = _
  rw [Content.ofChars_append]
  exact hsize.trans (congrArg _ hcells)

theorem readBody_fields (ht : Regular t) :
    readBody (ofChars (fields [t.rows, t.columns, t.cells.length]) ::
      t.cells.map fun cell => ofChars (cellFields cell)) = .ok t := by
  have hsize := readTriple_fields ht.rows ht.columns ht.cells
  have hroom : ¬ (t.rows * t.columns < bound64 ∧ t.rows * t.columns < t.cells.length) := by
    rintro ⟨hfits, hover⟩
    exact Nat.not_lt.mpr (ht.room hfits) hover
  have hcells := readCells_cellFields ht fun cell hm => hm
  simp only [readBody, findSize, Content.chars?_ofChars, isSkipped_fields, Bool.false_eq_true,
    if_false, hsize, if_neg hroom, hcells, if_true, List.mergeSort_of_pairwise ht.sorted]

theorem read_write (ht : Regular t) : read (ofChars (write t)) = .ok t := by
  simp only [read, lines_write, readLines, Content.chars?_ofChars, isHeader_header, if_true,
    readBody_fields ht]

end FlowTally.Market
