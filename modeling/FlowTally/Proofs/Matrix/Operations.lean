import FlowTally.Proofs.Matrix.Counts
import FlowTally.Proofs.Matrix.Growth
import Mathlib.Data.List.Induction
import Mathlib.Data.Set.Card

/-!
# Operations in any order

Rows are opened and cells incremented in any order, also where a count overflows or where
there is no room for a row. `Ledger` keeps a matrix with the operations on it that succeeded;
an operation that stops leaves both as they are. `run_counts`: the counts are the sums of
what succeeded, and what fails leaves no trace. `run_shape`: shape and capacity tell which
indices have been addressed and nothing else.
-/

namespace FlowTally.CountMatrix

open CellTable (countAt)

/-- An operation, with what its arguments can hold. -/
inductive Operation where
  | openRow (row : Fin indexBound)
  | increment (row column : Fin indexBound) (delta : Fin countBound)
deriving DecidableEq

namespace Operation

def row : Operation → Nat
  | .openRow row => row
  | .increment row _ _ => row

def row? (op : Operation) : Option Nat := some op.row

def column? : Operation → Option Nat
  | .openRow _ => none
  | .increment _ column _ => some column

def deltaAt (row column : Nat) : Operation → Nat
  | .openRow _ => 0
  | .increment row' column' delta => if row'.val = row ∧ column'.val = column then delta else 0

/-- What becomes of a matrix, unless the operation stops. -/
def outcome? (m : CountMatrix) : Operation → Option (Except Overflow Unit × CountMatrix)
  | .openRow row => (m.openRow? row).map fun m => (.ok (), m)
  | .increment row column delta => m.increment? row column delta

end Operation

/-- A matrix, and the operations on it that succeeded. -/
structure Ledger where
  matrix : CountMatrix := {}
  log : List Operation := []

namespace Ledger

def step (l : Ledger) (op : Operation) : Ledger :=
  match op.outcome? l.matrix with
  | some (.ok (), m) => ⟨m, l.log ++ [op]⟩
  | some (.error _, m) => ⟨m, l.log⟩
  | none => l

def run (ops : List Operation) : Ledger := ops.foldl step {}

/-- The sum of what the successful operations added to a place. -/
def sumAt (l : Ledger) (row column : Nat) : Nat := (l.log.map (·.deltaAt row column)).sum

end Ledger

/-- The indices that operations have addressed on an axis. An operation that stops addresses
neither. -/
def addressed (axis : Operation → Option Nat) (ops : List Operation) : Set Nat :=
  {index | ∃ op ∈ ops, op.row < rowBound ∧ axis op = some index}

/-- A place without a cell gets one that counts zero. -/
def enter (m : CountMatrix) (row column : Nat) : CountMatrix :=
  if ∃ cell ∈ m.cells, cell.At row column then m
  else { m with cells := setCell ⟨row, column, 0⟩ m.cells }

/-- Adds to a cell of an open row; the cell is entered before it is known whether the sum fits. -/
def addInPlace (m : CountMatrix) (row column delta : Nat) : Except Overflow Unit × CountMatrix :=
  let m := m.openColumn column
  if delta = 0 then (.ok (), m)
  else
    let m := m.enter row column
    let sum := m.get row column + delta
    if sum < countBound then (.ok (), { m with cells := setCell ⟨row, column, sum⟩ m.cells })
    else (.error ⟨row, column⟩, m)

def incrementInPlace? (m : CountMatrix) (row column delta : Nat) :
    Option (Except Overflow Unit × CountMatrix) :=
  (m.openRow? row).map fun m => m.addInPlace row column delta

variable {m : CountMatrix} {row column delta : Nat} {ops : List Operation} {op : Operation}

-- ---------------------------------------------------------------------------
-- One increment
-- ---------------------------------------------------------------------------

theorem setCell_setCell {a b : Cell} (hrow : a.row = b.row) (hcolumn : a.column = b.column)
    (cells : List Cell) : setCell a (setCell b cells) = setCell a cells := by
  induction cells with
  | nil => simp [setCell, hrow, hcolumn]
  | cons first rest ih =>
    rw [setCell]
    split
    · rename_i hat
      simp [setCell, hrow, hcolumn, hat]
    · rename_i hne
      split
      · rename_i hbefore
        simp [setCell, hrow, hcolumn, hne, hbefore]
      · rename_i hbefore
        simp [setCell, hrow, hcolumn, hne, hbefore, ih]

/-- A cell that is only entered with zero cannot overflow, so it is never left behind. -/
theorem addInPlace_openRow (h : m.WellFormed) (hdelta : delta < countBound) :
    (m.openRow row).addInPlace row column delta = m.increment row column delta := by
  by_cases hzero : delta = 0
  · rw [addInPlace, increment, if_pos hzero, if_pos hzero]
  · rw [addInPlace, increment, if_neg hzero, if_neg hzero]
    by_cases hex : ∃ cell ∈ m.cells, cell.At row column
    · have henter : ((m.openRow row).openColumn column).enter row column =
          (m.openRow row).openColumn column := if_pos hex
      rw [henter]
    · have henter : ((m.openRow row).openColumn column).enter row column =
          { (m.openRow row).openColumn column with cells := setCell ⟨row, column, 0⟩ m.cells } :=
        if_neg hex
      have hget : m.get row column = 0 := countAt_eq_zero fun cell hm hat => hex ⟨cell, hm, hat⟩
      have hopened : ((m.openRow row).openColumn column).get row column = 0 := hget
      have hentered : CountMatrix.get { (m.openRow row).openColumn column with
          cells := setCell ⟨row, column, 0⟩ m.cells } row column = 0 :=
        (countAt_setCell h.sorted).trans (if_pos ⟨rfl, rfl⟩)
      have hfits : 0 + delta < countBound := by rwa [Nat.zero_add]
      simp only [henter, hentered, hopened, if_pos hfits, setCell_setCell]
      rfl

theorem incrementInPlace?_eq (h : m.WellFormed) (hdelta : delta < countBound) :
    m.incrementInPlace? row column delta = m.increment? row column delta := by
  rw [incrementInPlace?, openRow?, increment?]
  split
  · exact congrArg some (addInPlace_openRow h hdelta)
  · rfl

/-- An increment that does not fit changes nothing: its cell counts already, so it lies inside the
shape. -/
theorem increment_error (h : m.WellFormed) (hrows : m.rows ≤ m.rowCapacity)
    (hcolumns : m.columns ≤ m.columnCapacity) (hdelta : delta < countBound)
    (hover : countBound ≤ m.get row column + delta) :
    m.increment row column delta = (.error ⟨row, column⟩, m) := by
  have hpos : 0 < m.get row column := by omega
  have hcell : ∃ cell ∈ m.cells, cell.At row column := by
    by_contra hno
    have hzero : m.get row column = 0 := countAt_eq_zero fun cell hm hat => hno ⟨cell, hm, hat⟩
    omega
  obtain ⟨cell, hm, rfl, rfl⟩ := hcell
  obtain ⟨hrow, hcolumn⟩ := h.inside cell hm
  have hopened : (m.openRow cell.row).openColumn cell.column = m := by
    simp only [openRow, openColumn, grown_of_lt (Nat.lt_of_lt_of_le hrow hrows),
      grown_of_lt (Nat.lt_of_lt_of_le hcolumn hcolumns), Nat.max_eq_left hrow,
      Nat.max_eq_left hcolumn]
  have hzero : delta ≠ 0 := by
    rintro rfl
    have hbound := h.bounded cell hm
    rw [get, countAt_of_mem h.sorted hm ⟨rfl, rfl⟩] at hover
    omega
  rw [increment_eq, if_neg hzero, if_neg (by omega), hopened]

/-- The counts tell apart the places that have a cell. -/
theorem encard_nonZero (h : m.WellFormed) :
    {place : Nat × Nat | m.get place.1 place.2 ≠ 0}.encard = m.nonZero := by
  let places := m.cells.map fun cell => (cell.row, cell.column)
  have hnodup : places.Nodup := by
    refine List.pairwise_map.mpr (h.sorted.imp ?_)
    rintro a b hab heq
    obtain ⟨hrow, hcolumn⟩ := Prod.mk.inj heq
    unfold Cell.Before at hab
    omega
  have hset : {place : Nat × Nat | m.get place.1 place.2 ≠ 0} = (places.toFinset : Set _) := by
    ext ⟨r, c⟩
    simp only [Set.mem_ofPred_eq, List.coe_toFinset, places, List.mem_map]
    constructor
    · intro hne
      by_contra hno
      exact hne (countAt_eq_zero fun cell hm hat => hno ⟨cell, hm, Prod.ext hat.1 hat.2⟩)
    · rintro ⟨cell, hm, heq⟩
      obtain ⟨rfl, rfl⟩ := Prod.mk.inj heq
      have hcount : m.get cell.row cell.column = cell.count :=
        countAt_of_mem h.sorted hm ⟨rfl, rfl⟩
      rw [hcount]
      exact (h.positive cell hm).ne'
  rw [hset, Set.encard_coe_eq_coe_finsetCard, List.toFinset_card_of_nodup hnodup, List.length_map]
  rfl

-- ---------------------------------------------------------------------------
-- Addressed indices
-- ---------------------------------------------------------------------------

theorem addressed_nil (axis : Operation → Option Nat) : addressed axis [] = ∅ := by
  simp [addressed]

theorem addressed_concat (axis : Operation → Option Nat) (ops : List Operation)
    (hrow : op.row < rowBound) :
    addressed axis (ops ++ [op]) =
      match axis op with
      | some index => insert index (addressed axis ops)
      | none => addressed axis ops := by
  ext index
  cases hop : axis op with
  | none => simp [addressed, or_and_right, exists_or, hop]
  | some last => simp [addressed, or_and_right, exists_or, hop, hrow, or_comm, eq_comm]

theorem addressed_concat_stopped (axis : Operation → Option Nat) (ops : List Operation)
    (hrow : rowBound ≤ op.row) : addressed axis (ops ++ [op]) = addressed axis ops := by
  ext index
  simp [addressed, or_and_right, exists_or, Nat.not_lt.mpr hrow]

theorem lt_of_mem_addressed_row {index : Nat} (h : index ∈ addressed Operation.row? ops) :
    index < rowBound := by
  obtain ⟨op, -, hrow, hop⟩ := h
  cases hop
  exact hrow

theorem lt_of_mem_addressed_column {index : Nat} (h : index ∈ addressed Operation.column? ops) :
    index < indexBound := by
  obtain ⟨op, -, -, hop⟩ := h
  cases op with
  | openRow row => cases hop
  | increment _ column _ =>
    cases hop
    exact column.isLt

theorem Operation.outcome?_eq_none_iff : op.outcome? m = none ↔ m.hasRoom op.row = false := by
  cases op with
  | openRow row => simp [outcome?, openRow?, Operation.row]
  | increment row column delta => simp [outcome?, increment?, Operation.row]

theorem exists_increment_eq (m : CountMatrix) (row column delta : Nat) :
    ∃ cells, (m.increment row column delta).2 =
      { (m.openRow row).openColumn column with cells := cells } := by
  rw [increment_eq]
  split
  · exact ⟨_, rfl⟩
  · split
    · exact ⟨_, rfl⟩
    · exact ⟨_, rfl⟩

namespace Ledger

variable {l : Ledger} {row column : Fin indexBound} {delta : Fin countBound}

theorem run_concat (ops : List Operation) (op : Operation) :
    run (ops ++ [op]) = (run ops).step op := List.foldl_concat ..

theorem step_stopped (h : l.matrix.hasRoom op.row = false) : l.step op = l := by
  rw [step, Operation.outcome?_eq_none_iff.mpr h]

theorem step_openRow {row : Fin indexBound} (h : l.matrix.hasRoom row = true) :
    l.step (.openRow row) = ⟨l.matrix.openRow row, l.log ++ [.openRow row]⟩ := by
  simp only [step, Operation.outcome?, openRow?, if_pos h, Option.map_some]

theorem step_increment_ok (h : l.matrix.hasRoom row = true)
    (hm : l.matrix.increment row column delta = (.ok (), m)) :
    l.step (.increment row column delta) = ⟨m, l.log ++ [.increment row column delta]⟩ := by
  simp only [step, Operation.outcome?, increment?, if_pos h, hm]

theorem step_increment_error {fault : Overflow} (h : l.matrix.hasRoom row = true)
    (hm : l.matrix.increment row column delta = (.error fault, m)) :
    l.step (.increment row column delta) = ⟨m, l.log⟩ := by
  simp only [step, Operation.outcome?, increment?, if_pos h, hm]

theorem step_increment_matrix (h : l.matrix.hasRoom row = true) :
    (l.step (.increment row column delta)).matrix =
      (l.matrix.increment row column delta).2 := by
  cases hm : l.matrix.increment row column delta with
  | mk outcome m =>
    cases outcome with
    | ok => rw [step_increment_ok h hm]
    | error fault => rw [step_increment_error h hm]

theorem run_covers (ops : List Operation) :
    Covers (addressed Operation.row? ops) (run ops).matrix.rows (run ops).matrix.rowCapacity ∧
      Covers (addressed Operation.column? ops) (run ops).matrix.columns
        (run ops).matrix.columnCapacity := by
  induction ops using List.reverseRecOn with
  | nil =>
    rw [addressed_nil, addressed_nil]
    exact ⟨covers_empty, covers_empty⟩
  | append_singleton ops op ih =>
    obtain ⟨hrows, hcolumns⟩ := ih
    have hroom : (run ops).matrix.hasRoom op.row = true ↔ op.row < rowBound :=
      hrows.hasRoom_iff fun _ => lt_of_mem_addressed_row
    rw [run_concat]
    by_cases hrow : op.row < rowBound
    · rw [addressed_concat _ _ hrow, addressed_concat _ _ hrow]
      cases op with
      | openRow row =>
        rw [step_openRow (hroom.mpr hrow)]
        exact ⟨hrows.insert row, hcolumns⟩
      | increment row column delta =>
        obtain ⟨cells, hcells⟩ := exists_increment_eq (run ops).matrix row column delta
        rw [step_increment_matrix (hroom.mpr hrow), hcells]
        exact ⟨hrows.insert row, hcolumns.insert column⟩
    · have hfar := Nat.not_lt.mp hrow
      have hstopped : (run ops).matrix.hasRoom op.row = false :=
        Bool.eq_false_iff.mpr fun h => hrow (hroom.mp h)
      rw [step_stopped hstopped, addressed_concat_stopped _ _ hfar,
        addressed_concat_stopped _ _ hfar]
      exact ⟨hrows, hcolumns⟩

theorem run_hasRoom (ops : List Operation) (row : Nat) :
    (run ops).matrix.hasRoom row = true ↔ row < rowBound :=
  (run_covers ops).1.hasRoom_iff fun _ => lt_of_mem_addressed_row

theorem run_not_hasRoom (ops : List Operation) (row : Nat) :
    (run ops).matrix.hasRoom row = false ↔ rowBound ≤ row := by
  rw [← Bool.not_eq_true, run_hasRoom, Nat.not_lt]

theorem step_wellFormed (h : l.matrix.WellFormed) (op : Operation) :
    (l.step op).matrix.WellFormed := by
  cases hroom : l.matrix.hasRoom op.row with
  | false =>
    rw [step_stopped hroom]
    exact h
  | true =>
    cases op with
    | openRow row =>
      rw [step_openRow hroom]
      exact h.openRow row
    | increment row column delta =>
      rw [step_increment_matrix hroom]
      exact h.increment row column delta

theorem run_wellFormed (ops : List Operation) : (run ops).matrix.WellFormed := by
  induction ops using List.reverseRecOn with
  | nil => exact wellFormed_empty
  | append_singleton ops op ih =>
    rw [run_concat]
    exact step_wellFormed ih op

/-- The shape of a matrix is the smallest that covers what was addressed, and so is its capacity
among the doublings of eight. Neither depends on the order, and a capacity is always found. An
operation stops exactly when its row is too large for one list to hold the rows up to it. -/
theorem run_shape (ops : List Operation) :
    let m := (run ops).matrix
    Covers (addressed Operation.row? ops) m.rows m.rowCapacity ∧
      Covers (addressed Operation.column? ops) m.columns m.columnCapacity ∧
      (∀ cell ∈ m.cells, cell.row < m.rows ∧ cell.column < m.columns) ∧
      (m.rows ≤ m.rowCapacity ∧ m.columns ≤ m.columnCapacity) ∧
      (∀ others, addressed Operation.row? others = addressed Operation.row? ops →
        (run others).matrix.rows = m.rows ∧ (run others).matrix.rowCapacity = m.rowCapacity) ∧
      (∀ others, addressed Operation.column? others = addressed Operation.column? ops →
        (run others).matrix.columns = m.columns ∧
          (run others).matrix.columnCapacity = m.columnCapacity) ∧
      (∀ index < indexBound,
        FindsCapacity m.rowCapacity index ∧ FindsCapacity m.columnCapacity index) ∧
      ∀ op : Operation, op.outcome? m = none ↔ rowBound ≤ op.row := by
  obtain ⟨hrows, hcolumns⟩ := run_covers ops
  have hindices : ∀ i ∈ addressed Operation.row? ops, i < indexBound := fun i hi =>
    Nat.lt_trans (lt_of_mem_addressed_row hi) (by decide)
  refine ⟨hrows, hcolumns, (run_wellFormed ops).inside, ⟨hrows.size_le, hcolumns.size_le⟩,
    fun others hsame => ?_, fun others hsame => ?_, fun index hindex => ⟨?_, ?_⟩, fun op => ?_⟩
  · have hothers := (run_covers others).1
    rw [hsame] at hothers
    exact hothers.unique hrows
  · have hothers := (run_covers others).2
    rw [hsame] at hothers
    exact hothers.unique hcolumns
  · exact hrows.findsCapacity hindices hindex
  · exact hcolumns.findsCapacity (fun _ => lt_of_mem_addressed_column) hindex
  · rw [Operation.outcome?_eq_none_iff, run_not_hasRoom]

/-- The first row for which there is no room stops the operation, so no shape covers it. -/
theorem run_shape_farRow :
    (Operation.openRow ⟨rowBound, by decide⟩).outcome? {} = none ∧
      (run [.openRow ⟨rowBound, by decide⟩]).matrix = {} ∧
      ¬ ∀ ops, Covers {index | ∃ op ∈ ops, op.row? = some index} (run ops).matrix.rows
        (run ops).matrix.rowCapacity := by
  have hstopped : (run []).matrix.hasRoom rowBound = false :=
    (run_not_hasRoom [] rowBound).mpr (Nat.le_refl _)
  have hrun : run [.openRow ⟨rowBound, by decide⟩] = {} := step_stopped hstopped
  refine ⟨Operation.outcome?_eq_none_iff.mpr hstopped, congrArg matrix hrun, fun h => ?_⟩
  have hcovers := h [.openRow ⟨rowBound, by decide⟩]
  rw [hrun] at hcovers
  have hlt : rowBound < 8 := hcovers.capacity.1.2 rowBound ⟨_, List.mem_singleton_self _, rfl⟩
  exact absurd hlt (by decide)

def mixedOps : List Operation :=
  [.increment ⟨0, by decide⟩ ⟨0, by decide⟩ ⟨countBound - 1, by decide⟩,
    .increment ⟨0, by decide⟩ ⟨0, by decide⟩ ⟨1, by decide⟩,
    .increment ⟨9, by decide⟩ ⟨2, by decide⟩ ⟨0, by decide⟩, .openRow ⟨20, by decide⟩,
    .increment ⟨9, by decide⟩ ⟨40, by decide⟩ ⟨3, by decide⟩]

def mixedMatrix : CountMatrix := ⟨[⟨0, 0, countBound - 1⟩, ⟨9, 40, 3⟩], 21, 41, 32, 64⟩

theorem run_mixedOps : (run mixedOps).matrix = mixedMatrix := by decide +kernel

theorem run_shape_mixedOps :
    (run mixedOps).matrix = mixedMatrix ∧
      Covers (addressed Operation.row? mixedOps) 21 32 ∧
      Covers (addressed Operation.column? mixedOps) 41 64 ∧
      ((run mixedOps.reverse).matrix.columns = 41 ∧
        (run mixedOps.reverse).matrix.columnCapacity = 64) ∧
      FindsCapacity 32 (indexBound - 1) ∧
      (Operation.openRow ⟨rowBound, by decide⟩).outcome? mixedMatrix = none := by
  obtain ⟨hrows, hcolumns, -, -, -, hsame, hcapacity, hstops⟩ := run_shape mixedOps
  have hreverse : addressed Operation.column? mixedOps.reverse =
      addressed Operation.column? mixedOps := by
    simp [addressed]
  have hothers := hsame mixedOps.reverse hreverse
  have hlast := hcapacity (indexBound - 1) (by decide)
  have hfar := (hstops (.openRow ⟨rowBound, by decide⟩)).mpr (Nat.le_refl _)
  rw [run_mixedOps] at hrows hcolumns hothers hlast hfar
  exact ⟨run_mixedOps, hrows, hcolumns, hothers, hlast.1, hfar⟩

-- ---------------------------------------------------------------------------
-- Counts
-- ---------------------------------------------------------------------------

theorem sumAt_concat (l : Ledger) (op : Operation) (row column : Nat) :
    sumAt ⟨m, l.log ++ [op]⟩ row column = l.sumAt row column + op.deltaAt row column := by
  simp [sumAt]

theorem run_get (ops : List Operation) (r c : Nat) :
    (run ops).matrix.get r c = (run ops).sumAt r c := by
  induction ops using List.reverseRecOn with
  | nil => rfl
  | append_singleton ops op ih =>
    rw [run_concat]
    cases hroom : (run ops).matrix.hasRoom op.row with
    | false =>
      rw [step_stopped hroom]
      exact ih
    | true =>
      cases op with
      | openRow row =>
        rw [step_openRow hroom, sumAt_concat]
        exact ih
      | increment row column delta =>
        have hwf := run_wellFormed ops
        obtain ⟨hrows, hcolumns⟩ := run_covers ops
        by_cases hfits : (run ops).matrix.get row column + delta < countBound
        · obtain ⟨m, hm, -, -, -, hget⟩ := increment_ok hwf row column hfits
          rw [step_increment_ok hroom hm, sumAt_concat, ← ih]
          exact hget r c
        · have hm := increment_error hwf hrows.size_le hcolumns.size_le delta.isLt
            (Nat.not_lt.mp hfits)
          rw [step_increment_error hroom hm]
          exact ih

theorem run_increment?_eq_none (ops : List Operation) (row column delta : Nat) :
    (run ops).matrix.increment? row column delta = none ↔ rowBound ≤ row := by
  rw [← run_not_hasRoom ops]
  simp [increment?]

theorem run_increment (ops : List Operation) (row column : Fin indexBound)
    (delta : Fin countBound) :
    ((∃ fault m, (run ops).matrix.increment? row column delta = some (.error fault, m)) ↔
        row < rowBound ∧ countBound - 1 < (run ops).sumAt row column + delta) ∧
      ∀ fault m, (run ops).matrix.increment? row column delta = some (.error fault, m) →
        m = (run ops).matrix := by
  have hwf := run_wellFormed ops
  obtain ⟨hrows, hcolumns⟩ := run_covers ops
  rw [← run_get, ← run_hasRoom ops, increment?]
  cases hroom : (run ops).matrix.hasRoom row with
  | false => simp
  | true =>
    rw [if_pos rfl]
    by_cases hfits : (run ops).matrix.get row column + delta < countBound
    · obtain ⟨m, hm, -⟩ := increment_ok hwf row column hfits
      rw [hm]
      refine ⟨⟨?_, fun ⟨_, hover⟩ => ?_⟩, ?_⟩
      · rintro ⟨fault, m, ⟨⟩⟩
      · exact absurd hfits (Nat.not_lt.mpr (Nat.le_of_pred_lt hover))
      · rintro fault m ⟨⟩
    · have hover := Nat.not_lt.mp hfits
      rw [increment_error hwf hrows.size_le hcolumns.size_le delta.isLt hover]
      refine ⟨⟨fun _ => ⟨rfl, Nat.lt_of_lt_of_le (by decide) hover⟩, fun _ => ⟨_, _, rfl⟩⟩, ?_⟩
      rintro fault m ⟨⟩
      rfl

/-- The counts of a matrix are the sums of what was added with success. An increment of a row that
has room fails exactly when its sum does not fit in 64 bits, and then it leaves no trace, although
both axes grow and its cell is entered before that is known. -/
theorem run_counts (ops : List Operation) :
    let l := run ops
    (∀ r c, l.matrix.get r c = l.sumAt r c) ∧
      (∀ row : Fin indexBound, l.matrix.openRow? row = none ↔ rowBound ≤ row.val) ∧
      (∀ (row column : Fin indexBound) (delta : Fin countBound),
        (l.matrix.increment? row column delta = none ↔ rowBound ≤ row.val) ∧
          ((∃ fault m, l.matrix.increment? row column delta = some (.error fault, m)) ↔
            row < rowBound ∧ countBound - 1 < l.sumAt row column + delta) ∧
          (∀ fault m, l.matrix.increment? row column delta = some (.error fault, m) →
            m = l.matrix) ∧
          l.matrix.incrementInPlace? row column delta = l.matrix.increment? row column delta) ∧
      {place : Nat × Nat | l.matrix.get place.1 place.2 ≠ 0}.encard = l.matrix.nonZero := by
  have hwf := run_wellFormed ops
  refine ⟨run_get ops, fun row => ?_, fun row column delta => ?_, encard_nonZero hwf⟩
  · rw [← run_not_hasRoom ops]
    simp [openRow?]
  · obtain ⟨hfails, hunchanged⟩ := run_increment ops row column delta
    exact ⟨run_increment?_eq_none ops row column delta, hfails, hunchanged,
      incrementInPlace?_eq hwf delta.isLt⟩

theorem run_counts_mixedOps :
    (run mixedOps).matrix.get 0 0 = countBound - 1 ∧
      (∃ fault, mixedMatrix.increment? 0 0 1 = some (.error fault, mixedMatrix)) ∧
      mixedMatrix.increment? rowBound 0 1 = none ∧
      {place : Nat × Nat | (run mixedOps).matrix.get place.1 place.2 ≠ 0}.encard = 2 := by
  obtain ⟨hget, -, hincrement, hcells⟩ := run_counts mixedOps
  obtain ⟨-, hfails, hunchanged, -⟩ := hincrement ⟨0, by decide⟩ ⟨0, by decide⟩ ⟨1, by decide⟩
  obtain ⟨hstops, -⟩ := hincrement ⟨rowBound, by decide⟩ ⟨0, by decide⟩ ⟨1, by decide⟩
  obtain ⟨fault, m, hfault⟩ := hfails.mpr ⟨by decide, by decide +kernel⟩
  have hsame := hunchanged fault m hfault
  rw [run_mixedOps] at hstops hsame hfault
  subst hsame
  refine ⟨(hget 0 0).trans (by decide +kernel), ⟨fault, hfault⟩,
    hstops.mpr (Nat.le_refl _), ?_⟩
  rw [hcells, run_mixedOps]
  rfl

/-- A sum that fits does not help a row for which there is no room. -/
theorem run_counts_farRow :
    (run []).matrix.increment? rowBound 0 1 = none ∧
      ¬ ∀ (ops : List Operation) (row column : Fin indexBound) (delta : Fin countBound),
        (∃ m, (run ops).matrix.increment? row column delta = some (.ok (), m)) ↔
          (run ops).sumAt row column + delta ≤ countBound - 1 := by
  have hstops : (run []).matrix.increment? rowBound 0 1 = none :=
    (run_increment?_eq_none [] rowBound 0 1).mpr (Nat.le_refl _)
  refine ⟨hstops, fun h => ?_⟩
  obtain ⟨m, hm⟩ :=
    (h [] ⟨rowBound, by decide⟩ ⟨0, by decide⟩ ⟨1, by decide⟩).mpr (by decide +kernel)
  rw [hstops] at hm
  cases hm

end Ledger

end FlowTally.CountMatrix
