import FlowTally.Proofs.Matrix.Dense
import FlowTally.Proofs.Matrix.Listing
import Mathlib

/-!
# Which tables their text gives back

`read_write_iff`: of the tables whose numbers have 64 bits, exactly those come
back from their text whose cells are in order, inside the shape, and no more
than the shape has places. The condition is necessary because the reader gives
no other tables (`regular_of_read`), whatever it reads. What is cropped from a
matrix always meets it (`regular_crop`). `read_declared` is what holds of every table
that is read, from whatever bytes.
-/

namespace FlowTally

open Text.Natural (bound64)

structure CellTable.Sized (t : CellTable) : Prop where
  rows : t.rows < bound64
  columns : t.columns < bound64
  cells : t.cells.length < bound64
  places : ∀ cell ∈ t.cells, cell.row + 1 < bound64 ∧ cell.column + 1 < bound64
  counts : ∀ cell ∈ t.cells, cell.count < bound64

namespace CountMatrix

variable {m : CountMatrix} {rows columns : Nat}

theorem le_of_before {a b : Cell} (h : a.Before b) : a.le b = true := by
  unfold Cell.Before at h
  simp only [Cell.le, Bool.or_eq_true, Bool.and_eq_true, decide_eq_true_eq, beq_iff_eq]
  omega

theorem regular_crop (h : m.WellFormed) (hrows : rows < bound64) (hcolumns : columns < bound64)
    (hcells : (m.crop rows columns).cells.length < bound64) :
    Market.Regular (m.crop rows columns) := by
  have hsub : (m.crop rows columns).cells.Sublist m.cells := List.filter_sublist
  have hinside : ∀ cell ∈ (m.crop rows columns).cells, cell.row < rows ∧ cell.column < columns := by
    intro cell hm
    have hkept := (List.mem_filter.mp hm).2
    simpa only [Bool.and_eq_true, decide_eq_true_eq] using hkept
  exact {
    sorted := (h.sorted.sublist hsub).imp le_of_before
    inside := hinside
    counts := fun cell hm => h.bounded cell (hsub.subset hm)
    rows := hrows
    columns := hcolumns
    cells := hcells
    room := fun _ => length_le_mul (h.sorted.sublist hsub) hinside }

end CountMatrix

namespace Market

open Content (ofChars)

variable {t : CellTable}

theorem read_write_iff_regular : read (ofChars (write t)) = .ok t ↔ Regular t :=
  ⟨regular_of_read, read_write⟩

theorem regular_iff (h : t.Sized) :
    Regular t ↔ (t.cells.Pairwise fun a b => a.le b = true) ∧
      (∀ cell ∈ t.cells, cell.row < t.rows ∧ cell.column < t.columns) ∧
      (t.rows * t.columns < bound64 → t.cells.length ≤ t.rows * t.columns) := by
  constructor
  · intro ht
    exact ⟨ht.sorted, ht.inside, ht.room⟩
  · rintro ⟨hsorted, hinside, hroom⟩
    exact ⟨hsorted, hinside, h.counts, h.rows, h.columns, h.cells, hroom⟩

theorem write?_eq (h : ∀ cell ∈ t.cells, cell.row + 1 < bound64 ∧ cell.column + 1 < bound64) :
    write? t = some (write t) := by
  refine if_pos (List.all_eq_true.mpr fun cell hm => ?_)
  simpa only [Bool.and_eq_true, decide_eq_true_eq] using h cell hm

/-- Regular tables, and no others, come back from their text. What is cropped from a matrix is
regular, whatever the shape. -/
theorem read_write_iff :
    (∀ t : CellTable, t.Sized → ∃ text, write? t = some text ∧
      (read (ofChars text) = .ok t ↔
        (t.cells.Pairwise fun a b => a.le b = true) ∧
        (∀ cell ∈ t.cells, cell.row < t.rows ∧ cell.column < t.columns) ∧
        (t.rows * t.columns < bound64 → t.cells.length ≤ t.rows * t.columns))) ∧
      ∀ m : CountMatrix, m.Reached → ∀ rows < bound64, ∀ columns < bound64,
        (m.crop rows columns).cells.length < bound64 →
        ∃ text, write? (m.crop rows columns) = some text ∧
          read (ofChars text) = .ok (m.crop rows columns) := by
  constructor
  · intro t hsized
    refine ⟨write t, write?_eq hsized.places, ?_⟩
    rw [read_write_iff_regular, regular_iff hsized]
  · intro m hm rows hrows columns hcolumns hcells
    have hregular := CountMatrix.regular_crop hm.wellFormed hrows hcolumns hcells
    refine ⟨_, write?_eq fun cell hcell => ?_, read_write hregular⟩
    have hinside : cell.row < rows ∧ cell.column < columns := hregular.inside cell hcell
    omega

def wideTable : CellTable :=
  ⟨bound64 - 1, bound64 - 1, [⟨0, 7, 0⟩, ⟨0, 7, bound64 - 1⟩, ⟨bound64 - 2, bound64 - 2, 1⟩]⟩

def fullMatrix : CountMatrix := (CountMatrix.increment {} 0 3 (bound64 - 1)).2

theorem read_write_iff_wideTable :
    wideTable.Sized ∧ fullMatrix.Reached ∧
      (∃ text, write? wideTable = some text ∧ read (ofChars text) = .ok wideTable) ∧
      (∃ text, write? (fullMatrix.crop 1 (bound64 - 1)) = some text ∧
        read (ofChars text) = .ok ⟨1, bound64 - 1, [⟨0, 3, bound64 - 1⟩]⟩) ∧
      ∃ text, write? (fullMatrix.crop 0 (bound64 - 1)) = some text ∧
        read (ofChars text) = .ok ⟨0, bound64 - 1, []⟩ := by
  have hsized : wideTable.Sized := ⟨by decide, by decide, by decide, by decide, by decide⟩
  have hreached : fullMatrix.Reached := .increment 0 3 (bound64 - 1) .empty
  obtain ⟨text, htext, hiff⟩ := read_write_iff.1 wideTable hsized
  exact ⟨hsized, hreached, ⟨text, htext, hiff.mpr ⟨by decide, by decide, by decide⟩⟩,
    read_write_iff.2 fullMatrix hreached 1 (by decide) (bound64 - 1) (by decide) (by decide),
    read_write_iff.2 fullMatrix hreached 0 (by decide) (bound64 - 1) (by decide) (by decide)⟩

-- ---------------------------------------------------------------------------
-- Foreign files
-- ---------------------------------------------------------------------------

/-- The size line of a file, which is the first line behind the header that is not skipped,
declares this shape and this number of cells. -/
def Declares (content : Content) (rows columns count : Nat) : Prop :=
  ∃ (header : List Char) (skipped : List (List Char)) (size : List Char) (after : List Content),
    content.lines = ofChars header :: (skipped.map ofChars ++ ofChars size :: after) ∧
      (∀ line ∈ skipped, isSkipped line = true) ∧ isSkipped size = false ∧
      readTriple size = .ok (rows, columns, count)

theorem declares_of_read {content : Content} (h : read content = .ok t) :
    Declares content t.rows t.columns t.cells.length := by
  obtain ⟨header, rest, hlines, -, hlists⟩ := readLines_ok_iff.mp h
  cases hentries : entries rest with
  | nil =>
    rw [hentries] at hlists
    cases hlists
  | cons size listed =>
    rw [hentries] at hlists
    obtain ⟨skipped, line, after, rfl, hskipped, hline, hwords, -⟩ :=
      exists_of_entries_eq_cons hentries
    obtain ⟨hsize, -, -⟩ := hlists
    refine ⟨header, skipped, line, after.map ofChars, by simpa using hlines, hskipped, hline, ?_⟩
    rw [readTriple_ok_iff, hwords, List.length_mergeSort]
    exact hsize

/-- Whatever the bytes: a table that is read has its cells inside its shape and in order, as
many as its size line declares. So every cell finds its place among the rows of numbers, and the
table comes back from its text. -/
theorem read_declared {bytes : List UInt8} (h : read (.ofBytes bytes) = .ok t) :
    (∀ cell ∈ t.cells, cell.row < t.rows ∧ cell.column < t.columns) ∧
      (t.cells.Pairwise fun a b => a.le b = true) ∧
      Declares (.ofBytes bytes) t.rows t.columns t.cells.length ∧
      t.dense? = some t.counts ∧
      ∃ text, write? t = some text ∧ read (ofChars text) = .ok t := by
  have hregular : Regular t := regular_of_read h
  have hwritten : write? t = some (write t) := by
    refine write?_eq fun cell hm => ?_
    have hinside := hregular.inside cell hm
    have hrows := hregular.rows
    have hcolumns := hregular.columns
    omega
  exact ⟨hregular.inside, hregular.sorted, declares_of_read h, CellTable.dense?_eq hregular.inside,
    _, hwritten, read_write hregular⟩

def foreignText : List Char :=
  ["%%MATRIXMARKET matrix coordinate integer general\r\n", "% x\n\n", "  +2\t3 3\r\n", "2 3 7\n",
    "%y\n", " 1 1 0\n", "2 3 +5"].flatMap String.toList

def foreignBytes : List UInt8 := foreignText.map fun c => c.toNat.toUInt8

def foreignTable : CellTable := ⟨2, 3, [⟨0, 0, 0⟩, ⟨1, 2, 5⟩, ⟨1, 2, 7⟩]⟩

theorem read_declared_foreignTable :
    read (.ofBytes foreignBytes) = .ok foreignTable ∧
      Declares (.ofBytes foreignBytes) 2 3 3 ∧
      foreignTable.dense? = some [[0, 0, 0], [0, 0, 7]] ∧
      ∃ text, write? foreignTable = some text ∧ read (ofChars text) = .ok foreignTable := by
  have hbytes : Content.ofBytes foreignBytes = ofChars foreignText := by cbv
  have htable : read (ofChars foreignText) = .ok foreignTable := by cbv
  have hread : read (.ofBytes foreignBytes) = .ok foreignTable := by rw [hbytes, htable]
  obtain ⟨-, -, hdeclares, hdense, htext⟩ := read_declared hread
  exact ⟨hread, hdeclares, hdense, htext⟩

end Market

end FlowTally
