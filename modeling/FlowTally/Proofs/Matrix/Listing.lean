import FlowTally.Proofs.Matrix.Market
import Mathlib.Data.List.Forall2

/-!
# What a Matrix Market text lists

Behind its header a text is read word by word: a line counts by its words alone
(`isSkipped_eq`), and of the lines that count the first declares the shape and the number
of cells, and each of the others lists one cell. `Lists` says so for the table as a whole,
and `readLines_ok_iff` that this is all there is to reading. So every table that is read is
regular (`regular_of_read`).
-/

namespace FlowTally.Market

open Content (ofChars)
open Text (isBlank trim words)
open Text.Natural (bound64)

-- ---------------------------------------------------------------------------
-- Entries
-- ---------------------------------------------------------------------------

def isEntry : List (List Char) → Bool
  | (c :: _) :: _ => c != '%'
  | _ => false

/-- The words of the lines that are not skipped. -/
def entries (lines : List (List Char)) : List (List (List Char)) := (lines.map words).filter isEntry

structure IsCell (rows columns : Nat) (words : List (List Char)) (cell : Cell) : Prop where
  fields : readFields words = .ok [cell.row + 1, cell.column + 1, cell.count]
  row : cell.row < rows
  column : cell.column < columns

/-- The entries declare the shape of the table and the number of its cells, and list its cells
in some order. -/
inductive Lists : List (List (List Char)) → CellTable → Prop
  | intro (hsize : readFields size = .ok [rows, columns, cells.length])
      (hroom : rows * columns < bound64 → cells.length ≤ rows * columns)
      (hcells : List.Forall₂ (IsCell rows columns) listed cells) :
      Lists (size :: listed) ⟨rows, columns, cells.mergeSort Cell.le⟩

variable {t : CellTable} {rows columns : Nat} {ns : List Nat} {line : List Char}
  {lines : List Content} {cells : List Cell}

theorem isSkipped_eq (line : List Char) : isSkipped line = !isEntry (words line) := by
  rw [← Text.words_trim line]
  unfold isSkipped
  split
  · rename_i htrim
    rw [htrim]
    rfl
  · rename_i c cs htrim
    have hc : isBlank c = false := Text.isBlank_head?_trim (by rw [htrim]; rfl)
    obtain ⟨w, ws, hwords⟩ := Text.exists_words_cons hc cs
    rw [htrim, hwords]
    exact (Bool.not_not (c == '%')).symm

theorem entries_cons (line : List Char) (rest : List (List Char)) :
    entries (line :: rest) =
      if isSkipped line = true then entries rest else words line :: entries rest := by
  rw [entries, List.map_cons, List.filter_cons, isSkipped_eq]
  cases isEntry (words line) <;> rfl

-- ---------------------------------------------------------------------------
-- Reading
-- ---------------------------------------------------------------------------

theorem readTriple_ok_iff {a b c : Nat} :
    readTriple line = .ok (a, b, c) ↔ readFields (words line) = .ok [a, b, c] := by
  unfold readTriple
  split
  · rename_i hfields
    simp [hfields]
  · rename_i hfields
    simp [hfields]
  · rename_i ns hne hfields
    rw [hfields]
    constructor
    · rintro ⟨⟩
    · rintro ⟨⟩
      exact absurd rfl (hne a b c)

theorem readCell_ok_iff {cell : Cell} :
    readCell rows columns line = .ok cell ↔ IsCell rows columns (words line) cell := by
  constructor
  · intro h
    unfold readCell at h
    split at h
    · cases h
    · rename_i row column count hread
      split at h
      · cases h
      · rename_i hinside
        cases h
        have hrow : row - 1 + 1 = row := by omega
        have hcolumn : column - 1 + 1 = column := by omega
        have hfields := readTriple_ok_iff.mp hread
        have hplace : row - 1 < rows ∧ column - 1 < columns := by omega
        exact ⟨by simpa only [hrow, hcolumn] using hfields, hplace.1, hplace.2⟩
  · rintro ⟨hfields, hrow, hcolumn⟩
    rw [readCell, readTriple_ok_iff.mpr hfields]
    simp only
    rw [if_neg (by omega)]
    rfl

theorem readCells_skipped {cs : List Char} (h : isSkipped cs = true) :
    readCells rows columns (ofChars cs :: lines) = readCells rows columns lines := by
  simp only [readCells, Content.chars?_ofChars, if_pos h]

theorem readCells_entry_ok_iff {cs : List Char} (h : isSkipped cs = false) :
    readCells rows columns (ofChars cs :: lines) = .ok cells ↔
      ∃ cell others, IsCell rows columns (words cs) cell ∧
        readCells rows columns lines = .ok others ∧ cells = cell :: others := by
  rw [readCells, Content.chars?_ofChars, ← Text.words_trim]
  simp only [h, Bool.false_eq_true, if_false]
  constructor
  · intro hread
    split at hread
    · cases hread
    · rename_i cell hcell
      obtain ⟨others, hothers, rfl⟩ := map_ok.mp hread
      exact ⟨cell, others, readCell_ok_iff.mp hcell, hothers, rfl⟩
  · rintro ⟨cell, others, hcell, hothers, rfl⟩
    rw [readCell_ok_iff.mpr hcell, hothers]
    rfl

theorem readCells_ok_iff :
    readCells rows columns lines = .ok cells ↔
      ∃ rest, lines = rest.map ofChars ∧ List.Forall₂ (IsCell rows columns) (entries rest) cells := by
  induction lines generalizing cells with
  | nil =>
    constructor
    · rintro ⟨⟩
      exact ⟨[], rfl, .nil⟩
    · rintro ⟨rest, hrest, hcells⟩
      cases List.map_eq_nil_iff.mp hrest.symm
      cases hcells
      rfl
  | cons line lines ih =>
    constructor
    · intro h
      cases hcs : line.chars? with
      | none =>
        rw [readCells, hcs] at h
        cases h
      | some cs =>
        cases Content.chars?_eq_some.mp hcs
        cases hskip : isSkipped cs with
        | true =>
          rw [readCells_skipped hskip] at h
          obtain ⟨rest, rfl, hcells⟩ := ih.mp h
          exact ⟨cs :: rest, rfl, by rwa [entries_cons, if_pos hskip]⟩
        | false =>
          obtain ⟨cell, others, hcell, hothers, rfl⟩ := (readCells_entry_ok_iff hskip).mp h
          obtain ⟨rest, rfl, hcells⟩ := ih.mp hothers
          refine ⟨cs :: rest, rfl, ?_⟩
          rw [entries_cons, if_neg (Bool.eq_false_iff.mp hskip)]
          exact .cons hcell hcells
    · rintro ⟨rest, hrest, hcells⟩
      cases rest with
      | nil => cases hrest
      | cons cs rest =>
        obtain ⟨rfl, rfl⟩ := List.cons.inj hrest
        rw [entries_cons] at hcells
        cases hskip : isSkipped cs with
        | true =>
          rw [if_pos hskip] at hcells
          exact (readCells_skipped hskip).trans (ih.mpr ⟨rest, rfl, hcells⟩)
        | false =>
          rw [if_neg (Bool.eq_false_iff.mp hskip)] at hcells
          cases hcells with
          | cons hcell hothers =>
            exact (readCells_entry_ok_iff hskip).mpr
              ⟨_, _, hcell, ih.mpr ⟨rest, rfl, hothers⟩, rfl⟩

theorem findSize_ok_iff {size : List Char} {after : List Content} :
    findSize lines = .ok (size, after) ↔
      ∃ skipped : List (List Char), lines = skipped.map ofChars ++ ofChars size :: after ∧
        (∀ line ∈ skipped, isSkipped line = true) ∧ isSkipped size = false := by
  induction lines with
  | nil => simp [findSize]
  | cons line lines ih =>
    constructor
    · intro h
      rw [findSize] at h
      split at h
      · cases h
      · rename_i cs hcs
        cases Content.chars?_eq_some.mp hcs
        split at h
        · rename_i hskip
          obtain ⟨skipped, rfl, hskipped, hsize⟩ := ih.mp h
          exact ⟨cs :: skipped, rfl, List.forall_mem_cons.mpr ⟨hskip, hskipped⟩, hsize⟩
        · rename_i hskip
          cases h
          exact ⟨[], rfl, by simp, Bool.eq_false_iff.mpr hskip⟩
    · rintro ⟨skipped, hlines, hskipped, hsize⟩
      cases skipped with
      | nil =>
        obtain ⟨rfl, rfl⟩ := List.cons.inj hlines
        rw [findSize, Content.chars?_ofChars]
        simp only [hsize, Bool.false_eq_true, if_false]
      | cons cs skipped =>
        obtain ⟨rfl, rfl⟩ := List.cons.inj hlines
        obtain ⟨hskip, hskipped⟩ := List.forall_mem_cons.mp hskipped
        rw [findSize, Content.chars?_ofChars]
        simp only [hskip, if_true]
        exact ih.mpr ⟨skipped, rfl, hskipped, hsize⟩

theorem entries_append (before after : List (List Char)) :
    entries (before ++ after) = entries before ++ entries after := by
  simp [entries]

theorem entries_of_skipped {skipped : List (List Char)}
    (h : ∀ line ∈ skipped, isSkipped line = true) : entries skipped = [] := by
  induction skipped with
  | nil => rfl
  | cons line skipped ih =>
    obtain ⟨hline, hskipped⟩ := List.forall_mem_cons.mp h
    rw [entries_cons, if_pos hline, ih hskipped]

theorem exists_of_entries_eq_cons {size : List (List Char)} {listed : List (List (List Char))}
    {lines : List (List Char)} (h : entries lines = size :: listed) :
    ∃ skipped line rest, lines = skipped ++ line :: rest ∧
      (∀ line ∈ skipped, isSkipped line = true) ∧ isSkipped line = false ∧
      words line = size ∧ entries rest = listed := by
  induction lines with
  | nil => cases h
  | cons line lines ih =>
    rw [entries_cons] at h
    split at h
    · rename_i hskip
      obtain ⟨skipped, found, rest, rfl, hskipped, hfound⟩ := ih h
      exact ⟨line :: skipped, found, rest, rfl, List.forall_mem_cons.mpr ⟨hskip, hskipped⟩, hfound⟩
    · rename_i hskip
      obtain ⟨hsize, hlisted⟩ := List.cons.inj h
      exact ⟨[], line, lines, rfl, by simp, Bool.eq_false_iff.mpr hskip, hsize, hlisted⟩

theorem readBody_ok (h : readBody lines = .ok t) :
    ∃ size after cells, findSize lines = .ok (size, after) ∧
      readTriple size = .ok (t.rows, t.columns, cells.length) ∧
      (t.rows * t.columns < bound64 → cells.length ≤ t.rows * t.columns) ∧
      readCells t.rows t.columns after = .ok cells ∧ t.cells = cells.mergeSort Cell.le := by
  unfold readBody at h
  split at h
  · cases h
  · rename_i size after hfound
    split at h
    · cases h
    · rename_i rows columns declared hread
      split at h
      · cases h
      · rename_i hroom
        split at h
        · cases h
        · rename_i cells hcells
          split at h
          · rename_i hdeclared
            cases h
            cases hdeclared
            have hfit := fun hfits => Nat.not_lt.mp fun hover => hroom ⟨hfits, hover⟩
            exact ⟨size, after, cells, hfound, hread, hfit, hcells, rfl⟩
          · cases h

theorem readBody_ok_iff :
    readBody lines = .ok t ↔ ∃ rest, lines = rest.map ofChars ∧ Lists (entries rest) t := by
  constructor
  · intro h
    obtain ⟨size, after, cells, hfound, hread, hroom, hcells, hsorted⟩ := readBody_ok h
    obtain ⟨skipped, rfl, hskipped, hsize⟩ := findSize_ok_iff.mp hfound
    obtain ⟨rest, rfl, hlisted⟩ := readCells_ok_iff.mp hcells
    refine ⟨skipped ++ size :: rest, by simp, ?_⟩
    rw [entries_append, entries_of_skipped hskipped, List.nil_append, entries_cons,
      if_neg (by simp [hsize])]
    have hlists := Lists.intro (readTriple_ok_iff.mp hread) hroom hlisted
    rwa [← hsorted] at hlists
  · rintro ⟨rest, rfl, hlists⟩
    cases hentries : entries rest with
    | nil =>
      rw [hentries] at hlists
      cases hlists
    | cons size listed =>
      rw [hentries] at hlists
      obtain ⟨skipped, line, rest, rfl, hskipped, hline, rfl, rfl⟩ :=
        exists_of_entries_eq_cons hentries
      cases hlists with
      | intro hsize hroom hcells =>
        have hfound : findSize ((skipped ++ line :: rest).map ofChars) =
            .ok (line, rest.map ofChars) :=
          findSize_ok_iff.mpr ⟨skipped, by simp, hskipped, hline⟩
        have hover := not_and.mpr fun hfits => Nat.not_lt.mpr (hroom hfits)
        have hcellsRead := readCells_ok_iff.mpr ⟨rest, rfl, hcells⟩
        simp only [readBody, hfound, readTriple_ok_iff.mpr hsize, if_neg hover, hcellsRead, if_true]

theorem readLines_ok_iff :
    readLines lines = .ok t ↔
      ∃ header rest, lines = ofChars header :: rest.map ofChars ∧ isHeader header = true ∧
        Lists (entries rest) t := by
  constructor
  · intro h
    unfold readLines at h
    split at h
    · cases h
    · split at h
      · cases h
      · rename_i header hheader
        cases Content.chars?_eq_some.mp hheader
        split at h
        · rename_i hok
          obtain ⟨rest, rfl, hlists⟩ := readBody_ok_iff.mp h
          exact ⟨header, rest, rfl, hok, hlists⟩
        · cases h
  · rintro ⟨header, rest, rfl, hok, hlists⟩
    simp only [readLines, Content.chars?_ofChars, hok, if_true]
    exact readBody_ok_iff.mpr ⟨rest, rfl, hlists⟩

-- ---------------------------------------------------------------------------
-- What can be read
-- ---------------------------------------------------------------------------

theorem readFields_lt {fields : List (List Char)} (h : readFields fields = .ok ns) :
    ∀ n ∈ ns, n < bound64 := by
  induction fields generalizing ns with
  | nil =>
    cases h
    simp
  | cons field fields ih =>
    rw [readFields] at h
    split at h
    · cases h
    · rename_i n hn
      obtain ⟨ms, hms, rfl⟩ := map_ok.mp h
      exact List.forall_mem_cons.mpr ⟨Text.Natural.read_lt (by decide) hn, ih hms⟩

theorem inside_of_forall₂ {listed : List (List (List Char))}
    (h : List.Forall₂ (IsCell rows columns) listed cells) :
    ∀ cell ∈ cells, (cell.row < rows ∧ cell.column < columns) ∧ cell.count < bound64 := by
  induction h with
  | nil => simp
  | cons hcell _ ih =>
    have hnumbers := readFields_lt hcell.fields
    exact List.forall_mem_cons.mpr ⟨⟨⟨hcell.row, hcell.column⟩, hnumbers _ (by simp)⟩, ih⟩

theorem Lists.regular {listed : List (List (List Char))} (h : Lists listed t) : Regular t := by
  obtain ⟨hsize, hroom, hcells⟩ := h
  have hnumbers := readFields_lt hsize
  have hmem := inside_of_forall₂ hcells
  exact {
    sorted := List.pairwise_mergeSort Cell.le_trans Cell.le_total _
    inside := fun cell hm => (hmem cell (List.mem_mergeSort.mp hm)).1
    counts := fun cell hm => (hmem cell (List.mem_mergeSort.mp hm)).2
    rows := hnumbers _ (by simp)
    columns := hnumbers _ (by simp)
    cells := by
      rw [List.length_mergeSort]
      exact hnumbers _ (by simp)
    room := by rwa [List.length_mergeSort] }

/-- Whatever a text is read as is a table that some text stands for. -/
theorem regular_of_read {content : Content} (h : read content = .ok t) : Regular t := by
  obtain ⟨_, _, -, -, hlists⟩ := readLines_ok_iff.mp h
  exact hlists.regular

end FlowTally.Market
