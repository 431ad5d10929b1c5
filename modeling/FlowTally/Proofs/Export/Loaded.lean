import FlowTally.Export.Load
import FlowTally.Proofs.Export.RoundTrip
import FlowTally.Proofs.Matrix.RoundTrip
import Mathlib.Data.List.Forall2

/-!
# What a directory is loaded as

`Artifacts.Complete` collects what holds of a complete export. Loading compares labels and keys
with the shape of the matrix, and nothing else: `load_complete` says that its answers are
complete exactly if the matrix file lists no place twice and no count of zero, the vocabulary
file can be a seed, and the manifest states the numbers of the size line. Of the manifest only
the names of the files are used, so one of another run is accepted as well.
-/

namespace FlowTally

/-- What holds of a complete export. -/
structure Artifacts.Complete (a : Artifacts) : Prop where
  sorted : a.matrix.cells.Pairwise Cell.Before
  counted : ∀ cell ∈ a.matrix.cells, cell.count ≠ 0
  distinct : a.vocabulary.Nodup
  labels : a.labels.length = a.matrix.rows
  keys : a.vocabulary.length = a.matrix.columns
  rows : a.manifest.rows = a.matrix.rows
  columns : a.manifest.columns = a.matrix.columns
  nonZero : a.manifest.nonZero = a.matrix.cells.length

def Cell.Apart (a b : Cell) : Prop := ¬ (a.row = b.row ∧ a.column = b.column)

namespace Market

open Content (ofChars)

variable {t : CellTable} {cells : List Cell} {content : Content} {rows columns count : Nat}

/-- Of the lines for the cells each names another place, and none has the count zero. -/
def ListsOnce (content : Content) (rows columns : Nat) : Prop :=
  ∃ header rest size listed cells, content.lines = ofChars header :: rest.map ofChars ∧
    entries rest = size :: listed ∧ List.Forall₂ (IsCell rows columns) listed cells ∧
    cells.Pairwise Cell.Apart ∧ ∀ cell ∈ cells, cell.count ≠ 0

-- ---------------------------------------------------------------------------
-- Places that are listed once
-- ---------------------------------------------------------------------------

theorem pairwise_before_iff (h : cells.Pairwise fun a b => a.le b = true) :
    cells.Pairwise Cell.Before ↔ cells.Pairwise Cell.Apart := by
  constructor
  · refine List.Pairwise.imp fun {a b} hbefore => ?_
    unfold Cell.Before at hbefore
    unfold Cell.Apart
    omega
  · intro hapart
    refine (h.and hapart).imp fun {a b} ⟨hle, hapart⟩ => ?_
    simp only [Cell.le, Bool.or_eq_true, Bool.and_eq_true, decide_eq_true_eq, beq_iff_eq] at hle
    unfold Cell.Apart at hapart
    unfold Cell.Before
    omega

theorem pairwise_apart_mergeSort :
    (cells.mergeSort Cell.le).Pairwise Cell.Apart ↔ cells.Pairwise Cell.Apart := by
  refine (List.mergeSort_perm cells Cell.le).pairwise_iff fun hapart hsame => ?_
  exact hapart ⟨hsame.1.symm, hsame.2.symm⟩

theorem isCell_unique : Relator.RightUnique (IsCell rows columns) := by
  intro words a b ha hb
  cases a
  cases b
  have hsame := ha.fields.symm.trans hb.fields
  simpa using hsame

theorem listsOnce_iff (h : read content = .ok t) :
    ListsOnce content t.rows t.columns ↔
      t.cells.Pairwise Cell.Before ∧ ∀ cell ∈ t.cells, cell.count ≠ 0 := by
  obtain ⟨header, rest, hlines, -, hlists⟩ := readLines_ok_iff.mp h
  have hsorted := hlists.regular.sorted
  cases hentries : entries rest with
  | nil =>
    rw [hentries] at hlists
    cases hlists
  | cons size listed =>
    rw [hentries] at hlists
    obtain ⟨-, -, hcells⟩ := hlists
    rw [pairwise_before_iff hsorted, pairwise_apart_mergeSort]
    simp only [List.mem_mergeSort]
    constructor
    · rintro ⟨header', rest', size', listed', found, hlines', hentries', hfound, hapart, hcount⟩
      obtain ⟨-, hrest⟩ := List.cons.inj (hlines.symm.trans hlines')
      cases List.map_injective_iff.mpr (fun _ _ => Content.ofChars_inj) hrest
      obtain ⟨-, rfl⟩ := List.cons.inj (hentries.symm.trans hentries')
      cases List.right_unique_forall₂' isCell_unique hfound hcells
      exact ⟨hapart, hcount⟩
    · rintro ⟨hapart, hcount⟩
      exact ⟨header, rest, size, listed, _, hlines, hentries, hcells, hapart, hcount⟩

theorem declares_iff (h : read content = .ok t) :
    Declares content rows columns count ↔
      rows = t.rows ∧ columns = t.columns ∧ count = t.cells.length := by
  constructor
  · rintro ⟨header, skipped, size, after, hlines, hskipped, hsize, hread⟩
    obtain ⟨header', skipped', size', after', hlines', hskipped', hsize', hread'⟩ :=
      declares_of_read h
    obtain ⟨-, hrest⟩ := List.cons.inj (hlines.symm.trans hlines')
    have hfound : findSize (skipped.map ofChars ++ ofChars size :: after) = .ok (size, after) :=
      findSize_ok_iff.mpr ⟨skipped, rfl, hskipped, hsize⟩
    have hsame : findSize (skipped.map ofChars ++ ofChars size :: after) = .ok (size', after') :=
      findSize_ok_iff.mpr ⟨skipped', hrest, hskipped', hsize'⟩
    cases hfound.symm.trans hsame
    simpa using hread.symm.trans hread'
  · rintro ⟨rfl, rfl, rfl⟩
    exact declares_of_read h

end Market

namespace Export

open FileTree (join)
open Market (Declares ListsOnce Regular)

variable {files : FileTree} {directory name : String} {a : Artifacts} {m : Manifest}
  {t : CellTable} {keys : List FlowKey}

-- ---------------------------------------------------------------------------
-- Loading file by file
-- ---------------------------------------------------------------------------

theorem load_ok_iff :
    load files directory = .ok a ↔
      readManifest files directory = .ok (some a.manifest) ∧
        readMatrix files directory a.manifest.matrixFile = .ok a.matrix ∧
        readVocabulary files directory a.manifest.vocabularyFile = .ok a.vocabulary ∧
        readLabels files directory a.manifest.labelsFile = .ok a.labels ∧
        a.labels.length = a.matrix.rows ∧ a.vocabulary.length = a.matrix.columns := by
  constructor
  · intro h
    obtain ⟨found, hmanifest, h⟩ := bind_ok.mp h
    cases found with
    | none => cases h
    | some m =>
      obtain ⟨t, hmatrix, h⟩ := bind_ok.mp h
      obtain ⟨keys, hvocabulary, h⟩ := bind_ok.mp h
      obtain ⟨entries, hlabels, h⟩ := bind_ok.mp h
      split at h
      · cases h
      · rename_i hshape
        cases h
        simp only [ne_eq, not_or, not_not] at hshape
        exact ⟨hmanifest, hmatrix, hvocabulary, hlabels, hshape.1.symm, hshape.2.symm⟩
  · rintro ⟨hmanifest, hmatrix, hvocabulary, hlabels, hrows, hcolumns⟩
    have hshape : ¬ (a.matrix.rows ≠ a.labels.length ∨ a.matrix.columns ≠ a.vocabulary.length) := by
      simp [hrows, hcolumns]
    refine bind_ok.mpr ⟨some a.manifest, hmanifest, ?_⟩
    refine bind_ok.mpr ⟨a.matrix, hmatrix, ?_⟩
    refine bind_ok.mpr ⟨a.vocabulary, hvocabulary, ?_⟩
    refine bind_ok.mpr ⟨a.labels, hlabels, ?_⟩
    exact if_neg hshape

theorem readMatrix_ok_iff :
    readMatrix files directory name = .ok t ↔
      ∃ content, files.read (join directory name) = .ok content ∧ Market.read content = .ok t := by
  simp only [readMatrix, fileContent, bind_ok, mapError_ok]

theorem readVocabulary_ok_iff :
    readVocabulary files directory name = .ok keys ↔
      ∃ content, files.read (join directory name) = .ok content ∧
        FlowKey.readLines 1 content.lines = .ok keys := by
  simp only [readVocabulary, fileContent, bind_ok, mapError_ok]

/-- A vocabulary file can be a seed exactly if it lists no key twice. -/
theorem loadVocabulary_iff (h : readVocabulary files directory name = .ok keys) (frozen : Bool) :
    Vocabulary.load files (join directory name) frozen = .ok ⟨keys, frozen⟩ ↔ keys.Nodup := by
  obtain ⟨content, hread, hlines⟩ := readVocabulary_ok_iff.mp h
  simp only [Vocabulary.load, hread, Vocabulary.ofContent, hlines, mapError_ok,
    Vocabulary.ofKeys_ok, and_true]

theorem load_restated {other : FileTree} (h : load files directory = .ok a)
    (hm : readManifest other directory = .ok (some m))
    (hnames : m.matrixFile = a.manifest.matrixFile ∧ m.vocabularyFile = a.manifest.vocabularyFile ∧
      m.labelsFile = a.manifest.labelsFile)
    (hfiles : ∀ name ∈ [m.matrixFile, m.vocabularyFile, m.labelsFile],
      other.read (join directory name) = files.read (join directory name)) :
    load other directory = .ok { a with manifest := m } := by
  obtain ⟨-, hmatrix, hvocabulary, hlabels, hshape⟩ := load_ok_iff.mp h
  have hcontent (name : String) (hname : name ∈ [m.matrixFile, m.vocabularyFile, m.labelsFile]) :
      fileContent other directory name = fileContent files directory name :=
    congrArg (Except.mapError RunError.io) (hfiles name hname)
  obtain ⟨hmatrixFile, hvocabularyFile, hlabelsFile⟩ := hnames
  refine load_ok_iff.mpr ⟨hm, ?_, ?_, ?_, hshape⟩
  · rw [readMatrix, hcontent _ (by simp), hmatrixFile]
    exact hmatrix
  · rw [readVocabulary, hcontent _ (by simp), hvocabularyFile]
    exact hvocabulary
  · rw [readLabels, hcontent _ (by simp), hlabelsFile]
    exact hlabels

/-- What is loaded has a label for each row, a key for each column and its cells in order. It is
complete exactly if matrix file, vocabulary file and manifest are what an export leaves, and the
same files are loaded with any manifest that names them. -/
theorem load_complete (h : load files directory = .ok a) :
    (a.Complete ↔
      (∃ content, files.read (join directory a.manifest.matrixFile) = .ok content ∧
        ListsOnce content a.matrix.rows a.matrix.columns ∧
        Declares content a.manifest.rows a.manifest.columns a.manifest.nonZero) ∧
      ∀ frozen, Vocabulary.load files (join directory a.manifest.vocabularyFile) frozen =
        .ok ⟨a.vocabulary, frozen⟩) ∧
    a.labels.length = a.matrix.rows ∧ a.vocabulary.length = a.matrix.columns ∧
    Regular a.matrix ∧
    ∀ (other : FileTree) (m : Manifest), readManifest other directory = .ok (some m) →
      m.matrixFile = a.manifest.matrixFile ∧ m.vocabularyFile = a.manifest.vocabularyFile ∧
        m.labelsFile = a.manifest.labelsFile →
      (∀ name ∈ [m.matrixFile, m.vocabularyFile, m.labelsFile],
        other.read (join directory name) = files.read (join directory name)) →
      load other directory = .ok { a with manifest := m } := by
  obtain ⟨-, hmatrix, hvocabulary, -, hlabels, hkeys⟩ := load_ok_iff.mp h
  obtain ⟨content, hcontent, hread⟩ := readMatrix_ok_iff.mp hmatrix
  have honce := Market.listsOnce_iff hread
  refine ⟨⟨fun hc => ⟨⟨content, hcontent, ?_, ?_⟩, ?_⟩, ?_⟩, hlabels, hkeys,
    Market.regular_of_read hread, fun other m => load_restated h⟩
  · exact honce.mpr ⟨hc.sorted, hc.counted⟩
  · exact (Market.declares_iff hread).mpr ⟨hc.rows, hc.columns, hc.nonZero⟩
  · exact fun frozen => (loadVocabulary_iff hvocabulary frozen).mpr hc.distinct
  · rintro ⟨⟨other, hother, hlisted, hdeclared⟩, hseed⟩
    cases hother.symm.trans hcontent
    obtain ⟨hsorted, hcounted⟩ := honce.mp hlisted
    obtain ⟨hrows, hcolumns, hnonZero⟩ := (Market.declares_iff hread).mp hdeclared
    exact ⟨hsorted, hcounted, (loadVocabulary_iff hvocabulary true).mp (hseed true), hlabels, hkeys,
      hrows, hcolumns, hnonZero⟩

def looseMatrix : List Char :=
  ["%%MatrixMarket matrix coordinate integer general\n", "1 2 2\n", "1 1 0\n", "1 1 7\n"].flatMap
    String.toList

def looseManifest : Manifest where
  runId := ⟨7⟩
  createdAt := ⟨20000, 0, 0⟩
  rows := 9
  columns := 9
  nonZero := 9
  labelStyle := .numeric
  matrixFile := "features.mtx"
  vocabularyFile := "graphs.txt"
  labelsFile := "labels.txt"

def looseFiles : FileTree :=
  ⟨[(["out"], .directory), (["out", "manifest.json"], .file (.ofChars looseManifest.write)),
    (["out", "features.mtx"], .file (.ofChars looseMatrix)),
    (["out", "graphs.txt"], .file (.ofString "A-[F]->B\nA-[F]->B\n")),
    (["out", "labels.txt"], .file (.ofString "1,a\n"))]⟩

def looseArtifacts : Artifacts :=
  ⟨looseManifest, ⟨1, 2, [⟨0, 0, 0⟩, ⟨0, 0, 7⟩]⟩, [⟨["A"], ["F"], ["B"]⟩, ⟨["A"], ["F"], ["B"]⟩],
    [⟨true, "a"⟩]⟩

theorem load_complete_looseFiles :
    load looseFiles "out" = .ok looseArtifacts ∧ ¬ looseArtifacts.Complete ∧
      ¬ looseArtifacts.matrix.cells.Pairwise Cell.Before ∧
      ¬ (∀ cell ∈ looseArtifacts.matrix.cells, cell.count ≠ 0) ∧
      ¬ looseArtifacts.vocabulary.Nodup ∧
      looseArtifacts.manifest.nonZero ≠ looseArtifacts.matrix.cells.length ∧
      Regular looseArtifacts.matrix := by
  have hmanifest : readManifest looseFiles "out" = .ok (some looseManifest) :=
    readManifest_ok ⟨by decide, by decide, by decide, by decide, by decide⟩ (by decide +kernel)
  have hcontent : looseFiles.read (join "out" "features.mtx") = .ok (.ofChars looseMatrix) := by
    decide +kernel
  have htable : Market.read (.ofChars looseMatrix) = .ok looseArtifacts.matrix := by cbv
  have hmatrix : readMatrix looseFiles "out" "features.mtx" = .ok looseArtifacts.matrix :=
    readMatrix_ok_iff.mpr ⟨_, hcontent, htable⟩
  have hvocabulary : readVocabulary looseFiles "out" "graphs.txt" =
      .ok looseArtifacts.vocabulary := by decide +kernel
  have hlabels : readLabels looseFiles "out" "labels.txt" = .ok looseArtifacts.labels := by
    decide +kernel
  have hload : load looseFiles "out" = .ok looseArtifacts :=
    load_ok_iff.mpr ⟨hmanifest, hmatrix, hvocabulary, hlabels, rfl, rfl⟩
  have hkeys : ¬ looseArtifacts.vocabulary.Nodup := by decide
  have hcells : ¬ looseArtifacts.matrix.cells.Pairwise Cell.Before := by
    simp [looseArtifacts, Cell.Before]
  exact ⟨hload, fun hc => hkeys hc.distinct, hcells, by decide, hkeys, by decide,
    (load_complete hload).2.2.2.1⟩

end Export

end FlowTally
