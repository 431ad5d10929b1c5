import FlowTally.Proofs.Export.Labels
import FlowTally.Proofs.Export.Manifest
import FlowTally.Proofs.Export.Publish
import FlowTally.Proofs.Key.Text
import FlowTally.Proofs.Matrix.RoundTrip
import FlowTally.Proofs.Vocabulary

/-!
# Exports read back

`load_run`: what an export of aligned parts publishes is loaded as exactly
these parts. The files are in their places with their content (`read_run`), and
each of the four texts is read back by the reader of its kind. Alignment is
what the readers rely on: the exported table has all cells of the matrix, its
shape counts labels and keys, and every label stays on its line.
-/

namespace FlowTally.Export

open Content (OneLine)
open FileTree (join)
open Text.Natural (bound64)

variable {p : ExportParts} {target : ExportTarget} {stamp : Stamp} {files : FileTree}
  {fails : Nat → Option IoFault}

/-- Labels, keys and cells can be counted with 64 bits. -/
structure Countable (p : ExportParts) : Prop where
  labels : p.labels.size < bound64
  keys : p.vocabulary.size < bound64
  cells : p.matrix.nonZero < bound64

structure ValidStamp (stamp : Stamp) : Prop where
  runId : stamp.runId.value < 2 ^ 128
  createdAt : stamp.createdAt.Valid

-- ---------------------------------------------------------------------------
-- Alignment
-- ---------------------------------------------------------------------------

theorem oneLine_of_holdsLineBreak {id : String} (h : holdsLineBreak id = false) :
    OneLine id.toList := by
  rw [holdsLineBreak, List.any_eq_false] at h
  constructor
  · intro hm
    simpa using h _ hm
  · intro hm
    simpa using h _ hm

theorem checkAlignment_ok (h : checkAlignment p = .ok ()) :
    p.matrix.rows = p.labels.size ∧ p.matrix.columns ≤ p.vocabulary.size ∧
      ∀ e ∈ p.labels.entries, OneLine e.sampleId.toList := by
  obtain ⟨-, -, h⟩ := bind_ok.mp h
  split at h
  · cases h
  · rename_i hrows
    split at h
    · cases h
    · rename_i hcolumns
      split at h
      · cases h
      · rename_i hfind
        refine ⟨by simpa using hrows, by omega, fun e he => ?_⟩
        have hid := List.find?_eq_none.mp hfind e he
        exact oneLine_of_holdsLineBreak (by simpa using hid)

theorem cells_table (hm : p.matrix.WellFormed) (hcheck : checkAlignment p = .ok ()) :
    (table p).cells = p.matrix.cells := by
  obtain ⟨hrows, hcolumns, -⟩ := checkAlignment_ok hcheck
  exact hm.crop_cells hrows.le hcolumns

theorem regular_table (hm : p.matrix.WellFormed) (hp : Countable p)
    (hcheck : checkAlignment p = .ok ()) : Market.Regular (table p) := by
  have hcells : (table p).cells.length < bound64 := by
    rw [cells_table hm hcheck]
    exact hp.cells
  exact CountMatrix.regular_crop hm hp.labels hp.keys hcells

-- ---------------------------------------------------------------------------
-- Loading
-- ---------------------------------------------------------------------------

theorem valid_manifest (hm : p.matrix.WellFormed) (hp : Countable p) (hs : ValidStamp stamp)
    (hcheck : checkAlignment p = .ok ()) (style : LabelStyle) : (manifest stamp style p).Valid :=
  ⟨hs.runId, hs.createdAt, hp.labels, hp.keys, (regular_table hm hp hcheck).cells⟩

theorem fileContent_ok {directory name : String} {content : Content}
    (h : files.read (join directory name) = .ok content) :
    fileContent files directory name = .ok content := by
  rw [fileContent, h]
  rfl

theorem readManifest_ok {directory : String} {m : Manifest} (hm : m.Valid)
    (hread : files.read (join directory manifestFile) = .ok (.ofChars m.write)) :
    readManifest files directory = .ok (some m) := by
  simp only [readManifest, FileTree.exists?_of_read hread, if_true, hread, Except.toOption,
    Option.bind_some, Manifest.read?_write hm]

theorem readMatrix_ok {directory name : String} {t : CellTable} (ht : Market.Regular t)
    (h : files.read (join directory name) = .ok (.ofChars (Market.write t))) :
    readMatrix files directory name = .ok t := by
  rw [readMatrix, fileContent_ok h, Except.bind, Market.read_write ht]
  rfl

theorem readVocabulary_ok {directory name : String} {keys : List FlowKey}
    (h : files.read (join directory name) = .ok (.ofChars (FlowKey.writeLines keys))) :
    readVocabulary files directory name = .ok keys := by
  rw [readVocabulary, fileContent_ok h, Except.bind, FlowKey.readLines_writeLines]
  rfl

theorem readLabels_ok {directory name : String} {style : LabelStyle} {entries : List LabelEntry}
    (hentries : ∀ e ∈ entries, OneLine e.sampleId.toList)
    (h : files.read (join directory name) = .ok (.ofChars (LabelEntry.writeLines style entries))) :
    readLabels files directory name = .ok entries := by
  rw [readLabels, fileContent_ok h, Except.bind, LabelEntry.readLines_writeLines style hentries]
  rfl

theorem loadVocabulary_ok {path : String} {keys : List FlowKey} (hn : keys.Nodup)
    (h : files.read path = .ok (.ofChars (FlowKey.writeLines keys))) (frozen : Bool) :
    Vocabulary.load files path frozen = .ok ⟨keys, frozen⟩ := by
  have hkeys : Vocabulary.ofKeys keys frozen = .ok ⟨keys, frozen⟩ :=
    Vocabulary.ofKeys_ok.mpr ⟨hn, rfl⟩
  simp only [Vocabulary.load, h, Vocabulary.ofContent, FlowKey.readLines_writeLines, hkeys,
    Except.mapError]

theorem load_of_published {directory : String} {style : LabelStyle} (hm : p.matrix.Reached)
    (hp : Countable p) (hs : ValidStamp stamp) (hcheck : checkAlignment p = .ok ())
    (hpublished : ∀ f ∈ published stamp style p,
      files.read (join directory f.1) = .ok (.ofChars f.2)) :
    load files directory = .ok
      ⟨manifest stamp style p, table p, p.vocabulary.keys, p.labels.entries⟩ := by
  have hwf := hm.wellFormed
  obtain ⟨-, -, hids⟩ := checkAlignment_ok hcheck
  obtain ⟨hmatrixFile, hpublished⟩ := List.forall_mem_cons.mp hpublished
  obtain ⟨hvocabularyFile, hpublished⟩ := List.forall_mem_cons.mp hpublished
  obtain ⟨hlabelsFile, hpublished⟩ := List.forall_mem_cons.mp hpublished
  obtain ⟨hmanifestFile, -⟩ := List.forall_mem_cons.mp hpublished
  have hmanifest := valid_manifest hwf hp hs hcheck style
  have hread := readManifest_ok hmanifest hmanifestFile
  have hmatrix := readMatrix_ok (regular_table hwf hp hcheck) hmatrixFile
  have hvocabulary := readVocabulary_ok hvocabularyFile
  have hlabels := readLabels_ok hids hlabelsFile
  have hshape : ¬ ((table p).rows ≠ p.labels.entries.length ∨
      (table p).columns ≠ p.vocabulary.keys.length) := by
    rintro (h | h)
    · exact h rfl
    · exact h rfl
  refine bind_ok.mpr ⟨some (manifest stamp style p), hread, ?_⟩
  refine bind_ok.mpr ⟨table p, hmatrix, ?_⟩
  refine bind_ok.mpr ⟨p.vocabulary.keys, hvocabulary, ?_⟩
  refine bind_ok.mpr ⟨p.labels.entries, hlabels, ?_⟩
  exact if_neg hshape

/-- What an export publishes is loaded as the parts that were exported. -/
theorem load_run (hm : p.matrix.Reached) (hv : p.vocabulary.Reached) (hp : Countable p)
    (hs : ValidStamp stamp) (hcheck : checkAlignment p = .ok ())
    (hactions : ∀ action fault,
      (run fails files target stamp p).result ≠ .error (Action.failure action fault)) :
    (run fails files target stamp p).result = .ok (manifest stamp target.labelStyle p) ∧
      load (run fails files target stamp p).files target.directory = .ok {
        manifest := manifest stamp target.labelStyle p
        matrix := p.matrix.crop p.labels.size p.vocabulary.size
        vocabulary := p.vocabulary.keys
        labels := p.labels.entries } ∧
      (manifest stamp target.labelStyle p).rows = (table p).rows ∧
      (manifest stamp target.labelStyle p).columns = (table p).columns ∧
      (manifest stamp target.labelStyle p).nonZero = (table p).cells.length ∧
      ∀ frozen, Vocabulary.load (run fails files target stamp p).files
        (join target.directory vocabularyFile) frozen = .ok ⟨p.vocabulary.keys, frozen⟩ := by
  obtain ⟨hresult, hpublished⟩ := read_run hcheck hactions
  have hvocabularyFile := hpublished (vocabularyFile, FlowKey.writeLines p.vocabulary.keys)
    (by simp [published, artifacts])
  exact ⟨hresult, load_of_published hm hp hs hcheck hpublished, rfl, rfl, rfl,
    loadVocabulary_ok hv.nodup hvocabularyFile⟩

def awkwardKey : FlowKey := ⟨["a/b", ""], ["x\\y", "line\nbreak"], []⟩

def awkwardParts : ExportParts where
  matrix := (CountMatrix.increment {} 0 0 3).2.openRow 1
  vocabulary := (Vocabulary.resolve {} awkwardKey).2
  labels := ⟨[⟨true, ""⟩, ⟨false, "a,b"⟩]⟩

def awkwardFiles : FileTree :=
  ⟨[(["out"], .directory), (["out", "manifest.json"], .file (.ofString "old"))]⟩

def awkwardTarget : ExportTarget := ⟨"out", .boolean⟩

def awkwardStamp : Stamp := ⟨⟨7⟩, ⟨20000, 86399, 1500000000⟩, ".export-1"⟩

theorem load_run_awkwardParts :
    awkwardParts.matrix.Reached ∧ awkwardParts.vocabulary.Reached ∧ Countable awkwardParts ∧
      ValidStamp awkwardStamp ∧ checkAlignment awkwardParts = .ok () ∧
      (∀ action fault, (run noFailure awkwardFiles awkwardTarget awkwardStamp awkwardParts).result ≠
        .error (Action.failure action fault)) ∧
      load (run noFailure awkwardFiles awkwardTarget awkwardStamp awkwardParts).files "out" = .ok {
        manifest := manifest awkwardStamp .boolean awkwardParts
        matrix := ⟨2, 1, [⟨0, 0, 3⟩]⟩
        vocabulary := [awkwardKey]
        labels := [⟨true, ""⟩, ⟨false, "a,b"⟩] } := by
  have hm : awkwardParts.matrix.Reached := .openRow 1 (.increment 0 0 3 .empty)
  have hv : awkwardParts.vocabulary.Reached := .resolve awkwardKey (.seed [] false rfl)
  have hp : Countable awkwardParts := ⟨by decide, by decide, by decide⟩
  have hs : ValidStamp awkwardStamp := ⟨by decide, by decide⟩
  have hcheck : checkAlignment awkwardParts = .ok () := by decide +kernel
  have hdone :
      (run noFailure awkwardFiles awkwardTarget awkwardStamp awkwardParts).result.toOption.isSome =
      true := by
    decide +kernel
  have hactions : ∀ action fault,
      (run noFailure awkwardFiles awkwardTarget awkwardStamp awkwardParts).result ≠
        .error (Action.failure action fault) := by
    intro action fault herror
    rw [herror] at hdone
    cases hdone
  exact ⟨hm, hv, hp, hs, hcheck, hactions, (load_run hm hv hp hs hcheck hactions).2.1⟩

end FlowTally.Export
