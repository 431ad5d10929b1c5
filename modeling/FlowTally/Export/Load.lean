import FlowTally.Export.Basic

/-!
# Loading an export

A complete export has a manifest, which names the other files. They are read in
the order matrix, vocabulary, labels, and have to agree in rows and columns.
-/

namespace FlowTally

structure Artifacts where
  manifest : Manifest
  matrix : CellTable
  vocabulary : List FlowKey
  labels : List LabelEntry
deriving DecidableEq, Repr, Inhabited

def Market.Fault.error : Market.Fault → RunError
  | .notText => .io .notText
  | fault => .parse fault.message

namespace Export

def readManifest (files : FileTree) (directory : String) : Except RunError (Option Manifest) :=
  let path := FileTree.join directory manifestFile
  if files.exists? path then
    match (files.read path).toOption.bind Manifest.read? with
    | some m => .ok (some m)
    | none => .error (.parse s!"{path}: not a manifest")
  else .ok none

def fileContent (files : FileTree) (directory name : String) : Except RunError Content :=
  (files.read (FileTree.join directory name)).mapError .io

def readMatrix (files : FileTree) (directory name : String) : Except RunError CellTable :=
  (fileContent files directory name).bind fun content =>
    (Market.read content).mapError Market.Fault.error

def readVocabulary (files : FileTree) (directory name : String) : Except RunError (List FlowKey) :=
  (fileContent files directory name).bind fun content =>
    (FlowKey.readLines 1 content.lines).mapError fun fault => fault.2.error

def readLabels (files : FileTree) (directory name : String) : Except RunError (List LabelEntry) :=
  (fileContent files directory name).bind fun content =>
    (LabelEntry.readLines content.lines).mapError LabelEntry.LineFault.error

def load (files : FileTree) (directory : String) : Except RunError Artifacts :=
  (readManifest files directory).bind fun
    | none => .error (.consistency s!"{directory} has no {manifestFile}")
    | some m =>
      (readMatrix files directory m.matrixFile).bind fun matrix =>
        (readVocabulary files directory m.vocabularyFile).bind fun vocabulary =>
          (readLabels files directory m.labelsFile).bind fun labels =>
            if matrix.rows ≠ labels.length ∨ matrix.columns ≠ vocabulary.length then
              let found := s!"{labels.length} labels and {vocabulary.length} vocabulary keys"
              .error (.consistency s!"matrix is {matrix.rows}x{matrix.columns} but there are {found}")
            else .ok ⟨m, matrix, vocabulary, labels⟩

end Export

end FlowTally
