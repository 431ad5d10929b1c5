import FlowTally.Export.RunId
import FlowTally.Json.Printer
import FlowTally.Json.Record
import FlowTally.Label
import FlowTally.Time.Text

/-!
# Manifests

The manifest of an export names its files and gives the shape of its matrix. It
is published last, so a directory with a manifest holds a complete export. Its
file is an indented JSON record.
-/

namespace FlowTally

structure Manifest where
  runId : RunId
  createdAt : Instant
  rows : Nat
  columns : Nat
  nonZero : Nat
  labelStyle : LabelStyle
  matrixFile : String
  vocabularyFile : String
  labelsFile : String
deriving DecidableEq, Repr, Inhabited

namespace Manifest

open Json (Tree)

def toJson (m : Manifest) : Json :=
  .obj [("run_id", .str m.runId.text), ("created_at", .str (String.ofList m.createdAt.text)),
    ("rows", .int m.rows), ("cols", .int m.columns), ("nnz", .int m.nonZero),
    ("label_style", .str m.labelStyle.name), ("matrix_file", .str m.matrixFile),
    ("vocabulary_file", .str m.vocabularyFile), ("labels_file", .str m.labelsFile)]

def write (m : Manifest) : List Char := m.toJson.printIndented 0 ++ ['\n']

def fieldNames : List String :=
  ["run_id", "created_at", "rows", "cols", "nnz", "label_style", "matrix_file", "vocabulary_file",
    "labels_file"]

def ofTree? (tree : Tree) : Option Manifest := do
  match ← tree.record? fieldNames with
  | [some runId, some createdAt, some rows, some columns, some nonZero, some labelStyle,
      some matrixFile, some vocabularyFile, some labelsFile] =>
    return {
      runId := ← RunId.read? (← runId.text?)
      createdAt := ← Instant.read? (← createdAt.text?).toList
      rows := ← rows.count?
      columns := ← columns.count?
      nonZero := ← nonZero.count?
      labelStyle := ← LabelStyle.ofName? (← labelStyle.choice?)
      matrixFile := ← matrixFile.text?
      vocabularyFile := ← vocabularyFile.text?
      labelsFile := ← labelsFile.text? }
  | _ => none

def read? (content : Content) : Option Manifest := (Json.tree? content).bind ofTree?

end Manifest

end FlowTally
