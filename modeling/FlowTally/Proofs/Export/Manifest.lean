import FlowTally.Export.Manifest
import FlowTally.Proofs.Export.RunId
import FlowTally.Proofs.Json.Printer
import FlowTally.Proofs.Time.Text

/-!
# Manifests read back from their file

`read?_write`: a manifest is read back when its id has 128 bits, its time is a
valid instant and its counts have 64 bits. The printed record has each field
once, so every field is found by its name and read by the reader of its kind.
-/

namespace FlowTally.Manifest

open Json (treeOf)
open Text.Natural (bound64)

/-- A manifest that its text can stand for. -/
structure Valid (m : Manifest) : Prop where
  runId : m.runId.value < 2 ^ 128
  createdAt : m.createdAt.Valid
  rows : m.rows < bound64
  columns : m.columns < bound64
  nonZero : m.nonZero < bound64

variable {m : Manifest}

theorem ofName?_name (style : LabelStyle) : LabelStyle.ofName? style.name = some style := by
  cases style <;> decide

theorem fields_treeOf (m : Manifest) : (treeOf m.toJson).record? fieldNames = some
    [some (treeOf (.str m.runId.text)), some (treeOf (.str (String.ofList m.createdAt.text))),
      some (treeOf (.int m.rows)), some (treeOf (.int m.columns)), some (treeOf (.int m.nonZero)),
      some (treeOf (.str m.labelStyle.name)), some (treeOf (.str m.matrixFile)),
      some (treeOf (.str m.vocabularyFile)), some (treeOf (.str m.labelsFile))] := by
  rw [toJson, Json.record?_treeOf (by simp)]
  simp [fieldNames, Json.lookup?]

theorem ofTree?_treeOf (h : m.Valid) : ofTree? (treeOf m.toJson) = some m := by
  rw [ofTree?, fields_treeOf]
  simp only [Option.bind_eq_bind, Option.bind_some, Json.text?_treeOf, Json.choice?_treeOf,
    RunId.read?_text m.runId h.runId, String.toList_ofList, Instant.read?_text m.createdAt h.createdAt,
    Json.count?_treeOf h.rows, Json.count?_treeOf h.columns, Json.count?_treeOf h.nonZero,
    ofName?_name]
  rfl

theorem read?_write (h : m.Valid) : read? (Content.ofChars m.write) = some m := by
  have hreal : m.toJson.NoReal := by simp [toJson, Json.NoReal, Json.NoRealFields]
  have hend : Json.Blank ['\n'] := by
    intro c hc
    cases List.mem_singleton.mp hc
    decide
  have hstart : Json.Blank [] := by simp [Json.Blank]
  have htree := Json.tree?_printIndented hreal hstart hend
  rw [read?, write]
  rw [List.nil_append] at htree
  rw [htree, Option.bind_some, ofTree?_treeOf h]

end FlowTally.Manifest
