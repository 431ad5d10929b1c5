import FlowTally.Event
import FlowTally.Label
import FlowTally.Matrix.Basic
import FlowTally.Vocabulary.File

/-!
# Tallies

A sample is decoded into the keys of its flows, in the order of its entry
points. A failed question costs the flows that it asked for; only a lost source
ends the decoding. A tally counts the keys of decoded samples row by row, with
the vocabulary that gives the columns and the labels of the rows.
-/

namespace FlowTally

/-- Keys of a sample and the failures on the way to them. -/
structure Decoded where
  keys : List FlowKey := []
  entryFailures : Nat := 0
  sampleFailed : Bool := false
deriving DecidableEq, Repr, Inhabited

namespace Decoded

def withKeys (keys : List FlowKey) (d : Decoded) : Decoded := { d with keys := keys ++ d.keys }

def withFailure (d : Decoded) : Decoded := { d with entryFailures := d.entryFailures + 1 }

def entryScope (entry : Int) (sampleId : String) : String := s!"{entryName entry} of {sampleId}"

def sampleScope (sampleId : String) : String := s!"sample {sampleId}"

/-- Flows of an entry point; one without relationships spoils them all. -/
def entryKeys (answer : FlowAnswer) : Except SourceError (List FlowKey) :=
  answer.bind fun keys =>
    if keys.all (·.wellFormed) then .ok keys
    else .error (.query "path record without flow edges")

/-- Decodes entry points in order; the text of a lost connection ends it. -/
def ofEntries (sampleId : String) :
    List (Int × FlowAnswer) → Except String Decoded × List Event
  | [] => (.ok {}, [])
  | (entry, answer) :: rest =>
    match entryKeys answer with
    | .error (.connection text) => (.error text, [])
    | .error e =>
      let (decoded, events) := ofEntries sampleId rest
      (decoded.map withFailure, .entryFailed (.ofSource (entryScope entry sampleId) e) :: events)
    | .ok keys =>
      let (decoded, events) := ofEntries sampleId rest
      (decoded.map (withKeys keys), .entryRead entry sampleId keys.length :: events)

def ofAnswer (sample : Sample) : SampleAnswer → Except String Decoded × List Event
  | .error (.connection text) => (.error text, [])
  | .error e =>
    (.ok { sampleFailed := true }, [.sampleFailed (.ofSource (sampleScope sample.id) e) sample.row])
  | .ok entries => ofEntries sample.id entries

def ofSample (source : SampleSource) (sample : Sample) : Except String Decoded × List Event :=
  ofAnswer sample (source.about sample)

end Decoded

structure Tally where
  vocabulary : Vocabulary := {}
  matrix : CountMatrix := {}
  labels : LabelRegistry := {}
  counted : Nat := 0
  /-- Keys that a frozen vocabulary does not hold. -/
  unknown : Nat := 0
  entryFailures : Nat := 0
  sampleFailures : Nat := 0
deriving DecidableEq, Repr, Inhabited

namespace Tally

def count (row : Nat) (t : Tally) (key : FlowKey) : Except RunError Tally :=
  let (answer, vocabulary) := t.vocabulary.resolve key
  match answer.column? with
  | none => .ok { t with vocabulary := vocabulary, unknown := t.unknown + 1 }
  | some column =>
    match t.matrix.increment row column 1 with
    | (.ok _, matrix) =>
      .ok { t with vocabulary := vocabulary, matrix := matrix, counted := t.counted + 1 }
    | (.error overflow, _) => .error (.consistency overflow.message)

def countAll (row : Nat) (t : Tally) : List FlowKey → Except RunError Tally
  | [] => .ok t
  | key :: rest => (t.count row key).bind fun t => countAll row t rest

/-- Adds a sample: its row exists even without keys. -/
def add (t : Tally) (sample : Sample) (d : Decoded) : Except RunError Tally :=
  -- A row is a place in a list of samples of forty bytes each, so there is room for it.
  (countAll sample.row { t with matrix := t.matrix.openRow sample.row } d.keys).bind fun t =>
    match t.labels.record sample.row sample.label sample.id with
    | .error fault => .error (.consistency fault.message)
    | .ok labels =>
      .ok { t with
        labels := labels
        entryFailures := t.entryFailures + d.entryFailures
        sampleFailures := t.sampleFailures + (if d.sampleFailed then 1 else 0) }

end Tally

end FlowTally
