import FlowTally.Config.Basic
import FlowTally.Text.Natural
import FlowTally.Yaml.Printer

/-!
# Printing a configuration

Every field is printed, the sections as blocks with two columns of indentation
and the items of a list in the column of its key.
-/

namespace FlowTally.Config

inductive Value where
  | string (text : String)
  | strings (items : List String)
  | number (n : Nat)
  | truth (value : Bool)
  | null
deriving Repr

def indentation : List Char := [' ', ' ']

/-- A printed value, from the colon of its key up to the end of the last line. -/
def Value.lines : Value → List Char
  | .string text => ' ' :: Yaml.scalarText text.toList ++ ['\n']
  | .strings [] => " []\n".toList
  | .strings items =>
    '\n' :: items.flatMap fun item =>
      indentation ++ '-' :: ' ' :: Yaml.scalarText item.toList ++ ['\n']
  | .number n => ' ' :: Text.Natural.digits n ++ ['\n']
  | .truth true => " true\n".toList
  | .truth false => " false\n".toList
  | .null => " null\n".toList

structure Section where
  name : String
  fields : List (String × Value)

def Section.lines (s : Section) : List Char :=
  s.name.toList ++ ':' :: '\n' :: s.fields.flatMap fun (name, value) =>
    indentation ++ name.toList ++ ':' :: value.lines

def traversalFields (c : TraversalConfig) : List (String × Value) :=
  [("flow_kinds", .strings c.flowKinds), ("upstream_min", .number c.upstreamMin),
    ("upstream_max", .number c.upstreamMax), ("downstream_min", .number c.downstreamMin),
    ("downstream_max", .number c.downstreamMax), ("upstream_label", .string c.upstreamLabel),
    ("downstream_label", .string c.downstreamLabel)]

def sampleFields (c : SampleConfig) : List (String × Value) :=
  [("path_pattern", .string c.pathPattern), ("label_segment", .number c.labelSegment),
    ("positive_marker", .string c.positiveMarker), ("skip_functions", .strings c.skipFunctions)]

def parallelFields (c : ParallelConfig) : List (String × Value) :=
  [("enabled", .truth c.enabled), ("num_workers", .number c.workers),
    ("batch_size", .number c.batchSize)]

def vocabularyFields (c : VocabularyConfig) : List (String × Value) :=
  [("seed", (c.seed.map Value.string).getD .null), ("frozen", .truth c.frozen)]

def outputFields (c : OutputConfig) : List (String × Value) :=
  [("directory", .string c.directory), ("label_style", .string c.labelStyle.name)]

def sections (c : Config) : List Section :=
  [⟨"traversal", traversalFields c.traversal⟩, ⟨"samples", sampleFields c.samples⟩,
    ⟨"parallel", parallelFields c.parallel⟩, ⟨"vocabulary", vocabularyFields c.vocabulary⟩,
    ⟨"output", outputFields c.output⟩]

def print (c : Config) : String :=
  String.ofList ("version: 1\n".toList ++ c.sections.flatMap Section.lines)

end FlowTally.Config
