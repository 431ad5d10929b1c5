import FlowTally.Error
import FlowTally.Key.Basic

/-!
# Sources of samples

A source answers three questions: which samples there are, which entry points a
sample has, and which flows start at an entry point. The answers of a
`SampleSource` depend on the question alone. Any other source is met in a run as
the answers it gives there, one `SampleAnswer` for each sample.
-/

namespace FlowTally

structure SampleInfo where
  id : String
  isPositive : Bool
deriving DecidableEq, Repr, Inhabited

structure Sample where
  id : String
  label : Bool
  row : Nat
deriving DecidableEq, Repr, Inhabited

structure SampleSource where
  samples : Except SourceError (List SampleInfo)
  entries : String → Except SourceError (List Int)
  flows : Int → Except SourceError (List FlowKey)

abbrev FlowAnswer := Except SourceError (List FlowKey)

/-- What is answered about a sample: its entry points in the order in which they are listed, each
with the answer about its flows. -/
abbrev SampleAnswer := Except SourceError (List (Int × FlowAnswer))

def SampleSource.about (s : SampleSource) (sample : Sample) : SampleAnswer :=
  (s.entries sample.id).map fun entries => entries.map fun entry => (entry, s.flows entry)

def entryName (entry : Int) : String := s!"entry#{entry}"

end FlowTally
