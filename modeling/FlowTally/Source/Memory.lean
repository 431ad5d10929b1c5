import FlowTally.Source.Basic

/-!
# Samples in memory

A source with given answers, for which failures can be asked for. Entry points
are numbered from zero in the order in which the samples are given.
-/

namespace FlowTally

structure GivenSample where
  id : String
  isPositive : Bool
  flows : List (List FlowKey)
deriving DecidableEq, Repr, Inhabited

structure MemorySource where
  samples : List GivenSample := []
  failingSamples : List String := []
  failingEntries : List Int := []
  disconnectAt : List String := []
deriving Repr, Inhabited

namespace MemorySource

def numbered (first count : Nat) : List Int := (List.range count).map fun i => ((first + i : Nat) : Int)

/-- Ids with entry points; later samples come first, and the numbers start at `first`. -/
def entryTable (first : Nat) : List GivenSample → List (String × List Int)
  | [] => []
  | s :: rest =>
    entryTable (first + s.flows.length) rest ++ [(s.id, numbered first s.flows.length)]

def infos (m : MemorySource) : List SampleInfo :=
  (m.samples.map fun s => ⟨s.id, s.isPositive⟩).mergeSort fun a b => decide (a.id ≤ b.id)

def entries (m : MemorySource) (id : String) : Except SourceError (List Int) :=
  if m.disconnectAt.contains id then .error (.connection s!"store went away while listing '{id}'")
  else if m.failingSamples.contains id then .error (.query s!"entry point query failed for '{id}'")
  else .ok (((entryTable 0 m.samples).lookup id).getD [])

def flows (m : MemorySource) (entry : Int) : Except SourceError (List FlowKey) :=
  if m.failingEntries.contains entry then
    .error (.query s!"flow query timed out for {entryName entry}")
  else if entry < 0 then .ok []
  else .ok (((m.samples.flatMap (·.flows))[entry.toNat]?).getD [])

def source (m : MemorySource) : SampleSource := ⟨.ok m.infos, m.entries, m.flows⟩

end MemorySource

end FlowTally
