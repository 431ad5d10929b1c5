import FlowTally.Graph.Flow
import FlowTally.Label
import FlowTally.Pattern.Basic
import FlowTally.Text.Blank

/-!
# Configuration

A configuration has five sections; every field has a default. Each section but
the last has rules of its own, and the first broken rule is reported.
-/

namespace FlowTally

structure TraversalConfig where
  flowKinds : List String := EdgeKind.flowKinds.map (·.name)
  upstreamMin : Nat := 0
  upstreamMax : Nat := 5
  downstreamMin : Nat := 1
  downstreamMax : Nat := 3
  upstreamLabel : String := "UpstreamNode"
  downstreamLabel : String := "DownstreamNode"
deriving DecidableEq, Repr, Inhabited

structure SampleConfig where
  pathPattern : String := ".*__[^/]*"
  /-- Position of the path segment that decides the label. -/
  labelSegment : Nat := 3
  positiveMarker : String := "good"
  skipFunctions : List String := []
deriving DecidableEq, Repr, Inhabited

structure ParallelConfig where
  enabled : Bool := false
  /-- Count of workers, zero for as many as the machine suggests. -/
  workers : Nat := 0
  batchSize : Nat := 64
deriving DecidableEq, Repr, Inhabited

structure VocabularyConfig where
  seed : Option String := none
  frozen : Bool := false
deriving DecidableEq, Repr, Inhabited

structure OutputConfig where
  directory : String := "features"
  labelStyle : LabelStyle := .numeric
deriving DecidableEq, Repr, Inhabited

structure Config where
  traversal : TraversalConfig := {}
  samples : SampleConfig := {}
  parallel : ParallelConfig := {}
  vocabulary : VocabularyConfig := {}
  output : OutputConfig := {}
deriving DecidableEq, Repr, Inhabited

/-- Most hops of either leg of a flow. -/
def maxHops : Nat := 16

def maxWorkers : Nat := 256

def maxBatchSize : Nat := 10000

namespace TraversalConfig

def growthHint : String := "Path enumeration grows exponentially with hop count"

def query (c : TraversalConfig) : FlowQuery where
  kinds := c.flowKinds.map EdgeKind.ofName
  upstream := ⟨c.upstreamMin, c.upstreamMax⟩
  downstream := ⟨c.downstreamMin, c.downstreamMax⟩
  upstreamLabel := c.upstreamLabel
  downstreamLabel := c.downstreamLabel

def isBlankName (name : String) : Bool := (Text.trim name.toList).isEmpty

def check (c : TraversalConfig) : Except ConfigError Unit :=
  if c.flowKinds.isEmpty ∨ c.flowKinds.any isBlankName then
    .error (.rule "traversal.flow_kinds must list at least one non-empty relationship name")
  else if maxHops < c.upstreamMax then
    .error (.range "upstream_max" c.upstreamMax 0 maxHops growthHint)
  else if c.upstreamMax < c.upstreamMin then
    .error (.range "upstream_min" c.upstreamMin 0 c.upstreamMax
      "upstream_min must not exceed upstream_max")
  else if maxHops < c.downstreamMax then
    .error (.range "downstream_max" c.downstreamMax 1 maxHops growthHint)
  else if c.downstreamMin < 1 ∨ c.downstreamMax < c.downstreamMin then
    .error (.range "downstream_min" c.downstreamMin 1 c.downstreamMax
      "A flow needs at least one edge between its anchors")
  else if c.upstreamLabel = "" ∨ c.downstreamLabel = "" then
    .error (.rule "traversal anchor labels must not be empty")
  else .ok ()

end TraversalConfig

namespace SampleConfig

def pattern (c : SampleConfig) : Except ConfigError PathPattern :=
  (PathPattern.read c.pathPattern).mapError fun e =>
    .badPattern "samples.path_pattern" c.pathPattern e.text

/-- The label segment of the path is the marker. -/
def isPositive (c : SampleConfig) (path : String) : Bool :=
  (path.toList.splitOn '/')[c.labelSegment]? == some c.positiveMarker.toList

def check (c : SampleConfig) : Except ConfigError Unit :=
  c.pattern.bind fun _ =>
    if c.positiveMarker = "" then .error (.rule "samples.positive_marker must not be empty")
    else .ok ()

end SampleConfig

namespace ParallelConfig

/-- Count of workers on a machine with so many processors: three quarters unless it is given. -/
def workersOn (c : ParallelConfig) (processors : Nat) : Nat :=
  if c.workers = 0 then max (processors * 3 / 4) 1 else c.workers

def check (c : ParallelConfig) : Except ConfigError Unit :=
  if maxWorkers < c.workers then
    .error (.range "num_workers" c.workers 0 maxWorkers
      "Number of workers must be reasonable (0=auto)")
  else if c.batchSize < 1 ∨ maxBatchSize < c.batchSize then
    .error (.range "batch_size" c.batchSize 1 maxBatchSize "Batch size must be reasonable")
  else .ok ()

end ParallelConfig

def VocabularyConfig.check (c : VocabularyConfig) : Except ConfigError Unit :=
  if c.frozen ∧ c.seed = none then .error (.rule "vocabulary.frozen requires vocabulary.seed")
  else .ok ()

def Config.check (c : Config) : Except ConfigError Unit :=
  c.traversal.check.bind fun _ =>
    c.samples.check.bind fun _ =>
      c.parallel.check.bind fun _ => c.vocabulary.check

end FlowTally
