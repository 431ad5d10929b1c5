import FlowTally.Config.Basic
import FlowTally.Files
import FlowTally.Yaml.Node
import FlowTally.Yaml.Plain

/-!
# Reading a configuration

A configuration file is a YAML mapping with a version and up to five sections.
Unknown and repeated fields are refused. An empty scalar counts as an empty
mapping or list, and any scalar is text where text is wanted; numbers and truth
values have to be plain scalars. The shape of the file is checked first, then
its version, then the rules of the configuration.
-/

namespace FlowTally

open Yaml (Fault)

namespace Config

def supportedVersions : List Nat := [1]

def entries : Yaml.Node → Except Fault (List (Yaml.Node × Yaml.Node))
  | .mapping entries => .ok entries
  | .scalar [] _ => .ok []
  | _ => .error (.kind "a mapping")

/-- Values by field name; each name is known and stands once. -/
def fieldsFrom (known : List String) (seen : List (String × Yaml.Node)) :
    List (Yaml.Node × Yaml.Node) → Except Fault (List (String × Yaml.Node))
  | [] => .ok seen
  | (.scalar name _, value) :: rest =>
    let name := String.ofList name
    if !known.contains name then .error (.unknownField name)
    else if (Json.lookup? name seen).isSome then .error (.duplicateField name)
    else fieldsFrom known (seen ++ [(name, value)]) rest
  | _ :: _ => .error (.kind "a field name")

def fields (known : List String) (node : Yaml.Node) : Except Fault (List (String × Yaml.Node)) :=
  (entries node).bind (fieldsFrom known [])

def field (values : List (String × Yaml.Node)) (name : String) (default : α)
    (read : Yaml.Node → Except Fault α) : Except Fault α :=
  match Json.lookup? name values with
  | some node => read node
  | none => .ok default

/-! ### Values of fields -/

def readText : Yaml.Node → Except Fault String
  | .scalar text _ => .ok (String.ofList text)
  | _ => .error (.kind "a string")

def readTexts : Yaml.Node → Except Fault (List String)
  | .sequence items => items.mapM readText
  | .scalar [] _ => .ok []
  | _ => .error (.kind "a sequence")

def readNumber (bound : Nat) : Yaml.Node → Except Fault Nat
  | .scalar text true =>
    match Yaml.natural? bound text with
    | some n => .ok n
    | none => .error (.kind "a number")
  | _ => .error (.kind "a number")

def readCount : Yaml.Node → Except Fault Nat := readNumber Text.Natural.bound64

def readTruth : Yaml.Node → Except Fault Bool
  | .scalar text true =>
    match Yaml.bool? text with
    | some value => .ok value
    | none => .error (.kind "a boolean")
  | _ => .error (.kind "a boolean")

/-- A value, or nothing for a plain null. -/
def readOptional (read : Yaml.Node → Except Fault α) : Yaml.Node → Except Fault (Option α)
  | .scalar text true => if Yaml.isNull text then .ok none else (read (.scalar text true)).map some
  | node => (read node).map some

def readLabelStyle (node : Yaml.Node) : Except Fault LabelStyle :=
  (readText node).bind fun name =>
    match LabelStyle.ofName? name with
    | some style => .ok style
    | none => .error (.kind "a label style")

/-! ### Sections -/

def readTraversal (node : Yaml.Node) : Except Fault TraversalConfig := do
  let values ← fields ["flow_kinds", "upstream_min", "upstream_max", "downstream_min",
    "downstream_max", "upstream_label", "downstream_label"] node
  let base : TraversalConfig := {}
  return {
    flowKinds := ← field values "flow_kinds" base.flowKinds readTexts
    upstreamMin := ← field values "upstream_min" base.upstreamMin readCount
    upstreamMax := ← field values "upstream_max" base.upstreamMax readCount
    downstreamMin := ← field values "downstream_min" base.downstreamMin readCount
    downstreamMax := ← field values "downstream_max" base.downstreamMax readCount
    upstreamLabel := ← field values "upstream_label" base.upstreamLabel readText
    downstreamLabel := ← field values "downstream_label" base.downstreamLabel readText }

def readSamples (node : Yaml.Node) : Except Fault SampleConfig := do
  let values ← fields ["path_pattern", "label_segment", "positive_marker", "skip_functions"] node
  let base : SampleConfig := {}
  return {
    pathPattern := ← field values "path_pattern" base.pathPattern readText
    labelSegment := ← field values "label_segment" base.labelSegment readCount
    positiveMarker := ← field values "positive_marker" base.positiveMarker readText
    skipFunctions := ← field values "skip_functions" base.skipFunctions readTexts }

def readParallel (node : Yaml.Node) : Except Fault ParallelConfig := do
  let values ← fields ["enabled", "num_workers", "batch_size"] node
  let base : ParallelConfig := {}
  return {
    enabled := ← field values "enabled" base.enabled readTruth
    workers := ← field values "num_workers" base.workers readCount
    batchSize := ← field values "batch_size" base.batchSize readCount }

def readVocabulary (node : Yaml.Node) : Except Fault VocabularyConfig := do
  let values ← fields ["seed", "frozen"] node
  let base : VocabularyConfig := {}
  return {
    seed := ← field values "seed" base.seed (readOptional readText)
    frozen := ← field values "frozen" base.frozen readTruth }

def readOutput (node : Yaml.Node) : Except Fault OutputConfig := do
  let values ← fields ["directory", "label_style"] node
  let base : OutputConfig := {}
  return {
    directory := ← field values "directory" base.directory readText
    labelStyle := ← field values "label_style" base.labelStyle readLabelStyle }

def ofNode (node : Yaml.Node) : Except Fault (Option Nat × Config) := do
  let values ← fields ["version", "traversal", "samples", "parallel", "vocabulary", "output"] node
  let version ← field values "version" none (readOptional (readNumber Text.Natural.bound32))
  return (version, {
    traversal := ← field values "traversal" {} readTraversal
    samples := ← field values "samples" {} readSamples
    parallel := ← field values "parallel" {} readParallel
    vocabulary := ← field values "vocabulary" {} readVocabulary
    output := ← field values "output" {} readOutput })

def read (text : String) : Except ConfigError Config :=
  match (Yaml.Node.ofText text.toList).bind ofNode with
  | .error fault => .error (.yaml fault.message)
  | .ok (none, _) => .error .missingVersion
  | .ok (some version, c) =>
    if version ∈ supportedVersions then c.check.map fun _ => c
    else .error (.unsupportedVersion version supportedVersions)

def load (files : FileTree) (path : String) : Except ConfigError Config :=
  match files.read path with
  | .error fault => .error (.io fault)
  | .ok content =>
    match content.text? with
    | none => .error (.io .notText)
    | some text => read text

end Config

end FlowTally
