import FlowTally.Config.Basic
import FlowTally.Event
import FlowTally.Graph.File
import FlowTally.Graph.Store

/-!
# Samples in a graph

The samples are the directories of a graph whose path matches the pattern of
the configuration; the path is the id of the sample. Of several directories
with one path the last one answers.
-/

namespace FlowTally

structure GraphSource where
  graph : Graph
  config : SampleConfig
  query : FlowQuery
  directories : List (String × Int)
deriving Repr, Inhabited

namespace GraphSource

def ofGraph (graph : Graph) (config : SampleConfig) (traversal : TraversalConfig) :
    Except ConfigError GraphSource :=
  config.pattern.map fun pattern =>
    ⟨graph, config, traversal.query, graph.directories pattern.selects⟩

def indexed (g : GraphSource) : Event :=
  .directoriesIndexed g.directories.length g.config.pathPattern

def unusable (e : ConfigError) : SourceError := .connection e.message

def load (files : FileTree) (path : String) (config : SampleConfig) (traversal : TraversalConfig) :
    Except SourceError GraphSource :=
  ((Graph.load files path).mapError SourceError.ofStore).bind fun graph =>
    (ofGraph graph config traversal).mapError unusable

def loadDatabase (files : FileTree) (path : String) (config : SampleConfig)
    (traversal : TraversalConfig) : Except SourceError GraphSource :=
  let graph := (Store.openExisting files path).bind (Store.loadGraph files)
  (graph.mapError SourceError.ofStore).bind fun graph =>
    (ofGraph graph config traversal).mapError unusable

def infos (g : GraphSource) : List SampleInfo :=
  g.directories.map fun (path, _) => ⟨path, g.config.isPositive path⟩

def directory? (g : GraphSource) (path : String) : Option Int := g.directories.reverse.lookup path

def entries (g : GraphSource) (path : String) : Except SourceError (List Int) :=
  match g.directory? path with
  | none => .error (.query s!"unknown sample '{path}'")
  | some id => (g.graph.entryPoints id g.config.skipFunctions).mapError SourceError.ofStore

def keyOf (p : FlowPath) : FlowKey := ⟨p.sourceTypes, p.kinds.map (·.name), p.sinkTypes⟩

def flows (g : GraphSource) (entry : Int) : Except SourceError (List FlowKey) :=
  ((g.graph.flowPaths entry g.query).mapError SourceError.ofStore).map fun paths => paths.map keyOf

def source (g : GraphSource) : SampleSource := ⟨.ok g.infos, g.entries, g.flows⟩

end GraphSource

end FlowTally
