import FlowTally.Error
import FlowTally.Graph.Snapshot

/-!
# Code property graphs

A graph is built by adding nodes with fresh ids and edges between nodes that
are present; anything else is refused and changes nothing. Nodes and edges keep
the order in which they were added, but every answer is in the order of node
ids, so that it does not depend on it.
-/

namespace FlowTally

structure Graph where
  nodes : List Node := []
  edges : List Edge := []
deriving Repr, Inhabited

namespace Graph

def node? (g : Graph) (id : Int) : Option Node := g.nodes.find? fun node => node.id == id

def hasNode (g : Graph) (id : Int) : Bool := g.nodes.any fun node => node.id == id

def require (g : Graph) (id : Int) : Except StoreError Unit :=
  if g.hasNode id then .ok () else .error (.nodeNotFound id)

def addNode (g : Graph) (node : Node) : Except StoreError Graph :=
  if g.hasNode node.id then .error (.invalidGraph s!"duplicate node id {node.id}")
  else .ok { g with nodes := g.nodes ++ [node] }

def addEdge (g : Graph) (edge : Edge) : Except StoreError Graph :=
  if g.hasNode edge.source && g.hasNode edge.target then .ok { g with edges := g.edges ++ [edge] }
  else
    .error (.invalidGraph
      s!"edge {edge.source} -[{edge.kind.name}]-> {edge.target} references an unknown node")

def addNodes (g : Graph) : List Node → Except StoreError Graph
  | [] => .ok g
  | node :: rest => (g.addNode node).bind (addNodes · rest)

def addEdges (g : Graph) : List Edge → Except StoreError Graph
  | [] => .ok g
  | edge :: rest => (g.addEdge edge).bind (addEdges · rest)

/-- The graph of a snapshot whose ids are distinct and whose edges join its nodes. -/
def ofSnapshot (s : Snapshot) : Except StoreError Graph :=
  (addNodes {} s.nodes).bind (addEdges · s.edges)

/-- Nodes by id, edges by source, target and kind. -/
def snapshot (g : Graph) : Snapshot :=
  ⟨g.nodes.mergeSort fun a b => decide (a.id ≤ b.id), g.edges.mergeSort Edge.le⟩

/-- Ids in ascending order, each once. -/
def sortIds (ids : List Int) : List Int := (ids.mergeSort fun a b => decide (a ≤ b)).eraseReps

def successors (g : Graph) (id : Int) (kind : EdgeKind) : List Int :=
  sortIds ((g.edges.filter fun edge => edge.source == id && edge.kind == kind).map (·.target))

def hasType (g : Graph) (type : String) (id : Int) : Bool :=
  (g.node? id).any fun node => node.type == type

def hasLabel (g : Graph) (label : String) (id : Int) : Bool :=
  (g.node? id).any fun node => node.hasLabel label

/-! ### Sample directories and entry points -/

def directoryType : String := "Directory"
def fileType : String := "File"
def functionType : String := "Function"
def entryType : String := "CFGEntryNode"
def pathProperty : String := "filepath"
def codeProperty : String := "code"

def directoryLe (a b : String × Int) : Bool :=
  decide (a.1 < b.1) || (a.1 == b.1 && decide (a.2 ≤ b.2))

/-- Path and id of every directory whose path is selected, by path. -/
def directories (g : Graph) (selects : String → Bool) : List (String × Int) :=
  let found := g.nodes.filterMap fun node =>
    if node.type == directoryType then
      match node.text? pathProperty with
      | some path => if selects path then some (path, node.id) else none
      | none => none
    else none
  found.mergeSort directoryLe

def isSkipped (g : Graph) (skipped : List String) (id : Int) : Bool :=
  ((g.node? id).bind (·.text? codeProperty)).any skipped.contains

/-- Entries of the functions in the files of a directory, listed functions left out. -/
def entryPoints (g : Graph) (directory : Int) (skipped : List String) :
    Except StoreError (List Int) :=
  (g.require directory).map fun _ =>
    let files := (g.successors directory .isParentDirOf).filter (g.hasType fileType)
    let functions := (files.flatMap (g.successors · .isFileOf)).filter fun id =>
      g.hasType functionType id && !g.isSkipped skipped id
    sortIds ((functions.flatMap (g.successors · .isFunctionOfCfg)).filter (g.hasType entryType))

/-! ### Syntax trees -/

/-- Ids found from a frontier by following `next`; each round adds the unseen successors of the
last one. The fuel bounds the rounds. -/
def closure (next : Int → List Int) : Nat → List Int → List Int → List Int
  | 0, seen, _ => seen
  | fuel + 1, seen, frontier =>
    let fresh := (sortIds (frontier.flatMap next)).filter fun id => !seen.contains id
    if fresh.isEmpty then seen else closure next fuel (seen ++ fresh) fresh

/-- Ids below a node in the syntax tree, the node itself left out. -/
def descendants (g : Graph) (root : Int) : List Int :=
  let next id := (g.successors id .isAstParent).filter fun child => child != root
  sortIds (closure next (g.nodes.length + 1) [] [root])

/-- Node types below a node in the syntax tree, by node id. -/
def subtreeTypes (g : Graph) (root : Int) : List String :=
  (g.descendants root).filterMap fun id => (g.node? id).map (·.type)

def astTypes (g : Graph) (id : Int) : Except StoreError (List String) :=
  (g.require id).map fun _ => g.subtreeTypes id

end Graph

end FlowTally
