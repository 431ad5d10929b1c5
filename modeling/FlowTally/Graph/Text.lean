import FlowTally.Error
import FlowTally.Graph.Basic
import FlowTally.Json.Printer
import FlowTally.Json.Record

/-!
# Graph exports

The JSON form of a snapshot:

    {"nodes":[{"id":1,"type":"File","labels":[],"properties":{}}],
     "edges":[{"src":1,"dst":2,"type":"FLOWS_TO"}]}

The writer gives every field, in this order and without blanks. For the reader
node lists, edge lists, labels and properties may be missing.
-/

namespace FlowTally

open Json (Tree)

def Node.toJson (node : Node) : Json :=
  .obj [("id", .int node.id), ("type", .str node.type), ("labels", .arr (node.labels.map .str)),
    ("properties", .obj node.properties)]

def Edge.toJson (edge : Edge) : Json :=
  .obj [("src", .int edge.source), ("dst", .int edge.target), ("type", .str edge.kind.name)]

def Snapshot.toJson (s : Snapshot) : Json :=
  .obj [("nodes", .arr (s.nodes.map Node.toJson)), ("edges", .arr (s.edges.map Edge.toJson))]

def optionalPart (part? : Tree → Option α) (default : α) : Option Tree → Option α
  | none => some default
  | some tree => part? tree

/-- Levels of a snapshot around the properties of a node. -/
def propertyLevel : Nat := 3

def Node.ofTree? (tree : Tree) : Option Node := do
  match ← tree.record? ["id", "type", "labels", "properties"] with
  | [some id, some type, labels, properties] =>
    let id ← id.int64?
    let type ← type.text?
    let labels ← optionalPart (Tree.list? Tree.text?) [] labels
    let properties ← optionalPart (Tree.properties? (Json.maxDepth - propertyLevel)) [] properties
    return ⟨id, type, labels, properties⟩
  | _ => none

def Edge.ofTree? (tree : Tree) : Option Edge := do
  match ← tree.record? ["src", "dst", "type"] with
  | [some source, some target, some kind] =>
    return ⟨← source.int64?, ← target.int64?, .ofName (← kind.text?)⟩
  | _ => none

def Snapshot.ofTree? (tree : Tree) : Option Snapshot := do
  match ← tree.record? ["nodes", "edges"] with
  | [nodes, edges] =>
    let nodes ← optionalPart (Tree.list? Node.ofTree?) [] nodes
    let edges ← optionalPart (Tree.list? Edge.ofTree?) [] edges
    return ⟨nodes, edges⟩
  | _ => none

namespace Snapshot

def write (s : Snapshot) : String := s.toJson.compact

def read (content : Content) : Except StoreError Snapshot :=
  match (Json.tree? content).bind ofTree? with
  | some s => .ok s
  | none => .error (.serialization "not a graph snapshot")

end Snapshot

end FlowTally
