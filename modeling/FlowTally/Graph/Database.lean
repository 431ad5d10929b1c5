import FlowTally.Graph.Text

/-!
# Graph databases

A database keeps a graph in two tables: nodes by id, with labels and properties
as JSON text, and edges in the order in which they were written. Saving a
snapshot replaces both tables as a whole or fails and changes nothing: node ids
are a primary key, and both ends of an edge refer to nodes.
-/

namespace FlowTally

structure NodeRow where
  id : Int
  type : String
  labels : String
  properties : String
deriving DecidableEq, Repr, Inhabited

structure EdgeRow where
  source : Int
  target : Int
  kind : String
deriving DecidableEq, Repr, Inhabited

/-- The two tables; `none` for one that does not exist. -/
structure Database where
  nodes : Option (List NodeRow) := none
  edges : Option (List EdgeRow) := none
deriving DecidableEq, Repr, Inhabited

namespace Database

def empty : Database := ⟨some [], some []⟩

def withTables (db : Database) : Database :=
  ⟨some (db.nodes.getD []), some (db.edges.getD [])⟩

def noTable (name : String) : StoreError := .database s!"no such table: {name}"

def NodeRow.ofNode (node : Node) : NodeRow :=
  ⟨node.id, node.type, (Json.arr (node.labels.map .str)).compact, (Json.obj node.properties).compact⟩

def EdgeRow.ofEdge (edge : Edge) : EdgeRow := ⟨edge.source, edge.target, edge.kind.name⟩

def insertNode (rows : List NodeRow) (row : NodeRow) : Except StoreError (List NodeRow) :=
  if rows.any fun other => other.id == row.id then
    .error (.database "UNIQUE constraint failed: nodes.id")
  else .ok (rows ++ [row])

def insertEdge (nodes : List NodeRow) (rows : List EdgeRow) (row : EdgeRow) :
    Except StoreError (List EdgeRow) :=
  if (nodes.any fun node => node.id == row.source) && nodes.any fun node => node.id == row.target then
    .ok (rows ++ [row])
  else .error (.database "FOREIGN KEY constraint failed")

def insertNodes (rows : List NodeRow) : List NodeRow → Except StoreError (List NodeRow)
  | [] => .ok rows
  | row :: rest => (insertNode rows row).bind (insertNodes · rest)

def insertEdges (nodes : List NodeRow) (rows : List EdgeRow) :
    List EdgeRow → Except StoreError (List EdgeRow)
  | [] => .ok rows
  | row :: rest => (insertEdge nodes rows row).bind (insertEdges nodes · rest)

def save (db : Database) (s : Snapshot) : Except StoreError Database :=
  match db.edges, db.nodes with
  | none, _ => .error (noTable "edges")
  | some _, none => .error (noTable "nodes")
  | some _, some _ =>
    (insertNodes [] (s.nodes.map NodeRow.ofNode)).bind fun nodes =>
      (insertEdges nodes [] (s.edges.map EdgeRow.ofEdge)).map fun edges =>
        ⟨some nodes, some edges⟩

def NodeRow.toNode (row : NodeRow) : Except StoreError Node :=
  let labels := (Json.tree? (.ofString row.labels)).bind (Json.Tree.list? Json.Tree.text?)
  let properties := (Json.tree? (.ofString row.properties)).bind (Json.Tree.properties? Json.maxDepth)
  match labels, properties with
  | some labels, some properties => .ok ⟨row.id, row.type, labels, properties⟩
  | _, _ => .error (.serialization "not the text of a node")

def EdgeRow.toEdge (row : EdgeRow) : Edge := ⟨row.source, row.target, .ofName row.kind⟩

def load (db : Database) : Except StoreError Snapshot :=
  match db.nodes with
  | none => .error (noTable "nodes")
  | some nodes =>
    ((nodes.mergeSort fun a b => decide (a.id ≤ b.id)).mapM NodeRow.toNode).bind fun nodes =>
      match db.edges with
      | none => .error (noTable "edges")
      | some edges => .ok ⟨nodes, edges.map EdgeRow.toEdge⟩

end Database

end FlowTally
