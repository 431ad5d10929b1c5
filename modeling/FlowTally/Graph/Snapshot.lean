import FlowTally.Json.Value

/-!
# Graph snapshots

A code property graph consists of typed nodes with labels and properties, and
of typed directed edges. A snapshot lists both in any order and promises
nothing about them; `Graph` holds snapshots that fit together.
-/

namespace FlowTally

/-- Relationship of an edge. A name without a meaning here is kept as it is. -/
inductive EdgeKind where
  | flowsTo
  | reaches
  | controls
  | isAstParent
  | isParentDirOf
  | isFileOf
  | isFunctionOfCfg
  | other (name : String)
deriving DecidableEq, Repr, Inhabited

namespace EdgeKind

def name : EdgeKind → String
  | .flowsTo => "FLOWS_TO"
  | .reaches => "REACHES"
  | .controls => "CONTROLS"
  | .isAstParent => "IS_AST_PARENT"
  | .isParentDirOf => "IS_PARENT_DIR_OF"
  | .isFileOf => "IS_FILE_OF"
  | .isFunctionOfCfg => "IS_FUNCTION_OF_CFG"
  | .other name => name

def known : List EdgeKind :=
  [.flowsTo, .reaches, .controls, .isAstParent, .isParentDirOf, .isFileOf, .isFunctionOfCfg]

def ofName (name : String) : EdgeKind :=
  (known.find? fun kind => kind.name == name).getD (.other name)

def flowKinds : List EdgeKind := [.flowsTo, .reaches, .controls]

/-- Place among the kinds; all other names share the last place. -/
def rank (kind : EdgeKind) : Nat := (known.idxOf? kind).getD known.length

/-- Known kinds as listed, then other names in ascending order. -/
def le (a b : EdgeKind) : Bool :=
  a.rank < b.rank || (a.rank == b.rank && decide (a.name ≤ b.name))

theorem name_ofName (name : String) : (ofName name).name = name := by
  unfold ofName
  cases h : known.find? fun kind => kind.name == name with
  | none => rfl
  | some kind => simpa using List.find?_some h

end EdgeKind

structure Node where
  id : Int
  type : String
  labels : List String := []
  properties : List (String × Json) := []
deriving Repr, Inhabited, BEq

namespace Node

def hasLabel (node : Node) (label : String) : Bool := node.labels.contains label

def text? (node : Node) (name : String) : Option String :=
  (Json.lookup? name node.properties).bind Json.text?

end Node

structure Edge where
  source : Int
  target : Int
  kind : EdgeKind
deriving DecidableEq, Repr, Inhabited

def Edge.le (a b : Edge) : Bool :=
  a.source < b.source ||
    (a.source == b.source && (a.target < b.target || (a.target == b.target && a.kind.le b.kind)))

structure Snapshot where
  nodes : List Node := []
  edges : List Edge := []
deriving Repr, Inhabited, BEq

end FlowTally
