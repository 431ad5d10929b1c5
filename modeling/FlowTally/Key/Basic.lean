/-!
# Flow keys

A flow between two anchors is counted under its key: the node types below the
source anchor, the relationship names along the flow, and the node types below
the sink anchor. The key is the triple itself, so two flows share a column
exactly when the three lists agree.
-/

namespace FlowTally

structure FlowKey where
  source : List String
  flow : List String
  sink : List String
deriving DecidableEq, Repr, Inhabited

namespace FlowKey

def compareLists : List String → List String → Ordering
  | [], [] => .eq
  | [], _ :: _ => .lt
  | _ :: _, [] => .gt
  | a :: as, b :: bs => (compareOfLessAndEq a b).then (compareLists as bs)

/-- By source, then flow, then sink, each list in lexicographic order. -/
def order (a b : FlowKey) : Ordering :=
  (compareLists a.source b.source).then
    ((compareLists a.flow b.flow).then (compareLists a.sink b.sink))

/-- A flow has at least one relationship. -/
def wellFormed (key : FlowKey) : Bool := !key.flow.isEmpty

end FlowKey

end FlowTally
