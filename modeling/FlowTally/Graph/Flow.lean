import FlowTally.Graph.Basic

/-!
# Flow paths

A flow path starts at an upstream anchor that is reachable from the entry of a
function and ends at a different downstream anchor:

    (entry) -[kinds, upstream hops]-> (u), (u) -[kinds, downstream hops]-> (d), u ≠ d

Both legs are trails: they use no edge twice. Each distinct triple of anchors
and kinds is one flow path, however many trails there are, and anchors without
a syntax tree below them have none. Anchors come in the order of their ids, and
the flows of an anchor depth first over edges by target id.
-/

namespace FlowTally

structure HopRange where
  min : Nat
  max : Nat
deriving DecidableEq, Repr, Inhabited

def HopRange.contains (range : HopRange) (hops : Nat) : Bool :=
  range.min ≤ hops && hops ≤ range.max

structure FlowQuery where
  kinds : List EdgeKind := EdgeKind.flowKinds
  /-- Hops from the entry to the upstream anchor. -/
  upstream : HopRange := ⟨0, 5⟩
  /-- Hops from the upstream to the downstream anchor. -/
  downstream : HopRange := ⟨1, 3⟩
  upstreamLabel : String := "UpstreamNode"
  downstreamLabel : String := "DownstreamNode"
deriving DecidableEq, Repr, Inhabited

structure FlowPath where
  source : Int
  sink : Int
  sourceTypes : List String
  kinds : List EdgeKind
  sinkTypes : List String
deriving DecidableEq, Repr, Inhabited

namespace Graph

/-- An edge with its place in the graph, which tells parallel edges apart. -/
structure Hop where
  place : Nat
  edge : Edge
deriving DecidableEq, Repr, Inhabited

def hops (g : Graph) (q : FlowQuery) (id : Int) : List Hop :=
  let out := (g.edges.zipIdx.map fun (edge, place) => Hop.mk place edge).filter fun hop =>
    hop.edge.source == id && q.kinds.contains hop.edge.kind
  out.mergeSort fun a b => decide (a.edge.target ≤ b.edge.target)

/-- The node is an upstream anchor after so many hops. -/
def isUpstream (g : Graph) (q : FlowQuery) (id : Int) (depth : Nat) : Bool :=
  q.upstream.contains depth && g.hasLabel q.upstreamLabel id

/-- Anchors at the ends of trails: those of every trail that continues `used` from `id`, with at
most `left` more hops. -/
def trailAnchors (g : Graph) (q : FlowQuery) (used : List Nat) (id : Int) (depth : Nat) :
    Nat → List Int
  | 0 => if g.isUpstream q id depth then [id] else []
  | left + 1 =>
    (if g.isUpstream q id depth then [id] else []) ++
      ((g.hops q id).filter fun hop => !used.contains hop.place).flatMap fun hop =>
        trailAnchors g q (hop.place :: used) hop.edge.target (depth + 1) left

/-- Anchors among the nodes at the ends of walks of `depth` hops and more, layer by layer. -/
def layerAnchors (g : Graph) (q : FlowQuery) (layer : List Int) (depth : Nat) : Nat → List Int
  | 0 => layer.filter (g.isUpstream q · depth)
  | left + 1 =>
    layer.filter (g.isUpstream q · depth) ++
      let next := sortIds (layer.flatMap fun id => (g.hops q id).map (·.edge.target))
      if next.isEmpty then [] else layerAnchors g q next (depth + 1) left

/-- Upstream anchors of an entry, by id. Without a least hop count every walk in range can be
shortened to a trail in range, so the layers of walks give the same anchors as the trails. -/
def upstreamAnchors (g : Graph) (q : FlowQuery) (entry : Int) : List Int :=
  sortIds (if q.upstream.min = 0 then g.layerAnchors q [entry] 0 q.upstream.max
    else g.trailAnchors q [] entry 0 q.upstream.max)

/-- Ends and kinds of the trails that continue the trail `kinds` over `used` from `id`, with at
most `left` more hops, depth first. -/
def trailFlows (g : Graph) (q : FlowQuery) (anchor : Int) (used : List Nat) (kinds : List EdgeKind)
    (id : Int) : Nat → List (Int × List EdgeKind)
  | 0 => []
  | left + 1 =>
    ((g.hops q id).filter fun hop => !used.contains hop.place).flatMap fun hop =>
      let target := hop.edge.target
      let kinds := kinds ++ [hop.edge.kind]
      (if q.downstream.contains kinds.length && target != anchor &&
          g.hasLabel q.downstreamLabel target then [(target, kinds)] else []) ++
        trailFlows g q anchor (hop.place :: used) kinds target left

/-- Downstream anchors with the kinds that lead to them, each pair once. -/
def downstreamFlows (g : Graph) (q : FlowQuery) (anchor : Int) : List (Int × List EdgeKind) :=
  (g.trailFlows q anchor [] [] anchor q.downstream.max).eraseDups

def anchorPaths (g : Graph) (q : FlowQuery) (source : Int) : List FlowPath :=
  let sourceTypes := g.subtreeTypes source
  if sourceTypes.isEmpty then []
  else (g.downstreamFlows q source).filterMap fun (sink, kinds) =>
    let sinkTypes := g.subtreeTypes sink
    if sinkTypes.isEmpty then none else some ⟨source, sink, sourceTypes, kinds, sinkTypes⟩

def flowPaths (g : Graph) (entry : Int) (q : FlowQuery) : Except StoreError (List FlowPath) :=
  (g.require entry).map fun _ => (g.upstreamAnchors q entry).flatMap (g.anchorPaths q)

end Graph

end FlowTally
