import FlowTally.Yaml.Token

/-!
# YAML nodes

A document is one node: a scalar, a sequence or a mapping. A value that is left
out is an empty plain scalar, and so is an empty document. The tokens decide at
each place what comes next, so the reader looks one token ahead.
-/

namespace FlowTally.Yaml

inductive Node where
  | scalar (text : List Char) (isPlain : Bool)
  | sequence (items : List Node)
  | mapping (entries : List (Node × Node))
deriving Repr, Inhabited

namespace Node

def absent : Node := .scalar [] true

inductive Place where
  | block
  /-- In a block mapping, where a sequence need not be indented. -/
  | mapping
  | flow
deriving DecidableEq, Repr

abbrev Outcome (α : Type) := Except Fault (α × List Token)

def endsEntry : List Token → Bool
  | .entry :: _ | .blockEnd :: _ => true
  | _ => false

def endsPlainEntry : List Token → Bool
  | .entry :: _ | .key :: _ | .value :: _ | .blockEnd :: _ => true
  | _ => false

def endsPair : List Token → Bool
  | .key :: _ | .value :: _ | .blockEnd :: _ => true
  | _ => false

def endsFlowKey : List Token → Bool
  | .value :: _ | .separator :: _ | .flowMappingEnd :: _ => true
  | _ => false

def endsFlowValue : List Token → Bool
  | .separator :: _ | .flowMappingEnd :: _ => true
  | _ => false

def afterSeparator (first : Bool) (ts : List Token) : Except Fault (List Token) :=
  if first then .ok ts
  else match ts with
    | .separator :: ts => .ok ts
    | _ => .error .noEnd

def orAbsent (left : Bool) (read : List Token → Outcome Node) (ts : List Token) : Outcome Node :=
  if left then .ok (absent, ts) else read ts

mutual

def read : Nat → Place → List Token → Outcome Node
  | 0, _, _ => .error .noNode
  | fuel + 1, place, ts =>
    match ts with
    | .scalar text isPlain :: ts => .ok (.scalar text isPlain, ts)
    | .flowSequence :: ts => (flowItems fuel true ts).map fun (items, ts) => (.sequence items, ts)
    | .flowMapping :: ts => (flowPairs fuel true ts).map fun (pairs, ts) => (.mapping pairs, ts)
    | .entry :: rest =>
      if place = .mapping then
        (plainItems fuel (.entry :: rest)).map fun (items, ts) => (.sequence items, ts)
      else .error .noNode
    | .blockSequence :: ts =>
      if place = .flow then .error .noNode
      else (items fuel ts).map fun (items, ts) => (.sequence items, ts)
    | .blockMapping :: ts =>
      if place = .flow then .error .noNode
      else (pairs fuel ts).map fun (pairs, ts) => (.mapping pairs, ts)
    | _ => .error .noNode

def items : Nat → List Token → Outcome (List Node)
  | 0, _ => .error .noEnd
  | fuel + 1, ts =>
    match ts with
    | .entry :: ts =>
      (orAbsent (endsEntry ts) (read fuel .block) ts).bind fun (item, ts) =>
        (items fuel ts).map fun (rest, ts) => (item :: rest, ts)
    | .blockEnd :: ts => .ok ([], ts)
    | _ => .error .noEnd

def plainItems : Nat → List Token → Outcome (List Node)
  | 0, _ => .error .noEnd
  | fuel + 1, ts =>
    match ts with
    | .entry :: ts =>
      (orAbsent (endsPlainEntry ts) (read fuel .block) ts).bind fun (item, ts) =>
        (plainItems fuel ts).map fun (rest, ts) => (item :: rest, ts)
    | ts => .ok ([], ts)

def pairs : Nat → List Token → Outcome (List (Node × Node))
  | 0, _ => .error .noEnd
  | fuel + 1, ts =>
    match ts with
    | .key :: ts =>
      (orAbsent (endsPair ts) (read fuel .mapping) ts).bind fun (key, ts) =>
        (pairValue fuel ts).bind fun (value, ts) =>
          (pairs fuel ts).map fun (rest, ts) => ((key, value) :: rest, ts)
    | .blockEnd :: ts => .ok ([], ts)
    | _ => .error .noEnd

def pairValue : Nat → List Token → Outcome Node
  | 0, _ => .error .noNode
  | fuel + 1, ts =>
    match ts with
    | .value :: ts => orAbsent (endsPair ts) (read fuel .mapping) ts
    | ts => .ok (absent, ts)

def flowItems : Nat → Bool → List Token → Outcome (List Node)
  | 0, _, _ => .error .noEnd
  | fuel + 1, first, ts =>
    match ts with
    | .flowSequenceEnd :: ts => .ok ([], ts)
    | ts =>
      (afterSeparator first ts).bind fun ts =>
        match ts with
        | .flowSequenceEnd :: ts => .ok ([], ts)
        | .key :: _ => .error (.kind "an item")
        | ts =>
          (read fuel .flow ts).bind fun (item, ts) =>
            (flowItems fuel false ts).map fun (rest, ts) => (item :: rest, ts)

def flowPairs : Nat → Bool → List Token → Outcome (List (Node × Node))
  | 0, _, _ => .error .noEnd
  | fuel + 1, first, ts =>
    match ts with
    | .flowMappingEnd :: ts => .ok ([], ts)
    | ts =>
      (afterSeparator first ts).bind fun ts =>
        match ts with
        | .flowMappingEnd :: ts => .ok ([], ts)
        | .key :: ts =>
          (orAbsent (endsFlowKey ts) (read fuel .flow) ts).bind fun (key, ts) =>
            (flowValue fuel ts).bind fun (value, ts) =>
              (flowPairs fuel false ts).map fun (rest, ts) => ((key, value) :: rest, ts)
        | ts =>
          (read fuel .flow ts).bind fun (key, ts) =>
            (flowPairs fuel false ts).map fun (rest, ts) => ((key, absent) :: rest, ts)

def flowValue : Nat → List Token → Outcome Node
  | 0, _ => .error .noNode
  | fuel + 1, ts =>
    match ts with
    | .value :: ts => orAbsent (endsFlowValue ts) (read fuel .flow) ts
    | ts => .ok (absent, ts)

end

def onlyEnds (ts : List Token) : Bool := ts.all (· == .documentEnd)

def ofTokens (ts : List Token) : Except Fault Node :=
  let whole (outcome : Outcome Node) : Except Fault Node :=
    outcome.bind fun (node, rest) => if onlyEnds rest then .ok node else .error .secondDocument
  let fuel := 3 * ts.length + 3
  match ts with
  | [] => .ok absent
  | [.documentStart] => .ok absent
  | .documentStart :: .documentStart :: _ => .error .secondDocument
  | .documentStart :: .documentEnd :: rest => whole (.ok (absent, rest))
  | .documentStart :: ts => whole (read fuel .block ts)
  | ts => whole (read fuel .block ts)

def ofText (text : List Char) : Except Fault Node := (Token.scan text).bind ofTokens

end Node

end FlowTally.Yaml
