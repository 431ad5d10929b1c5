import FlowTally.Json.Reader

/-!
# Records in JSON

A record is an object, where unknown fields are passed over and no known field
may occur twice, or an array of its fields in order, where fields at the end
may be missing. The parts of a record are read one by one.
-/

namespace FlowTally.Json

def Tree.record? (names : List String) : Tree → Option (List (Option Tree))
  | .arr items =>
    if items.length ≤ names.length then
      some (items.map some ++ List.replicate (names.length - items.length) none)
    else none
  | .obj fields => do
    let fields ← fields.mapM fun (name, value) => (text?OfPieces name).map (·, value)
    names.mapM fun name =>
      match fields.filter fun field => field.1 == name with
      | [] => some none
      | [(_, value)] => some (some value)
      | _ => none
  | _ => none

def Tree.int64? : Tree → Option Int
  | .num l =>
    match l.value? with
    | some (.int n) => if -9223372036854775808 ≤ n ∧ n < 9223372036854775808 then some n else none
    | _ => none
  | _ => none

def Tree.count? : Tree → Option Nat
  | .num l =>
    match l.value? with
    | some (.int n) => if 0 ≤ n then some n.toNat else none
    | _ => none
  | _ => none

def Tree.text? : Tree → Option String
  | .str pieces => text?OfPieces pieces
  | _ => none

def Tree.list? (item? : Tree → Option α) : Tree → Option (List α)
  | .arr items => items.mapM item?
  | _ => none

/-- Named values; the values of a part at nesting `depth` levels may go that deep. -/
def Tree.properties? (depth : Nat) : Tree → Option (List (String × Json))
  | .obj fields => (Tree.fieldValues? (depth - 1) fields).map sortFields
  | _ => none

/-- The name of a choice, written as a string or as the only field of an object with null. -/
def Tree.choice? : Tree → Option String
  | .str pieces => text?OfPieces pieces
  | .obj [(pieces, .null)] => text?OfPieces pieces
  | _ => none

end FlowTally.Json
