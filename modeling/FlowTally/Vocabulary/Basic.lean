import FlowTally.Key.Text

/-!
# Vocabularies

A vocabulary gives each flow key a column. Columns are handed out in the order
in which keys are first seen, starting at zero, and never change. A frozen
vocabulary takes no new keys.
-/

namespace FlowTally

/-- Keys by column. -/
structure Vocabulary where
  keys : List FlowKey := []
  frozen : Bool := false
deriving DecidableEq, Repr, Inhabited

inductive Resolution where
  | existing (column : Nat)
  | created (column : Nat)
  | rejected
deriving DecidableEq, Repr

def Resolution.column? : Resolution → Option Nat
  | .existing column | .created column => some column
  | .rejected => none

namespace Vocabulary

inductive Fault where
  | duplicate (key : FlowKey) (column : Nat)
  | collision (key : FlowKey) (column : Nat) (found : Option Nat)
deriving DecidableEq, Repr

def Fault.message : Fault → String
  | .duplicate key column => s!"duplicate vocabulary key '{key.render}' at column {column}"
  | .collision key column found =>
    let shown := match found with
      | some other => s!"Some({other})"
      | none => "None"
    s!"column index collision: key '{key.render}' at column {column} maps to {shown}"

def size (v : Vocabulary) : Nat := v.keys.length

def isEmpty (v : Vocabulary) : Bool := v.keys.isEmpty

def column? (v : Vocabulary) (key : FlowKey) : Option Nat := v.keys.idxOf? key

def key? (v : Vocabulary) (column : Nat) : Option FlowKey := v.keys[column]?

/-- Column of a key, a new one if it has none and the vocabulary is not frozen. -/
def resolve (v : Vocabulary) (key : FlowKey) : Resolution × Vocabulary :=
  match v.column? key with
  | some column => (.existing column, v)
  | none =>
    if v.frozen then (.rejected, v)
    else (.created v.size, { v with keys := v.keys ++ [key] })

def firstRepeated? (seen : List FlowKey) : List FlowKey → Option (FlowKey × Nat)
  | [] => none
  | key :: rest =>
    if key ∈ seen then some (key, seen.length) else firstRepeated? (seen ++ [key]) rest

def ofKeys (keys : List FlowKey) (frozen : Bool) : Except Fault Vocabulary :=
  match firstRepeated? [] keys with
  | some (key, column) => .error (.duplicate key column)
  | none => .ok ⟨keys, frozen⟩

/-- Checks from a column on that every key leads back to its column. -/
def checkFrom (v : Vocabulary) (column : Nat) : List FlowKey → Except Fault Unit
  | [] => .ok ()
  | key :: rest =>
    let found := v.column? key
    if found = some column then checkFrom v (column + 1) rest
    else .error (.collision key column found)

def check (v : Vocabulary) : Except Fault Unit := v.checkFrom 0 v.keys

end Vocabulary

end FlowTally
