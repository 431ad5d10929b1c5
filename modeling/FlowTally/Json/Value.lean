import FlowTally.Binary64.Basic

/-!
# JSON values

Whole numbers between `-2^63` and `2^64 - 1` are integers; every other number
is a binary64 value. An object is a list of named values; the reader gives
each name once and in ascending order.
-/

namespace FlowTally

inductive Json where
  | null
  | bool (value : Bool)
  | int (value : Int)
  | real (value : Binary64)
  | str (text : String)
  | arr (items : List Json)
  | obj (fields : List (String × Json))
deriving Repr, Inhabited

namespace Json

def insertField (name : String) (value : α) : List (String × α) → List (String × α)
  | [] => [(name, value)]
  | (other, old) :: rest =>
    if name < other then (name, value) :: (other, old) :: rest
    else if name = other then (name, value) :: rest
    else (other, old) :: insertField name value rest

/-- Fields in ascending order of their names; of two values for one name the last counts. -/
def sortFields (fields : List (String × α)) : List (String × α) :=
  fields.foldl (fun sorted field => insertField field.1 field.2 sorted) []

def lookup? (name : String) (fields : List (String × α)) : Option α :=
  (fields.find? fun field => field.1 == name).map (·.2)

def text? : Json → Option String
  | .str text => some text
  | _ => none

mutual
def beq : Json → Json → Bool
  | .null, .null => true
  | .bool a, .bool b => a == b
  | .int a, .int b => a == b
  | .real a, .real b => a == b
  | .str a, .str b => a == b
  | .arr a, .arr b => beqItems a b
  | .obj a, .obj b => beqFields a b
  | _, _ => false
def beqItems : List Json → List Json → Bool
  | [], [] => true
  | a :: as, b :: bs => beq a b && beqItems as bs
  | _, _ => false
def beqFields : List (String × Json) → List (String × Json) → Bool
  | [], [] => true
  | (m, a) :: as, (n, b) :: bs => m == n && beq a b && beqFields as bs
  | _, _ => false
end

instance : BEq Json := ⟨beq⟩

end Json

end FlowTally
