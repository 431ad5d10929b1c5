/-!
# Sample labels

Each row of a matrix has one label and one sample id, recorded strictly in row
order. A label is written in one of two styles; the reader knows both.
-/

namespace FlowTally

inductive LabelStyle where
  | numeric
  | boolean
deriving DecidableEq, Repr, Inhabited

namespace LabelStyle

def name : LabelStyle → String
  | .numeric => "numeric"
  | .boolean => "boolean"

def ofName? (name : String) : Option LabelStyle :=
  if name = "numeric" then some .numeric
  else if name = "boolean" then some .boolean
  else none

def lowerAscii (s : String) : String := String.ofList (s.toList.map Char.toLower)

/-- A style by its name in any letter case, or the complaint about another name. -/
def parse (text : String) : Except String LabelStyle :=
  match ofName? (lowerAscii text) with
  | some style => .ok style
  | none => .error s!"unknown label style '{lowerAscii text}' (expected numeric or boolean)"

def format : LabelStyle → Bool → String
  | .numeric, true => "1"
  | .numeric, false => "0"
  | .boolean, true => "True"
  | .boolean, false => "False"

def readLabel? (text : String) : Option Bool :=
  if text = "1" ∨ text = "True" ∨ text = "true" then some true
  else if text = "0" ∨ text = "False" ∨ text = "false" then some false
  else none

theorem readLabel?_format (style : LabelStyle) (label : Bool) :
    readLabel? (style.format label) = some label := by
  cases style <;> cases label <;> decide

end LabelStyle

structure LabelEntry where
  label : Bool
  sampleId : String
deriving DecidableEq, Repr, Inhabited

structure LabelRegistry where
  entries : List LabelEntry := []
deriving DecidableEq, Repr, Inhabited

namespace LabelRegistry

inductive Fault where
  | again (row : Nat) (sampleId : String)
  | early (row : Nat) (sampleId : String) (expected : Nat)
deriving DecidableEq, Repr

def Fault.message : Fault → String
  | .again row id => s!"row {row} ('{id}') already has a label"
  | .early row id expected => s!"label for row {row} ('{id}') recorded before row {expected}"

def size (r : LabelRegistry) : Nat := r.entries.length

def record (r : LabelRegistry) (row : Nat) (label : Bool) (sampleId : String) :
    Except Fault LabelRegistry :=
  if row < r.size then .error (.again row sampleId)
  else if r.size < row then .error (.early row sampleId r.size)
  else .ok ⟨r.entries ++ [⟨label, sampleId⟩]⟩

theorem record_ok {r r' : LabelRegistry} {row : Nat} {label : Bool} {sampleId : String}
    (h : r.record row label sampleId = .ok r') :
    row = r.size ∧ r'.entries = r.entries ++ [⟨label, sampleId⟩] := by
  unfold record at h
  split at h
  · cases h
  · split at h
    · cases h
    · cases h
      exact ⟨by omega, rfl⟩

end LabelRegistry

end FlowTally
