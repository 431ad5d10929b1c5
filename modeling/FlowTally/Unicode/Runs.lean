/-!
# Run lengths

Properties of code points are kept as text: a code of fixed width for each run
of neighbouring code points, followed by the length of the run when it is not
one. Sets are kept as hexadecimal code points and ranges between blanks.
-/

namespace FlowTally.Unicode

/-- A code and the count of code points that share it. -/
structure Run where
  code : String
  length : Nat
deriving DecidableEq, Repr, Inhabited

def takeNumber : Nat → List Char → Nat × List Char
  | n, [] => (n, [])
  | n, c :: cs => if c.isDigit then takeNumber (n * 10 + (c.toNat - 48)) cs else (n, c :: cs)

def readRuns (width : Nat) : Nat → List Char → List Run
  | 0, _ => []
  | _, [] => []
  | fuel + 1, cs =>
    let code := String.ofList (cs.take width)
    match cs.drop width with
    | c :: rest =>
      if c.isDigit then
        let (length, rest) := takeNumber 0 (c :: rest)
        ⟨code, length⟩ :: readRuns width fuel rest
      else ⟨code, 1⟩ :: readRuns width fuel (c :: rest)
    | [] => [⟨code, 1⟩]

def runs (width : Nat) (text : String) : List Run := readRuns width text.length text.toList

def codeAt : Nat → List Run → String
  | _, [] => ""
  | n, run :: rest => if n < run.length then run.code else codeAt (n - run.length) rest

structure Range where
  first : Nat
  last : Nat
deriving DecidableEq, Repr, Inhabited

def Range.contains (r : Range) (n : Nat) : Bool := r.first ≤ n && n ≤ r.last

def hexValue (text : List Char) : Nat :=
  text.foldl (fun n c => n * 16 + (if c.isDigit then c.toNat - 48 else c.toNat - 55)) 0

def ranges (text : String) : List Range :=
  (text.toList.splitOn ' ').filterMap fun word =>
    match word.splitOn '-' with
    | [one] => some ⟨hexValue one, hexValue one⟩
    | [first, last] => some ⟨hexValue first, hexValue last⟩
    | _ => none

def inRanges (set : List Range) (c : Char) : Bool := set.any (·.contains c.toNat)

end FlowTally.Unicode
