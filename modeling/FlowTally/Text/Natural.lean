/-!
# Natural numbers in text

Decimal digits, and the reading of a bounded natural number: an optional plus
sign, then ASCII digits only. The reader goes from left to right, so of two
faults the one at the earlier digit is reported.
-/

namespace FlowTally.Text.Natural

abbrev bound64 : Nat := 18446744073709551616

abbrev bound32 : Nat := 4294967296

inductive Fault where
  | empty
  | invalidDigit
  | tooLarge
deriving DecidableEq, Repr

def Fault.message : Fault → String
  | .empty => "cannot parse integer from empty string"
  | .invalidDigit => "invalid digit found in string"
  | .tooLarge => "number too large to fit in target type"

def digits (n : Nat) : List Char := Nat.toDigits 10 n

def digit? (base : Nat) (c : Char) : Option Nat :=
  let n := c.toNat
  let value :=
    if 48 ≤ n ∧ n ≤ 57 then n - 48
    else if 97 ≤ n ∧ n ≤ 102 then n - 87
    else if 65 ≤ n ∧ n ≤ 70 then n - 55
    else 16
  if value < base then some value else none

def readDigits (base bound : Nat) : Nat → List Char → Except Fault Nat
  | n, [] => .ok n
  | n, c :: cs =>
    match digit? base c with
    | none => .error .invalidDigit
    | some d => if n * base + d < bound then readDigits base bound (n * base + d) cs else .error .tooLarge

/-- A number below `bound`, with an optional plus sign. -/
def readBase (base bound : Nat) : List Char → Except Fault Nat
  | [] => .error .empty
  | ['+'] => .error .invalidDigit
  | '+' :: cs => readDigits base bound 0 cs
  | cs => readDigits base bound 0 cs

def read (bound : Nat) (cs : List Char) : Except Fault Nat := readBase 10 bound cs

end FlowTally.Text.Natural
