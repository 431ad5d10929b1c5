import FlowTally.Binary64.Basic
import FlowTally.Text.Natural

/-!
# Values of plain scalars

A plain scalar may stand for null, a truth value or a number; only what stands
for none of them is text in every reader. Whole numbers may be signed and may
be hexadecimal, octal or binary; decimal digits after a leading zero are text.
-/

namespace FlowTally.Yaml

open Text.Natural (digit? readBase)

def isNull (cs : List Char) : Bool :=
  cs == [] || cs == ['~'] || cs == "null".toList || cs == "Null".toList || cs == "NULL".toList

def bool? (cs : List Char) : Option Bool :=
  if cs = "true".toList ∨ cs = "True".toList ∨ cs = "TRUE".toList then some true
  else if cs = "false".toList ∨ cs = "False".toList ∨ cs = "FALSE".toList then some false
  else none

def isZeroPadded (cs : List Char) : Bool :=
  let body := match cs with
    | '-' :: rest | '+' :: rest => rest
    | _ => cs
  match body with
  | '0' :: d :: rest => (d :: rest).all fun c => (digit? 10 c).isSome
  | _ => false

def startsSigned : List Char → Bool
  | c :: _ => c == '+' || c == '-'
  | [] => false

def unsigned? (base bound : Nat) (cs : List Char) : Option Nat :=
  if startsSigned cs then none else (readBase base bound cs).toOption

def based? (bound : Nat) : List Char → Option Nat
  | '0' :: 'x' :: cs => unsigned? 16 bound cs
  | '0' :: 'o' :: cs => unsigned? 8 bound cs
  | '0' :: 'b' :: cs => unsigned? 2 bound cs
  | _ => none

def natural? (bound : Nat) (cs : List Char) : Option Nat :=
  let body := match cs with
    | '+' :: rest => rest
    | _ => cs
  match based? bound body with
  | some n => some n
  | none => if isZeroPadded cs then none else unsigned? 10 bound body

/-- A negative number with at most 127 bits and the letter of its base. -/
def isNegative : List Char → Bool
  | '-' :: cs => (based? (Nat.pow 2 127 + 1) cs).isSome
  | _ => false

/-! ### Real numbers -/

def spanDigits (cs : List Char) : List Char × List Char :=
  cs.span fun c => (digit? 10 c).isSome

def digitsValue (cs : List Char) : Nat :=
  cs.foldl (fun n c => n * 10 + (digit? 10 c).getD 0) 0

/-- `digits · 10^exponent` is no larger than the largest binary64 number. -/
def isFinite (digits : Nat) (exponent : Int) : Bool :=
  let size : Int := (Nat.toDigits 10 digits).length + exponent
  if digits = 0 ∨ size < -400 then true
  else if 400 < size then false
  else
    let num := digits * Nat.pow 10 exponent.toNat
    (Binary64.ofRatio false num (Nat.pow 10 (-exponent).toNat)).isSome

def exponent? (cs : List Char) : Option Int :=
  let (negative, body) : Bool × List Char := match cs with
    | '-' :: rest => (true, rest)
    | '+' :: rest => (false, rest)
    | _ => (false, cs)
  if body.isEmpty ∨ ¬ body.all fun c => (digit? 10 c).isSome then none
  else some (if negative then -(digitsValue body : Int) else digitsValue body)

def isDecimal (cs : List Char) : Bool :=
  let (whole, rest) := spanDigits cs
  let (fraction, rest) := match rest with
    | '.' :: rest => spanDigits rest
    | _ => ([], rest)
  let digits := digitsValue (whole ++ fraction)
  let finite (exponent : Int) := isFinite digits (exponent - fraction.length)
  if whole.isEmpty && fraction.isEmpty then false
  else match rest with
    | [] => finite 0
    | c :: rest => if c = 'e' ∨ c = 'E' then (exponent? rest).any finite else false

def isInfinity (cs : List Char) : Bool :=
  cs == ".inf".toList || cs == ".Inf".toList || cs == ".INF".toList

def isNotNumber (cs : List Char) : Bool :=
  cs == ".nan".toList || cs == ".NaN".toList || cs == ".NAN".toList

def isReal (cs : List Char) : Bool :=
  isNotNumber cs || match cs with
    | '+' :: rest => isInfinity rest || isDecimal rest
    | '-' :: rest => isInfinity rest || isDecimal rest
    | _ => isInfinity cs || isDecimal cs

/-- A plain scalar that a reader may take for something else than text, or that only looks like
a number. -/
def isAmbiguous (cs : List Char) : Bool :=
  isNull cs || (bool? cs).isSome || (natural? (Nat.pow 2 128) cs).isSome || isNegative cs ||
    isZeroPadded cs || isReal cs

end FlowTally.Yaml
