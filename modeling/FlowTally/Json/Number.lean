import FlowTally.Json.Value
import FlowTally.Text.Natural

/-!
# Numbers in JSON text

A literal keeps its digits. Its value is an integer when it has neither
fraction nor exponent and fits in 64 bits. Any other literal is a binary64
number: the leading digits that fit in 64 bits are rounded to a number first,
and that number is then scaled by a rounded power of ten, so the result may
differ from the nearest one in its last bit. A literal past the largest finite
number has no value; one below the least is zero.
-/

namespace FlowTally.Json

/-- A number as written. Digits are values, not characters. -/
structure Literal where
  negative : Bool
  whole : List Nat
  fraction : Option (List Nat)
  /-- Sign and digits of the exponent; `true` is negative. -/
  exponent : Option (Bool × List Nat)
deriving DecidableEq, Repr, Inhabited

/-- Leading digits as a 64-bit number, and the power of ten still to be applied. -/
structure Decimal where
  significand : Nat
  power : Int
deriving DecidableEq, Repr

open Text.Natural (bound64)

/-- Takes digits while the significand fits; the rest are returned. -/
def takeDigits : Nat → List Nat → Nat × List Nat
  | n, [] => (n, [])
  | n, d :: ds => if n * 10 + d < bound64 then takeDigits (n * 10 + d) ds else (n, d :: ds)

def pow10 (n : Nat) : Binary64 := (Binary64.ofNat (Nat.pow 10 n)).getD (.zero false)

def tableEnd : Nat := 308

/-- `x` scaled by a power of ten, in steps of at most `10^308`. -/
def scale (x : Binary64) (power : Int) : Nat → Option Binary64
  | 0 => some x
  | fuel + 1 =>
    if power.natAbs ≤ tableEnd then
      if 0 ≤ power then x.mul (pow10 power.natAbs) else x.div (pow10 power.natAbs)
    else if x.isZero then some x
    else if 0 ≤ power then none
    else do
      let smaller ← x.div (pow10 tableEnd)
      scale smaller (power + tableEnd) fuel

def Decimal.real? (negative : Bool) (d : Decimal) : Option Binary64 := do
  let magnitude ← (Binary64.ofNat d.significand).bind (scale · d.power 4)
  return { magnitude with negative := negative }

def exponentBound : Nat := 2147483648

def exponentValue? (ds : List Nat) : Option Nat :=
  ds.foldl (fun n d => n.bind fun n => if n * 10 + d < exponentBound then some (n * 10 + d) else none)
    (some 0)

/-- Digits of whole part and fraction as a decimal. Digits that no longer fit in 64 bits raise
the power before the point and are dropped after it. -/
def Literal.decimal (l : Literal) : Decimal :=
  let (n, excess) := takeDigits 0 l.whole
  match l.fraction with
  | none => ⟨n, excess.length⟩
  | some ds =>
    let (m, unread) := takeDigits n ds
    ⟨m, (excess.length : Int) - ((ds.length - unread.length : Nat) : Int)⟩

def Literal.real? (l : Literal) : Option Binary64 :=
  let d := l.decimal
  match l.exponent with
  | none => d.real? l.negative
  | some (down, ds) =>
    match exponentValue? ds with
    | none => if d.significand ≠ 0 ∧ !down then none else some (.zero l.negative)
    | some e => { d with power := if down then d.power - e else d.power + e : Decimal }.real? l.negative

def Literal.value? (l : Literal) : Option Json :=
  match l.fraction, l.exponent, takeDigits 0 l.whole with
  | none, none, (n, []) =>
    if !l.negative then some (.int n)
    else if 0 < n ∧ n ≤ Nat.pow 2 63 then some (.int (-(n : Int)))
    else l.real?.map .real
  | _, _, _ => l.real?.map .real

end FlowTally.Json
