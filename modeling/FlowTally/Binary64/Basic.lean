/-!
# Finite binary64 numbers

A number is `±mantissa · 2^exponent` in the normal form of the format: the
mantissa has at most 53 bits, the exponent lies between `-1074` and `971`, and
below the largest mantissa range only the least exponent is used. So equal
numbers are equal values of the type. Every operation takes the exact quotient
of two natural numbers and rounds it once, a tie going to the even mantissa.
-/

namespace FlowTally

structure Binary64 where
  negative : Bool
  mantissa : Nat
  exponent : Int
deriving DecidableEq, Repr, Inhabited

namespace Binary64

def leastExponent : Int := -1074

def mostExponent : Int := 971

def zero (negative : Bool) : Binary64 := ⟨negative, 0, leastExponent⟩

def isZero (x : Binary64) : Bool := x.mantissa == 0

/-- The quotient rounded to a whole number, a half going to the even neighbour. -/
def roundHalfEven (num den : Nat) : Nat :=
  let q := num / den
  let r := num % den
  if 2 * r < den then q
  else if den < 2 * r then q + 1
  else q + q % 2

def mantissaAt (num den : Nat) (exponent : Int) : Nat :=
  if 0 ≤ exponent then roundHalfEven num (den * Nat.pow 2 exponent.toNat)
  else roundHalfEven (num * Nat.pow 2 (-exponent).toNat) den

/-- The nearest number to `num / den`; `none` past the largest finite one. -/
def ofRatio (negative : Bool) (num den : Nat) : Option Binary64 :=
  if num = 0 then some (zero negative)
  else
    let guess : Int := (num.log2 : Int) - (den.log2 : Int) - 52
    let below : Bool :=
      if 0 ≤ guess then num < den * Nat.pow 2 guess.toNat * Nat.pow 2 52
      else num * Nat.pow 2 (-guess).toNat < den * Nat.pow 2 52
    let exponent := max leastExponent (if below then guess - 1 else guess)
    let m := mantissaAt num den exponent
    let result : Binary64 :=
      if m = Nat.pow 2 53 then ⟨negative, Nat.pow 2 52, exponent + 1⟩ else ⟨negative, m, exponent⟩
    if mostExponent < result.exponent then none else some result

def num (x : Binary64) : Nat := x.mantissa * Nat.pow 2 x.exponent.toNat

def den (x : Binary64) : Nat := Nat.pow 2 (-x.exponent).toNat

def ofNat (n : Nat) : Option Binary64 := ofRatio false n 1

def mul (x y : Binary64) : Option Binary64 :=
  ofRatio (x.negative != y.negative) (x.num * y.num) (x.den * y.den)

def div (x y : Binary64) : Option Binary64 :=
  ofRatio (x.negative != y.negative) (x.num * y.den) (x.den * y.num)

end Binary64

end FlowTally
