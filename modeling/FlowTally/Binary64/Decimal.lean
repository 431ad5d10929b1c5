import FlowTally.Binary64.Basic

/-!
# Decimal text of binary64 numbers

`shortest` finds the fewest decimal digits that read back as the number, and of
those the nearest to it. The search goes through the decimal grids from coarse
to fine and tests the two neighbours of the value on each grid against the
interval of reals that round to the number. `text` writes these digits: plain
from `1e-5` up to `1e16`, always with a point, and with an exponent outside.
`tenths` is the value with one decimal place.
-/

namespace FlowTally.Binary64

structure Digits where
  digits : Nat
  power : Int
deriving DecidableEq, Repr, Inhabited

/-- The reals that round to a positive number: between `low / den` and `high / den`, the ends
included when the mantissa is even. -/
structure Interval where
  low : Nat
  value : Nat
  high : Nat
  den : Nat
  closed : Bool

def interval (x : Binary64) : Interval :=
  let narrow := x.mantissa == Nat.pow 2 52 && leastExponent < x.exponent
  let scale := Nat.pow 2 x.exponent.toNat
  { low := (4 * x.mantissa - (if narrow then 1 else 2)) * scale
    value := 4 * x.mantissa * scale
    high := (4 * x.mantissa + 2) * scale
    den := 4 * x.den
    closed := x.mantissa % 2 == 0 }

def Interval.contains (i : Interval) (d : Digits) : Bool :=
  let p := d.digits * Nat.pow 10 d.power.toNat * i.den
  let q := Nat.pow 10 (-d.power).toNat
  if i.closed then i.low * q ≤ p && p ≤ i.high * q else i.low * q < p && p < i.high * q

def digitCount (n : Nat) : Nat := (Nat.toDigits 10 n).length

/-- Power of ten just above a positive quotient: `10^(k-1) ≤ num / den < 10^k`. -/
def decimalPoint (num den : Nat) : Int :=
  let q := num / den
  if 0 < q then (digitCount q : Int)
  else
    let guess : Int := 1 - (digitCount ((den + num - 1) / num) : Int)
    if den ≤ num * Nat.pow 10 (-guess).toNat then guess + 1 else guess

/-- Neighbours of the value on the grid of multiples of `10^power` that lie in the interval,
the nearer one; a tie goes to the even one. -/
def Interval.onGrid? (i : Interval) (power : Int) : Option Digits :=
  let num := i.value * Nat.pow 10 (-power).toNat
  let den := i.den * Nat.pow 10 power.toNat
  let lower : Digits := ⟨num / den, power⟩
  let upper : Digits := ⟨num / den + 1, power⟩
  match i.contains lower, i.contains upper with
  | true, true => some ⟨roundHalfEven num den, power⟩
  | true, false => some lower
  | false, true => some upper
  | false, false => none

def Interval.search (i : Interval) (power : Int) : Nat → Digits
  | 0 => ⟨i.value / i.den, 0⟩
  | fuel + 1 =>
    match i.onGrid? power with
    | some d => d
    | none => i.search (power - 1) fuel

def Digits.strip (d : Digits) : Nat → Digits
  | 0 => d
  | fuel + 1 => if d.digits % 10 = 0 then Digits.strip ⟨d.digits / 10, d.power + 1⟩ fuel else d

/-- The fewest digits that read back as a positive number. -/
def shortest (x : Binary64) : Digits :=
  let i := x.interval
  (i.search (decimalPoint i.value i.den - 1) 18).strip 18

structure Layout where
  /-- Greatest position of the point, counted from the first digit, when written plainly. -/
  plainMax : Int
  /-- Least such position. -/
  plainMin : Int

/-- Plain from `1e-5` up to `1e16`. -/
def standard : Layout := ⟨16, -4⟩

def zeros (n : Int) : List Char := List.replicate n.toNat '0'

def intText (n : Int) : List Char :=
  if n < 0 then '-' :: Nat.toDigits 10 n.natAbs else Nat.toDigits 10 n.natAbs

def Digits.text (format : Layout) (d : Digits) : List Char :=
  let ds := Nat.toDigits 10 d.digits
  let point := (ds.length : Int) + d.power
  if 0 ≤ d.power ∧ point ≤ format.plainMax then ds ++ zeros d.power ++ ['.', '0']
  else if 0 < point ∧ point ≤ format.plainMax then
    ds.take point.toNat ++ '.' :: ds.drop point.toNat
  else if format.plainMin ≤ point ∧ point ≤ 0 then '0' :: '.' :: zeros (-point) ++ ds
  else
    match ds with
    | [] => []
    | [c] => c :: 'e' :: intText (point - 1)
    | c :: rest => c :: '.' :: rest ++ 'e' :: intText (point - 1)

def text (x : Binary64) : List Char :=
  let magnitude := if x.isZero then ['0', '.', '0'] else x.shortest.text standard
  if x.negative then '-' :: magnitude else magnitude

/-- A number that is not negative with one decimal place, a half going to the even digit. -/
def tenths (x : Binary64) : List Char :=
  let n := roundHalfEven (x.num * 10) x.den
  Nat.toDigits 10 (n / 10) ++ '.' :: Nat.toDigits 10 (n % 10)

end FlowTally.Binary64
