import FlowTally.Pattern.Syntax

/-!
# Matching regular expressions

The matcher moves a set of places through an expression: `advance r places` is
the set of places where a match of `r` that starts at one of `places` can end.
A set of places is a natural number, bit `i` for the place before the `i`th
character.
-/

namespace FlowTally.Pattern

def allPlaces (n : Nat) : Nat := Nat.pow 2 (n + 1) - 1

def placesOf (set : CharSet) : Nat → List Char → Nat
  | _, [] => 0
  | i, c :: cs => (if set.contains c then Nat.pow 2 i else 0) ||| placesOf set (i + 1) cs

def placesWhere (condition : Look) : Nat → Option Char → List Char → Nat
  | i, before, [] => if condition.holds before none then Nat.pow 2 i else 0
  | i, before, c :: cs =>
    (if condition.holds before (some c) then Nat.pow 2 i else 0) |||
      placesWhere condition (i + 1) (some c) cs

def exactly (step : Nat → Nat) : Nat → Nat → Nat
  | 0, places => places
  | n + 1, places => if places = 0 then 0 else exactly step n (step places)

def upTo (step : Nat → Nat) : Nat → Nat → Nat
  | 0, places => places
  | n + 1, places =>
    let next := places ||| step places
    if next = places then places else upTo step n next

namespace Regex

/-- Where matches that start at some of `places` can end. -/
def advance (chars : List Char) : Regex → Nat → Nat
  | .empty, places => places
  | .set members, places => (places &&& placesOf members 0 chars) <<< 1
  | .look condition, places => places &&& placesWhere condition 0 none chars
  | .append first second, places => advance chars second (advance chars first places)
  | .either left right, places => advance chars left places ||| advance chars right places
  | .times body least most, places =>
    let start := exactly (advance chars body) least places
    match most with
    | some most => upTo (advance chars body) (most - least) start
    | none => upTo (advance chars body) (chars.length + 1) start

def search (r : Regex) (chars : List Char) : Bool :=
  r.advance chars (allPlaces chars.length) != 0

end Regex

end FlowTally.Pattern
