import FlowTally.Text.Natural

/-!
# Run ids

A run id is a number of 128 bits. It is written as 32 hexadecimal digits in
groups of 8, 4, 4, 4 and 12. The reader also takes it without hyphens, in
braces, or with the name of its namespace in front.
-/

namespace FlowTally

structure RunId where
  value : Nat
deriving DecidableEq, Repr, Inhabited

namespace RunId

/-- The id of random bits: thirteenth digit 4, and a seventeenth digit from 8 to b. -/
def ofRandom (bits : Nat) : RunId :=
  let high := bits / Nat.pow 2 80 % Nat.pow 2 48
  let middle := bits / Nat.pow 2 64 % Nat.pow 2 12
  let low := bits % Nat.pow 2 62
  ⟨high * Nat.pow 2 80 + 4 * Nat.pow 2 76 + middle * Nat.pow 2 64 + Nat.pow 2 63 + low⟩

def group (n digits : Nat) : List Char :=
  let ds := Nat.toDigits 16 (n % Nat.pow 16 digits)
  List.replicate (digits - ds.length) '0' ++ ds

def text (id : RunId) : String :=
  let n := id.value
  let part (drop digits : Nat) := group (n / Nat.pow 16 drop) digits
  String.ofList (part 24 8 ++ '-' :: part 20 4 ++ '-' :: part 16 4 ++ '-' :: part 12 4 ++
    '-' :: part 0 12)

def readDigits? (cs : List Char) : Option RunId :=
  if cs.length = 32 then
    (cs.foldlM (fun n c => (Text.Natural.digit? 16 c).map (n * 16 + ·)) 0).map RunId.mk
  else none

def readGroups? (cs : List Char) : Option RunId :=
  let isHyphen (place : Nat) : Bool := cs[place]? == some '-'
  if cs.length = 36 ∧ [8, 13, 18, 23].all isHyphen then
    readDigits? (cs.take 8 ++ (cs.drop 9).take 4 ++ (cs.drop 14).take 4 ++ (cs.drop 19).take 4 ++
      cs.drop 24)
  else none

def namespaceMark : List Char := "urn:uuid:".toList

def read? (text : String) : Option RunId :=
  let cs := text.toList
  if cs.length = 32 then readDigits? cs
  else if cs.length = 38 ∧ cs.head? = some '\x7b' ∧ cs.getLast? = some '\x7d' then
    readGroups? (cs.drop 1).dropLast
  else if cs.length = 45 ∧ namespaceMark.isPrefixOf cs = true then
    readGroups? (cs.drop namespaceMark.length)
  else readGroups? cs

end RunId

end FlowTally
