import FlowTally.Text.Blank
import FlowTally.Text.Natural
import FlowTally.Time.Instant

/-!
# Instants in text

An instant is written as date and time of day with a `Z` at the end:

    2024-05-01T09:30:00.250Z

The fraction has no digits, three, six or nine. The reader also takes one-digit
numbers, blanks between the parts, a blank or a small `t` before the time, and
any offset from universal time up to a day.
-/

namespace FlowTally.Instant

open Text.Natural (digit?)

def padded (width n : Nat) : List Char :=
  let ds := Text.Natural.digits n
  List.replicate (width - ds.length) '0' ++ ds

/-- Four digits, with a sign for years that do not fit. -/
def yearText (year : Int) : List Char :=
  if 0 ≤ year ∧ year ≤ 9999 then padded 4 year.toNat
  else (if year < 0 then '-' else '+') :: padded 4 year.natAbs

def fractionText (nano : Nat) : List Char :=
  if nano = 0 then []
  else if nano % 1000000 = 0 then '.' :: padded 3 (nano / 1000000)
  else if nano % 1000 = 0 then '.' :: padded 6 (nano / 1000)
  else '.' :: padded 9 nano

def text (i : Instant) : List Char :=
  let date := Date.ofDays i.day
  let second := i.second % 60 + i.nano / 1000000000
  yearText date.year ++ '-' :: padded 2 date.month ++ '-' :: padded 2 date.day ++
    'T' :: padded 2 (i.second / 3600) ++ ':' :: padded 2 (i.second / 60 % 60) ++
    ':' :: padded 2 second ++ fractionText (i.nano % 1000000000) ++ ['Z']

/-! ### Reading -/

def isDigit (c : Char) : Bool := (digit? 10 c).isSome

def value (ds : List Char) : Nat := ds.foldl (fun n c => n * 10 + (digit? 10 c).getD 0) 0

def skipBlanks (cs : List Char) : List Char := cs.dropWhile Text.isBlank

def readNumber? (most : Nat) (cs : List Char) : Option (Nat × List Char) :=
  let cs := skipBlanks cs
  let ds := (cs.takeWhile isDigit).take most
  if ds = [] then none else some (value ds, cs.drop ds.length)

/-- A year: with a sign it may have any count of digits. -/
def readYear? (cs : List Char) : Option (Int × List Char) :=
  let signed (cs : List Char) : Option (Nat × List Char) :=
    if cs.head?.any isDigit then readNumber? cs.length cs else none
  match skipBlanks cs with
  | '-' :: rest => (signed rest).map fun (n, rest) => (-(n : Int), rest)
  | '+' :: rest => (signed rest).map fun (n, rest) => ((n : Int), rest)
  | rest => (readNumber? 4 rest).map fun (n, rest) => ((n : Int), rest)

def readMark? (c : Char) (cs : List Char) : Option (List Char) :=
  match skipBlanks cs with
  | d :: rest => if d = c then some rest else none
  | [] => none

/-- Nanoseconds behind a point: nine digits count, the others are passed over. -/
def readFraction? (cs : List Char) : Option (Nat × List Char) :=
  match cs with
  | '.' :: rest =>
    let ds := rest.takeWhile isDigit
    if ds = [] then none
    else
      let counted := ds.take 9
      some (value counted * Nat.pow 10 (9 - counted.length), rest.drop ds.length)
  | _ => some (0, cs)

def isUniversal (cs : List Char) : Bool :=
  (cs.take 3).map Char.toUpper == ['U', 'T', 'C']

def readOffsetTime? (cs : List Char) : Option (Nat × List Char) :=
  match cs with
  | a :: b :: rest =>
    match (rest.dropWhile fun c => c == ':' || Text.isBlank c) with
    | c :: d :: rest =>
      if [a, b, c, d].all isDigit ∧ c < '6' then
        some (value [a, b] * 3600 + value [c, d] * 60, rest)
      else none
    | _ => none
  | _ => none

def readOffset? (cs : List Char) : Option (Int × List Char) :=
  if isUniversal cs then some (0, cs.drop 3)
  else match cs with
    | 'Z' :: rest | 'z' :: rest => some (0, rest)
    | '+' :: rest => (readOffsetTime? rest).map fun (n, rest) => ((n : Int), rest)
    | '-' :: rest | '\u2212' :: rest =>
      (readOffsetTime? rest).map fun (n, rest) => (-(n : Int), rest)
    | _ => none

/-- The instant in a text. Second 60 is a leap second. -/
def read? (cs : List Char) : Option Instant := do
  let (year, cs) ← readYear? cs
  let (month, cs) ← readNumber? 2 (← readMark? '-' cs)
  let (day, cs) ← readNumber? 2 (← readMark? '-' cs)
  let cs ← match cs with
    | 'T' :: rest | 't' :: rest | ' ' :: rest => some rest
    | _ => none
  let (hour, cs) ← readNumber? 2 cs
  let (minute, cs) ← readNumber? 2 (← readMark? ':' cs)
  let (second, cs) ← readNumber? 2 (← readMark? ':' cs)
  let (nano, cs) ← readFraction? cs
  let (offset, cs) ← readOffset? (skipBlanks cs)
  let date : Date := ⟨year, month, day⟩
  let leap := second == 60
  let clock := hour * 3600 + minute * 60 + (if leap then 59 else second)
  let result := ofLocal date clock (nano + (if leap then 1000000000 else 0)) offset
  if skipBlanks cs = [] ∧ date.isValid ∧ hour < 24 ∧ minute < 60 ∧ second ≤ 60 ∧
      offset.natAbs < 86400 ∧ result.hasYear then
    some result
  else none

end FlowTally.Instant
