import FlowTally.Json.Number
import FlowTally.Text.Content

/-!
# Reading JSON text

Text is first read into a `Tree`, which keeps everything as written: literals
by their digits, fields in order with repetitions, strings piece by piece. A
part that nobody asks for only has to be well formed in this sense. `value?`
gives the meaning of a part that is asked for, where strings have to be real
text, numbers in range, and arrays and objects nested at most `maxDepth` deep.
-/

namespace FlowTally.Json

inductive Piece where
  | char (c : Char)
  | unit (n : Nat)
  /-- A byte outside every character. -/
  | stray
deriving DecidableEq, Repr

inductive Tree where
  | null
  | bool (value : Bool)
  | num (literal : Literal)
  | str (pieces : List Piece)
  | arr (items : List Tree)
  | obj (fields : List (List Piece × Tree))
deriving Repr, Inhabited

def isSpace (c : Char) : Bool := c = ' ' || c = '\t' || c = '\n' || c = '\r'

def skipSpace : Content → Content
  | some c :: rest => if isSpace c then skipSpace rest else some c :: rest
  | rest => rest

def escape? (c : Char) : Option Char :=
  if c = '"' ∨ c = '\\' ∨ c = '/' then some c
  else if c = 'b' then some '\x08'
  else if c = 'f' then some '\x0c'
  else if c = 'n' then some '\n'
  else if c = 'r' then some '\r'
  else if c = 't' then some '\t'
  else none

def hex4? (a b c d : Char) : Option Nat := do
  let a ← Text.Natural.digit? 16 a
  let b ← Text.Natural.digit? 16 b
  let c ← Text.Natural.digit? 16 c
  let d ← Text.Natural.digit? 16 d
  return ((a * 16 + b) * 16 + c) * 16 + d

def readPieces : Content → Option (List Piece × Content)
  | [] => none
  | some '"' :: rest => some ([], rest)
  | some '\\' :: some 'u' :: some a :: some b :: some c :: some d :: rest =>
    match hex4? a b c d, readPieces rest with
    | some n, some (pieces, after) => some (.unit n :: pieces, after)
    | _, _ => none
  | some '\\' :: some c :: rest =>
    match escape? c, readPieces rest with
    | some e, some (pieces, after) => some (.char e :: pieces, after)
    | _, _ => none
  | some c :: rest =>
    if c.toNat < 0x20 ∨ c = '\\' then none
    else match readPieces rest with
      | some (pieces, after) => some (.char c :: pieces, after)
      | none => none
  | none :: rest =>
    match readPieces rest with
    | some (pieces, after) => some (.stray :: pieces, after)
    | none => none

def readDigits : Content → List Nat × Content
  | some c :: rest =>
    match Text.Natural.digit? 10 c with
    | some d => let (ds, after) := readDigits rest; (d :: ds, after)
    | none => ([], some c :: rest)
  | rest => ([], rest)

def readExponent (cs : Content) : Option ((Bool × List Nat) × Content) :=
  let (down, cs) :=
    match cs with
    | some '+' :: rest => (false, rest)
    | some '-' :: rest => (true, rest)
    | rest => (false, rest)
  match readDigits cs with
  | ([], _) => none
  | (ds, rest) => some ((down, ds), rest)

/-- A literal without its sign: no zero before another digit, and a digit on either side of the
point. -/
def readLiteral (negative : Bool) (cs : Content) : Option (Literal × Content) := do
  let (whole, cs) ← match readDigits cs with
    | ([], _) => none
    | (0 :: _ :: _, _) => none
    | (ds, rest) => some (ds, rest)
  let (fraction, cs) ← match cs with
    | some '.' :: rest =>
      match readDigits rest with
      | ([], _) => none
      | (ds, rest) => some (some ds, rest)
    | rest => some (none, rest)
  let (exponent, cs) ← match cs with
    | some 'e' :: rest | some 'E' :: rest => (readExponent rest).map fun (e, rest) => (some e, rest)
    | rest => some (none, rest)
  return (⟨negative, whole, fraction, exponent⟩, cs)

mutual
def readTree : Nat → Content → Option (Tree × Content)
  | 0, _ => none
  | fuel + 1, cs =>
    match skipSpace cs with
    | some 'n' :: some 'u' :: some 'l' :: some 'l' :: rest => some (.null, rest)
    | some 't' :: some 'r' :: some 'u' :: some 'e' :: rest => some (.bool true, rest)
    | some 'f' :: some 'a' :: some 'l' :: some 's' :: some 'e' :: rest => some (.bool false, rest)
    | some '"' :: rest => (readPieces rest).map fun (pieces, rest) => (.str pieces, rest)
    | some '-' :: rest => (readLiteral true rest).map fun (l, rest) => (.num l, rest)
    | some '[' :: rest =>
      match skipSpace rest with
      | some ']' :: rest => some (.arr [], rest)
      | rest => (readItems fuel rest).map fun (items, rest) => (.arr items, rest)
    | some '{' :: rest =>
      match skipSpace rest with
      | some '}' :: rest => some (.obj [], rest)
      | rest => (readFields fuel rest).map fun (fields, rest) => (.obj fields, rest)
    | rest => (readLiteral false rest).map fun (l, rest) => (.num l, rest)
def readItems : Nat → Content → Option (List Tree × Content)
  | 0, _ => none
  | fuel + 1, cs =>
    match readTree fuel cs with
    | none => none
    | some (item, rest) =>
      match skipSpace rest with
      | some ']' :: rest => some ([item], rest)
      | some ',' :: rest => (readItems fuel rest).map fun (items, rest) => (item :: items, rest)
      | _ => none
def readFields : Nat → Content → Option (List (List Piece × Tree) × Content)
  | 0, _ => none
  | fuel + 1, cs =>
    match skipSpace cs with
    | some '"' :: rest =>
      match readPieces rest with
      | none => none
      | some (name, rest) =>
        match skipSpace rest with
        | some ':' :: rest =>
          match readTree fuel rest with
          | none => none
          | some (value, rest) =>
            match skipSpace rest with
            | some '}' :: rest => some ([(name, value)], rest)
            | some ',' :: rest =>
              (readFields fuel rest).map fun (fields, rest) => ((name, value) :: fields, rest)
            | _ => none
        | _ => none
    | _ => none
end

def tree? (content : Content) : Option Tree :=
  match readTree (2 * content.length + 2) content with
  | some (tree, rest) => if (skipSpace rest).isEmpty then some tree else none
  | none => none

/-- Characters of a string. A number in the high surrogate range needs one in the low range
directly after it, and the pair is one character; a stray byte is no text. -/
def joinPieces : List Piece → Option (List Char)
  | [] => some []
  | .char c :: rest => (joinPieces rest).map (c :: ·)
  | .unit high :: .unit low :: rest =>
    if 0xD800 ≤ high ∧ high < 0xDC00 then
      if 0xDC00 ≤ low ∧ low < 0xE000 then
        (joinPieces rest).map
          (Char.ofNat (0x10000 + (high - 0xD800) * 0x400 + (low - 0xDC00)) :: ·)
      else none
    else if 0xDC00 ≤ high ∧ high < 0xE000 then none
    else (joinPieces (.unit low :: rest)).map (Char.ofNat high :: ·)
  | .unit n :: rest =>
    if 0xD800 ≤ n ∧ n < 0xE000 then none else (joinPieces rest).map (Char.ofNat n :: ·)
  | .stray :: _ => none

def text?OfPieces (pieces : List Piece) : Option String := (joinPieces pieces).map String.ofList

/-- Deepest nesting of arrays and objects in a value that is asked for. -/
def maxDepth : Nat := 127

mutual
def Tree.value? (depth : Nat) : Tree → Option Json
  | .null => some .null
  | .bool b => some (.bool b)
  | .num l => l.value?
  | .str pieces => (text?OfPieces pieces).map .str
  | .arr items =>
    if depth = 0 then none else (Tree.values? (depth - 1) items).map .arr
  | .obj fields =>
    if depth = 0 then none
    else (Tree.fieldValues? (depth - 1) fields).map fun fields => .obj (sortFields fields)
def Tree.values? (depth : Nat) : List Tree → Option (List Json)
  | [] => some []
  | item :: rest =>
    match item.value? depth, Tree.values? depth rest with
    | some value, some values => some (value :: values)
    | _, _ => none
def Tree.fieldValues? (depth : Nat) : List (List Piece × Tree) → Option (List (String × Json))
  | [] => some []
  | (name, value) :: rest =>
    match text?OfPieces name, value.value? depth, Tree.fieldValues? depth rest with
    | some name, some value, some fields => some ((name, value) :: fields)
    | _, _, _ => none
end

end FlowTally.Json
