import FlowTally.Binary64.Decimal
import FlowTally.Json.Value
import FlowTally.Text.Natural

/-!
# JSON text of values

`print` writes no blanks. In strings only the quote, the backslash and control
characters are escaped, control characters by their short form where one
exists. `printIndented` writes one field or item a line, two spaces deeper at
each level.
-/

namespace FlowTally.Json

def hexDigit (n : Nat) : Char := if n < 10 then Char.ofNat (48 + n) else Char.ofNat (87 + n)

def printChar (c : Char) : List Char :=
  if c = '"' then ['\\', '"']
  else if c = '\\' then ['\\', '\\']
  else if c = '\x08' then ['\\', 'b']
  else if c = '\t' then ['\\', 't']
  else if c = '\n' then ['\\', 'n']
  else if c = '\x0c' then ['\\', 'f']
  else if c = '\r' then ['\\', 'r']
  else if c.toNat < 0x20 then
    ['\\', 'u', '0', '0', hexDigit (c.toNat / 16), hexDigit (c.toNat % 16)]
  else [c]

def printString (s : String) : List Char := '"' :: s.toList.flatMap printChar ++ ['"']

mutual
def print : Json → List Char
  | .null => ['n', 'u', 'l', 'l']
  | .bool true => ['t', 'r', 'u', 'e']
  | .bool false => ['f', 'a', 'l', 's', 'e']
  | .int n => Binary64.intText n
  | .real x => x.text
  | .str s => printString s
  | .arr items => '[' :: printItems items ++ [']']
  | .obj fields => '{' :: printFields fields ++ ['}']
def printItems : List Json → List Char
  | [] => []
  | [item] => print item
  | item :: next :: rest => print item ++ ',' :: printItems (next :: rest)
def printFields : List (String × Json) → List Char
  | [] => []
  | [(name, value)] => printString name ++ ':' :: print value
  | (name, value) :: next :: rest =>
    printString name ++ ':' :: print value ++ ',' :: printFields (next :: rest)
end

def compact (value : Json) : String := String.ofList value.print

def indent (depth : Nat) : List Char := '\n' :: List.replicate (2 * depth) ' '

mutual
/-- Indented text of a value whose line is `depth` levels deep. -/
def printIndented (depth : Nat) : Json → List Char
  | .arr [] => ['[', ']']
  | .arr (item :: rest) =>
    '[' :: indent (depth + 1) ++ printIndented (depth + 1) item ++
      printIndentedItems (depth + 1) rest ++ indent depth ++ [']']
  | .obj [] => ['{', '}']
  | .obj ((name, value) :: rest) =>
    '{' :: indent (depth + 1) ++ printString name ++ ':' :: ' ' :: printIndented (depth + 1) value ++
      printIndentedFields (depth + 1) rest ++ indent depth ++ ['}']
  | .null => print .null
  | .bool b => print (.bool b)
  | .int n => print (.int n)
  | .real x => print (.real x)
  | .str s => print (.str s)
def printIndentedItems (depth : Nat) : List Json → List Char
  | [] => []
  | item :: rest =>
    ',' :: indent depth ++ printIndented depth item ++ printIndentedItems depth rest
def printIndentedFields (depth : Nat) : List (String × Json) → List Char
  | [] => []
  | (name, value) :: rest =>
    ',' :: indent depth ++ printString name ++ ':' :: ' ' :: printIndented depth value ++
      printIndentedFields depth rest
end

end FlowTally.Json
