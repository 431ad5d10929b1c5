import FlowTally.Unicode.Property

/-!
# Quoted text in messages

Text between quotes with everything that cannot be seen written as an escape:
short escapes for the usual control characters, and the hexadecimal code point
for other characters without a glyph of their own or that join the one before.
-/

namespace FlowTally.Text

def hexLower (n : Nat) : List Char := Nat.toDigits 16 n

def quoteChar (c : Char) : List Char :=
  if c = '\x00' then ['\\', '0']
  else if c = '\t' then ['\\', 't']
  else if c = '\r' then ['\\', 'r']
  else if c = '\n' then ['\\', 'n']
  else if c = '\\' then ['\\', '\\']
  else if c = '"' then ['\\', '"']
  else if Unicode.extendsGrapheme c || !Unicode.isPrintable c then
    ['\\', 'u', '\x7b'] ++ hexLower c.toNat ++ ['\x7d']
  else [c]

def quote (s : String) : String := String.ofList ('"' :: s.toList.flatMap quoteChar ++ ['"'])

end FlowTally.Text
