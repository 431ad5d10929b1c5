import FlowTally.Yaml.Plain
import FlowTally.Yaml.Text

/-!
# Printing of YAML scalars

A text is written plain where a reader takes it for the same text, else in
single quotes, and in double quotes if it holds characters that need escapes.
A text with line feeds is a literal block where that keeps every character.
-/

namespace FlowTally.Yaml

def isPrintable (c : Char) : Bool :=
  let n := c.toNat
  n == 0x0A || (0x20 ≤ n && n ≤ 0x7E) || (0xA0 ≤ n && n < 0xFFFE && n != 0xFEFF)

def adjacent (p : Char → Char → Bool) (cs : List Char) : Bool :=
  (cs.zip (cs.drop 1)).any fun (a, b) => p a b

def startsQuoted (c : Char) : Bool :=
  c == '#' || c == ',' || c == '[' || c == ']' || c == '\x7b' || c == '\x7d' || c == '&' ||
    c == '*' || c == '!' || c == '|' || c == '>' || c == '\'' || c == '"' || c == '%' ||
    c == '@' || c == '\x60'

def startsTriple : List Char → Bool
  | a :: b :: c :: _ => (a == '-' && b == '-' && c == '-') || (a == '.' && b == '.' && c == '.')
  | _ => false

def startsIndicator : List Char → Bool
  | c :: rest => startsQuoted c || ((c == '?' || c == ':' || c == '-') && endsWord rest)
  | [] => false

/-- A colon before a blank, or a comment sign behind one, after the first character. -/
def holdsIndicator (cs : List Char) : Bool :=
  adjacent (fun a b => b == '#' && (isBlank a || isBreak a)) cs ||
    adjacent (fun a b => a == ':' && (isBlank b || isBreak b)) (cs.drop 1) ||
    (cs.length != 1 && cs.getLast? == some ':')

def holdsSpaceBreak (cs : List Char) : Bool := adjacent (fun a b => a == ' ' && isBreak b) cs

def holdsBreakSpace (cs : List Char) : Bool := adjacent (fun a b => isBreak a && b == ' ') cs

/-- A plain scalar of a block reads back as the text. -/
def plainAllowed (cs : List Char) : Bool :=
  !startsTriple cs && !startsIndicator cs && !holdsIndicator cs && cs.all isPrintable &&
    !cs.any isBreak && cs.head? != some ' ' && cs.getLast? != some ' '

def singleQuotedAllowed (cs : List Char) : Bool :=
  cs.all isPrintable && !holdsSpaceBreak cs && !holdsBreakSpace cs

def literalAllowed (cs : List Char) : Bool :=
  cs.all isPrintable && !holdsSpaceBreak cs && cs.getLast? != some ' '

/-! ### Styles -/

def margin4 : List Char := [' ', ' ', ' ', ' ']

/-- Characters inside single quotes; a line break is followed by indentation. -/
def singleQuotedBody (broken : Bool) : List Char → List Char
  | [] => if broken then margin4 else []
  | c :: cs =>
    if isBreak c then c :: singleQuotedBody true cs
    else
      (if broken && c != ' ' then margin4 else []) ++
        (if c = '\'' then ['\'', '\''] else [c]) ++ singleQuotedBody false cs

def singleQuotedText (cs : List Char) : List Char := '\'' :: singleQuotedBody false cs ++ ['\'']

def hexUpper (width n : Nat) : List Char :=
  let ds := (Nat.toDigits 16 n).map Char.toUpper
  List.replicate (width - ds.length) '0' ++ ds

def escapeLetter? (c : Char) : Option Char :=
  match c with
  | '\x00' => some '0'
  | '\x07' => some 'a'
  | '\x08' => some 'b'
  | '\t' => some 't'
  | '\n' => some 'n'
  | '\x0b' => some 'v'
  | '\x0c' => some 'f'
  | '\r' => some 'r'
  | '\x1b' => some 'e'
  | '"' => some '"'
  | '\\' => some '\\'
  | '\u0085' => some 'N'
  | '\u2028' => some 'L'
  | '\u2029' => some 'P'
  | _ => none

def doubleQuotedChar (c : Char) : List Char :=
  match escapeLetter? c with
  | some letter => ['\\', letter]
  | none =>
    let n := c.toNat
    if isPrintable c then [c]
    else if n ≤ 0xFF then '\\' :: 'x' :: hexUpper 2 n
    else if n ≤ 0xFFFF then '\\' :: 'u' :: hexUpper 4 n
    else '\\' :: 'U' :: hexUpper 8 n

def doubleQuotedText (cs : List Char) : List Char :=
  '"' :: cs.flatMap doubleQuotedChar ++ ['"']

def literalBody (broken : Bool) : List Char → List Char
  | [] => []
  | c :: cs =>
    if isBreak c then c :: literalBody true cs
    else (if broken then margin4 else []) ++ c :: literalBody false cs

/-- What the header of a literal block says about its indentation and its end. -/
def literalHints (cs : List Char) : List Char :=
  let indentation := if cs.head?.any fun c => c == ' ' || isBreak c then ['2'] else []
  let ending := match cs.reverse with
    | [] => ['-']
    | last :: before =>
      if !isBreak last then ['-']
      else if before.head?.all isBreak then ['+']
      else []
  indentation ++ ending

/-- Text of a literal block without its last line feed. -/
def literalText (cs : List Char) : List Char :=
  let body := '|' :: literalHints cs ++ '\n' :: literalBody true cs
  if body.getLast? = some '\n' then body.dropLast else body

def scalarText (cs : List Char) : List Char :=
  if cs.contains '\n' then
    if literalAllowed cs then literalText cs else doubleQuotedText cs
  else if !isAmbiguous cs && plainAllowed cs then cs
  else if singleQuotedAllowed cs then singleQuotedText cs
  else doubleQuotedText cs

end FlowTally.Yaml
