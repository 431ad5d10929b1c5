import FlowTally.Text.Natural
import FlowTally.Yaml.Text

/-!
# Scalars in YAML text

Plain scalars end at an indicator, a comment or a line that is not indented
enough. Quoted scalars end at their quote; two single quotes inside single
quotes stand for one, and double quotes know escapes. In both, blanks around
line breaks are dropped, one line feed becomes a space, and of several the
first is dropped. Block scalars keep their lines, or fold them, from a common
indentation on.
-/

namespace FlowTally.Yaml

structure Scanned where
  text : List Char
  mark : Mark
  rest : List Char
  /-- A line break was passed after the last character of the text. -/
  broken : Bool := false
deriving Repr, Inhabited

namespace Scanned

def prepend (cs : List Char) (s : Scanned) : Scanned := { s with text := cs ++ s.text }

end Scanned

inductive Gap where
  | blanks (cs : List Char)
  /-- A line break, or none if it was escaped, and the breaks after it. -/
  | folded (first more : List Char)
deriving DecidableEq, Repr, Inhabited

namespace Gap

def none : Gap := .blanks []

def isNone : Gap → Bool
  | .blanks [] => true
  | _ => false

def broken : Gap → Bool
  | .blanks _ => false
  | .folded .. => true

def add (c : Char) : Gap → Gap
  | .blanks cs => if isBreak c then .folded [c] [] else .blanks (cs ++ [c])
  | .folded first more => .folded first (if isBreak c then more ++ [c] else more)

def text : Gap → List Char
  | .blanks cs => cs
  | .folded ['\n'] [] => [' ']
  | .folded ['\n'] more => more
  | .folded first more => first ++ more

end Gap

/-! ### Plain scalars -/

def isFlowIndicator (c : Char) : Bool :=
  c == ',' || c == '[' || c == ']' || c == '\x7b' || c == '\x7d'

/-- A colon before this rest is refused in a flow collection. -/
def isDoubtfulColon : List Char → Bool
  | c :: _ => isFlowIndicator c || c == '?'
  | [] => false

/-- The rest of a plain scalar after a gap. Outside of flow collections it ends before a line that
does not reach the column `floor`. -/
def plain (flow : Bool) (floor : Nat) (gap : Gap) (m : Mark) :
    List Char → Except Fault Scanned
  | [] => .ok ⟨[], m, [], gap.broken⟩
  | c :: cs =>
    if isBlank c || isBreak c then
      if c == '\t' && gap.broken && m.column < floor then .error .tab
      else plain flow floor (gap.add c) (m.after c) cs
    else if !gap.isNone &&
        ((!flow && m.column < floor) || c == '#' || atDocumentMark m (c :: cs)) then
      .ok ⟨[], m, c :: cs, gap.broken⟩
    else if flow && c == ':' && isDoubtfulColon cs then .error .colon
    else if (c == ':' && endsWord cs) || (flow && isFlowIndicator c) then
      .ok ⟨[], m, c :: cs, gap.broken⟩
    else (plain flow floor .none (m.skip 1) cs).map (·.prepend (gap.text ++ [c]))

/-! ### Quoted scalars -/

def singleQuoted (gap : Gap) (m : Mark) : List Char → Except Fault Scanned
  | [] => .error .unclosedQuote
  | '\'' :: '\'' :: cs =>
    (singleQuoted .none (m.skip 2) cs).map (·.prepend (gap.text ++ ['\'']))
  | c :: cs =>
    if isBlank c || isBreak c then singleQuoted (gap.add c) (m.after c) cs
    else if atDocumentMark m (c :: cs) then .error .documentMark
    else if c = '\'' then .ok ⟨gap.text, m.skip 1, cs, false⟩
    else (singleQuoted .none (m.skip 1) cs).map (·.prepend (gap.text ++ [c]))

def shortEscape? (c : Char) : Option Char :=
  match c with
  | '0' => some '\x00'
  | 'a' => some '\x07'
  | 'b' => some '\x08'
  | 't' | '\t' => some '\t'
  | 'n' => some '\n'
  | 'v' => some '\x0b'
  | 'f' => some '\x0c'
  | 'r' => some '\r'
  | 'e' => some '\x1b'
  | ' ' => some ' '
  | '"' => some '"'
  | '/' => some '/'
  | '\\' => some '\\'
  | 'N' => some '\u0085'
  | '_' => some '\u00a0'
  | 'L' => some '\u2028'
  | 'P' => some '\u2029'
  | _ => Option.none

def escapeWidth? (c : Char) : Option Nat :=
  match c with
  | 'x' => some 2
  | 'u' => some 4
  | 'U' => some 8
  | _ => Option.none

def hexValue? (width : Nat) (cs : List Char) : Option Nat :=
  let digits := cs.take width
  if digits.length < width then Option.none
  else digits.foldlM (fun n c => (Text.Natural.digit? 16 c).map (n * 16 + ·)) 0

def codePoint? (n : Nat) : Option Char := if n.isValidChar then some (Char.ofNat n) else Option.none

def doubleQuoted (gap : Gap) (m : Mark) (cs : List Char) : Except Fault Scanned :=
  match cs with
  | [] => .error .unclosedQuote
  | c :: rest =>
    if isBlank c || isBreak c then doubleQuoted (gap.add c) (m.after c) rest
    else if atDocumentMark m cs then .error .documentMark
    else if c = '"' then .ok ⟨gap.text, m.skip 1, rest, false⟩
    else if c = '\\' then
      match rest with
      | [] => .error .escape
      | d :: rest =>
        if isBreak d then
          (doubleQuoted (.folded [] []) ((m.skip 1).after d) rest).map (·.prepend gap.text)
        else match shortEscape? d, escapeWidth? d with
          | some e, _ =>
            (doubleQuoted .none (m.skip 2) rest).map (·.prepend (gap.text ++ [e]))
          | Option.none, some width =>
            match (hexValue? width rest).bind codePoint? with
            | some e =>
              (doubleQuoted .none (m.skip (2 + width)) (rest.drop width)).map
                (·.prepend (gap.text ++ [e]))
            | Option.none => .error .escape
          | Option.none, Option.none => .error .escape
    else (doubleQuoted .none (m.skip 1) rest).map (·.prepend (gap.text ++ [c]))
termination_by cs.length
decreasing_by all_goals simp_all only [List.length_cons, List.length_drop]; omega

/-! ### Block scalars -/

inductive Chomp where
  | strip
  | clip
  | keep
deriving DecidableEq, Repr

def Chomp.ofChar? (c : Char) : Option Chomp :=
  if c = '-' then some .strip else if c = '+' then some .keep else Option.none

def indentation? (c : Char) : Option Nat :=
  if '1' ≤ c ∧ c ≤ '9' then some (c.toNat - 48) else Option.none

def blockHeader (cs : List Char) : Chomp × Option Nat × List Char :=
  match cs with
  | [] => (.clip, Option.none, [])
  | c :: rest =>
    match Chomp.ofChar? c, indentation? c with
    | some chomp, _ =>
      match rest.head?.bind indentation? with
      | some n => (chomp, some n, rest.drop 1)
      | Option.none => (chomp, Option.none, rest)
    | Option.none, some n =>
      match rest.head?.bind Chomp.ofChar? with
      | some chomp => (chomp, some n, rest.drop 1)
      | Option.none => (.clip, some n, rest)
    | Option.none, Option.none => (.clip, Option.none, cs)

structure Margin where
  breaks : List Char
  widest : Nat
  mark : Mark
  rest : List Char

/-- Passes empty lines and indentation, the latter up to a column if it is known. -/
def margin (indent : Option Nat) (widest : Nat) (m : Mark) : List Char → Except Fault Margin
  | [] => .ok ⟨[], max widest m.column, m, []⟩
  | c :: cs =>
    let inside := indent.all fun n => m.column < n
    if inside && c == ' ' then margin indent widest (m.skip 1) cs
    else if inside && c == '\t' then .error .tab
    else if isBreak c then
      (margin indent (max widest m.column) (m.after c) cs).map fun found =>
        { found with breaks := c :: found.breaks }
    else .ok ⟨[], max widest m.column, m, c :: cs⟩

def joint (folded : Bool) (last more : List Char) (indented : Bool) : List Char :=
  if folded && last == ['\n'] && !indented then if more = [] then [' '] else more
  else last ++ more

/-- Lines at the column `indent`, after a line that ended in `last` and empty lines `more`. -/
def blockLines (folded : Bool) (chomp : Chomp) (indent : Nat) (last more : List Char)
    (blankLine : Bool) (m : Mark) (cs : List Char) : Nat → Except Fault Scanned
  | 0 => .error .header
  | fuel + 1 =>
    match cs with
    | c :: _ =>
      if m.column = indent then
        let line := cs.takeWhile fun c => !isBreak c
        let rest := cs.dropWhile fun c => !isBreak c
        let mark := m.skip line.length
        let lead := joint folded last more (blankLine || isBlank c) ++ line
        let (next, mark, rest) := match rest with
          | [] => ([], mark, [])
          | d :: rest => ([d], mark.after d, rest)
        (margin (some indent) 0 mark rest).bind fun found =>
          (blockLines folded chomp indent next found.breaks (isBlank c) found.mark found.rest
            fuel).map (·.prepend lead)
      else .ok (finish m cs)
    | [] => .ok (finish m cs)
where
  finish (m : Mark) (cs : List Char) : Scanned :=
    let ending := match chomp with
      | .strip => []
      | .clip => last
      | .keep => last ++ more
    ⟨ending, m, cs, false⟩

/-- A block scalar behind its indicator; `floor` is the least indentation. -/
def block (folded : Bool) (floor : Nat) (m : Mark) (cs : List Char) : Except Fault Scanned :=
  let (chomp, given, rest) := blockHeader cs
  let rest := rest.dropWhile isBlank
  let rest := match rest with
    | '#' :: _ => rest.dropWhile fun c => !isBreak c
    | _ => rest
  let start : Except Fault (Mark × List Char) := match rest with
    | [] => .ok (m.skip cs.length, [])
    | c :: rest => if isBreak c then .ok (m.after c, rest) else .error .header
  start.bind fun (m, rest) =>
    let known := given.map fun n => (floor - 1) + n
    (margin known 0 m rest).bind fun found =>
      let indent := known.getD (max found.widest (max floor 1))
      blockLines folded chomp indent [] found.breaks false found.mark found.rest
        (found.rest.length + 1)

end FlowTally.Yaml
