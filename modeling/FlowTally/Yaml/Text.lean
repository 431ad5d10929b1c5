/-!
# YAML text

Characters that a document may hold, its line breaks, and places in it. A line
ends at a line feed, a carriage return, both together, or a next-line
character, all of which stand for a line feed, or at a line or paragraph
separator. `Text.normal` writes the first kind as line feeds, so that every
break is one character.
-/

namespace FlowTally.Yaml

inductive Fault where
  | character (c : Char)
  | unfinishedKey
  | misplaced
  | tab
  | noToken (c : Char)
  | unclosedQuote
  | documentMark
  | escape
  | header
  | colon
  | noNode
  | noEnd
  | secondDocument
  | kind (expected : String)
  | unknownField (name : String)
  | duplicateField (name : String)
deriving DecidableEq, Repr, Inhabited

def Fault.message : Fault → String
  | .character c => s!"character {c.toNat} is not allowed"
  | .unfinishedKey => "a key has no colon"
  | .misplaced => "a block cannot start here"
  | .tab => "a tab cannot be indentation"
  | .noToken c => s!"'{c}' cannot start a value"
  | .unclosedQuote => "a quoted text has no end"
  | .documentMark => "a document mark inside a quoted text"
  | .escape => "unknown escape"
  | .header => "wrong header of a block text"
  | .colon => "unexpected colon"
  | .noNode => "a value is expected"
  | .noEnd => "the end of a collection is expected"
  | .secondDocument => "more than one document"
  | .kind expected => s!"expected {expected}"
  | .unknownField name => s!"unknown field {name}"
  | .duplicateField name => s!"duplicate field {name}"

structure Mark where
  line : Nat := 0
  column : Nat := 0
deriving DecidableEq, Repr, Inhabited

def isBreak (c : Char) : Bool := c == '\n' || c == '\u2028' || c == '\u2029'

def isBlank (c : Char) : Bool := c == ' ' || c == '\t'

def Mark.after (m : Mark) (c : Char) : Mark :=
  if isBreak c then ⟨m.line + 1, 0⟩ else ⟨m.line, m.column + 1⟩

def Mark.skip (m : Mark) (n : Nat) : Mark := ⟨m.line, m.column + n⟩

/-- A word ends before the rest: at a blank, a break or the end of the text. -/
def endsWord : List Char → Bool
  | [] => true
  | c :: _ => isBlank c || isBreak c

def startsMark (c : Char) : List Char → Bool
  | a :: b :: d :: rest => a == c && b == c && d == c && endsWord rest
  | _ => false

def atDocumentMark (m : Mark) (cs : List Char) : Bool :=
  m.column == 0 && (startsMark '-' cs || startsMark '.' cs)

def isAllowed (c : Char) : Bool :=
  let n := c.toNat
  n == 0x09 || n == 0x0A || n == 0x0D || (0x20 ≤ n && n ≤ 0x7E) || n == 0x85 ||
    (0xA0 ≤ n && n ≤ 0xFFFD) || 0x10000 ≤ n

/-- The text with one character for each line break. -/
def normal : List Char → List Char
  | [] => []
  | '\r' :: '\n' :: cs => '\n' :: normal cs
  | c :: cs => (if c = '\r' ∨ c = '\u0085' then '\n' else c) :: normal cs

def forbidden? (cs : List Char) : Option Char := cs.find? fun c => !isAllowed c

end FlowTally.Yaml
