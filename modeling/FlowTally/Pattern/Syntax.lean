import FlowTally.Unicode.Folding
import FlowTally.Unicode.Property
import FlowTally.Unicode.Script

/-!
# Regular expressions

A regular expression over characters with the usual operators and with
conditions on the place between two characters. `CharSet.contains` says which
characters belong to a class and `Look.holds` where a condition holds.
-/

namespace FlowTally.Pattern

inductive NamedSet where
  | any
  | assigned
  | digit
  | space
  | word
  | alphabetic
  | lowercase
  | uppercase
  | categories (codes : List String)
  | script (code : String)
deriving DecidableEq, Repr, Inhabited

def NamedSet.contains (s : NamedSet) (c : Char) : Bool :=
  match s with
  | .any => true
  | .assigned => Unicode.category c != "Cn"
  | .digit => Unicode.isDecimalDigit c
  | .space => Text.isBlank c
  | .word => Unicode.isWord c
  | .alphabetic => Unicode.isAlphabetic c
  | .lowercase => Unicode.isLowercase c
  | .uppercase => Unicode.isUppercase c
  | .categories codes => codes.contains (Unicode.category c)
  | .script code => Unicode.script c == code

inductive CharSet where
  | none
  | range (first last : Nat)
  | named (set : NamedSet)
  | negation (set : CharSet)
  | union (left right : CharSet)
  | intersection (left right : CharSet)
  | difference (left right : CharSet)
  | symmetric (left right : CharSet)
  | folded (set : CharSet)
  | foldedAscii (set : CharSet)
deriving DecidableEq, Repr, Inhabited

namespace CharSet

def one (c : Char) : CharSet := .range c.toNat c.toNat

def otherCase (c : Char) : Char := if c.isUpper then c.toLower else c.toUpper

def contains : CharSet → Char → Bool
  | .none, _ => false
  | .range first last, c => first ≤ c.toNat && c.toNat ≤ last
  | .named set, c => set.contains c
  | .negation set, c => !set.contains c
  | .union left right, c => left.contains c || right.contains c
  | .intersection left right, c => left.contains c && right.contains c
  | .difference left right, c => left.contains c && !right.contains c
  | .symmetric left right, c => left.contains c != right.contains c
  | .folded set, c =>
    set.contains c || (Unicode.variants c.toNat).any fun n => set.contains (Char.ofNat n)
  | .foldedAscii set, c => set.contains c || set.contains (otherCase c)

end CharSet

inductive Look where
  | textStart
  | textEnd
  | lineStart
  | lineEnd
  /-- Line ends may also be a carriage return, alone or before a line feed. -/
  | lineStartAny
  | lineEndAny
  | wordBoundary (ascii : Bool)
  | noWordBoundary (ascii : Bool)
  | wordStart (ascii : Bool)
  | wordEnd (ascii : Bool)
  | wordStartHalf (ascii : Bool)
  | wordEndHalf (ascii : Bool)
deriving DecidableEq, Repr, Inhabited

def isWordAscii (c : Char) : Bool := c.isAlphanum || c == '_'

def isWord (ascii : Bool) : Option Char → Bool
  | some c => if ascii then isWordAscii c else Unicode.isWord c
  | none => false

/-- Whether a condition holds between two characters, `none` at an end of the text. -/
def Look.holds (before after : Option Char) : Look → Bool
  | .textStart => before.isNone
  | .textEnd => after.isNone
  | .lineStart => before.isNone || before == some '\n'
  | .lineEnd => after.isNone || after == some '\n'
  | .lineStartAny =>
    before.isNone || before == some '\n' || (before == some '\r' && after != some '\n')
  | .lineEndAny =>
    after.isNone || after == some '\r' || (after == some '\n' && before != some '\r')
  | .wordBoundary ascii => isWord ascii before != isWord ascii after
  | .noWordBoundary ascii => isWord ascii before == isWord ascii after
  | .wordStart ascii => !isWord ascii before && isWord ascii after
  | .wordEnd ascii => isWord ascii before && !isWord ascii after
  | .wordStartHalf ascii => !isWord ascii before
  | .wordEndHalf ascii => !isWord ascii after

inductive Regex where
  | empty
  | set (chars : CharSet)
  | look (condition : Look)
  | append (first second : Regex)
  | either (left right : Regex)
  | times (body : Regex) (least : Nat) (most : Option Nat)
deriving DecidableEq, Repr, Inhabited

/-- The text `chars[start..stop]` is in the language of an expression, seen in its surroundings. -/
inductive Regex.Spans (chars : List Char) : Regex → Nat → Nat → Prop
  | empty : Spans chars .empty i i
  | set {s : CharSet} (h : chars[i]? = some c) : s.contains c = true → Spans chars (.set s) i (i + 1)
  | look {l : Look} (h : i ≤ chars.length) :
    l.holds (if i = 0 then none else chars[i - 1]?) chars[i]? = true → Spans chars (.look l) i i
  | append : Spans chars a i j → Spans chars b j k → Spans chars (.append a b) i k
  | left : Spans chars a i j → Spans chars (.either a b) i j
  | right : Spans chars b i j → Spans chars (.either a b) i j
  | stop : Spans chars (.times a 0 most) i i
  | more : Spans chars a i j → Spans chars (.times a least most) j k →
    Spans chars (.times a (least + 1) (most.map (· + 1))) i k
  | again : Spans chars a i j → Spans chars (.times a 0 most) j k →
    Spans chars (.times a 0 (most.map (· + 1))) i k

end FlowTally.Pattern
