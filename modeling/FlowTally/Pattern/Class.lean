import FlowTally.Pattern.Syntax
import FlowTally.Text.Natural

/-!
# Reading character classes and escapes

The text between brackets, and the escapes that stand for a character, a set of
characters or a condition. The flags in force decide the meaning: letters in
either case, Unicode or ASCII sets, and whether blanks and comments are passed
over. A set that could hold part of a character has no meaning.
-/

namespace FlowTally.Pattern

structure Flags where
  ignoreCase : Bool := false
  multiLine : Bool := false
  dotAll : Bool := false
  verbose : Bool := false
  anyLineEnd : Bool := false
  unicode : Bool := true
deriving DecidableEq, Repr, Inhabited

def skipVerbose (inComment : Bool) : List Char → List Char
  | [] => []
  | c :: cs =>
    if inComment then skipVerbose (c != '\n') cs
    else if Text.isBlank c then skipVerbose false cs
    else if c = '#' then skipVerbose true cs
    else c :: cs

def Flags.skip (flags : Flags) (cs : List Char) : List Char :=
  if flags.verbose then skipVerbose false cs else cs

inductive Escape where
  | char (c : Char)
  /-- A number that stands for a byte outside ASCII. -/
  | byte (n : Nat)
  | set (chars : CharSet)
  | look (condition : Look)
deriving DecidableEq, Repr, Inhabited

/-! ### Characters by number -/

def charOfNumber? (n : Nat) : Option Char :=
  if n < 0xD800 ∨ (0xE000 ≤ n ∧ n < 0x110000) then some (Char.ofNat n) else none

def readHexDigits (flags : Flags) (n : Nat) : Nat → List Char → Option (Nat × List Char)
  | 0, cs => some (n, cs)
  | count + 1, cs =>
    match flags.skip cs with
    | c :: rest =>
      match Text.Natural.digit? 16 c with
      | some d => readHexDigits flags (n * 16 + d) count rest
      | none => none
    | [] => none

def readHexBraced (flags : Flags) (n : Nat) (any : Bool) : Nat → List Char → Option (Nat × List Char)
  | 0, _ => none
  | fuel + 1, cs =>
    match flags.skip cs with
    | [] => none
    | c :: rest =>
      if c = '\x7d' then if any then some (n, rest) else none
      else match Text.Natural.digit? 16 c with
        | some d => if n < 0x110000 then readHexBraced flags (n * 16 + d) true fuel rest else none
        | none => none

def readHex (flags : Flags) (digits : Nat) (cs : List Char) : Option (Escape × List Char) :=
  match flags.skip cs with
  | '\x7b' :: rest => do
    let (n, rest) ← readHexBraced flags 0 false (rest.length + 1) rest
    return (.char (← charOfNumber? n), rest)
  | cs => do
    let (n, rest) ← readHexDigits flags 0 digits cs
    if digits = 2 ∧ 0x80 ≤ n ∧ !flags.unicode then return (.byte n, rest)
    else return (.char (← charOfNumber? n), rest)

/-! ### Sets by name -/

/-- Lower-case letters and digits of a property name, a leading `is` dropped. -/
def looseName (name : List Char) : String :=
  let plain := (name.filter fun c => c != '_' && c != '-' && !Text.isBlank c && c.toNat < 128).map
    Char.toLower
  match plain with
  | 'i' :: 's' :: rest =>
    if rest = [] ∨ rest = ['c'] then String.ofList plain else String.ofList rest
  | _ => String.ofList plain

def binaryOf? (name : String) : Option NamedSet :=
  if name = "any" then some .any
  else if name = "assigned" then some .assigned
  else if name = "alphabetic" ∨ name = "alpha" then some .alphabetic
  else if name = "lowercase" ∨ name = "lower" then some .lowercase
  else if name = "uppercase" ∨ name = "upper" then some .uppercase
  else if name = "whitespace" ∨ name = "wspace" ∨ name = "space" then some .space
  else none

def propertyOf? (name : String) : Option CharSet :=
  if name = "ascii" then some (.range 0 127)
  else match binaryOf? name, Unicode.categoriesOf? name, Unicode.scriptOf? name with
    | some set, _, _ => some (.named set)
    | none, some codes, _ => some (.named (.categories codes))
    | none, none, some code => some (.named (.script code))
    | none, none, none => none

def propertyValueOf? (name value : String) : Option CharSet :=
  if name = "gc" ∨ name = "generalcategory" then
    if value = "any" then some (.named .any)
    else if value = "assigned" then some (.named .assigned)
    else if value = "ascii" then some (.range 0 127)
    else (Unicode.categoriesOf? value).map fun codes => .named (.categories codes)
  else if name = "sc" ∨ name = "script" ∨ name = "scx" ∨ name = "scriptextensions" then
    (Unicode.scriptOf? value).map fun code => .named (.script code)
  else none

def splitAtMark? (mark : List Char) : List Char → Option (List Char × List Char)
  | [] => none
  | c :: cs =>
    if mark.isPrefixOf (c :: cs) then some ([], (c :: cs).drop mark.length)
    else (splitAtMark? mark cs).map fun (before, after) => (c :: before, after)

def bracedProperty? (text : List Char) : Option CharSet :=
  match splitAtMark? ['!', '='] text with
  | some (name, value) => (propertyValueOf? (looseName name) (looseName value)).map .negation
  | none =>
    match splitAtMark? [':'] text with
    | some (name, value) => propertyValueOf? (looseName name) (looseName value)
    | none =>
      match splitAtMark? ['='] text with
      | some (name, value) => propertyValueOf? (looseName name) (looseName value)
      | none => propertyOf? (looseName text)

def readBraced (flags : Flags) : Nat → List Char → Option (List Char × List Char)
  | 0, _ => none
  | fuel + 1, cs =>
    match flags.skip cs with
    | [] => none
    | c :: rest =>
      if c = '\x7d' then some ([], rest)
      else (readBraced flags fuel rest).map fun (text, rest) => (c :: text, rest)

def Flags.foldSet (flags : Flags) (set : CharSet) : CharSet :=
  if flags.ignoreCase then if flags.unicode then .folded set else .foldedAscii set else set

/-- A set after folding and negation; without Unicode it has to be one of ASCII characters. -/
def Flags.close (flags : Flags) (negated : Bool) (set : CharSet) : Option CharSet :=
  let folded := flags.foldSet set
  let result := if negated then .negation folded else folded
  if !flags.unicode && (List.range 128).any fun n => result.contains (Char.ofNat (128 + n)) then none
  else some result

def readProperty (flags : Flags) (negated : Bool) (cs : List Char) : Option (Escape × List Char) := do
  let found : Option (CharSet × List Char) := match flags.skip cs with
    | [] => none
    | '\x7b' :: rest =>
      match readBraced flags (rest.length + 1) rest with
      | some (text, rest) => (bracedProperty? text).map (·, rest)
      | none => none
    | '\\' :: _ => none
    | c :: rest => (propertyOf? (looseName [c])).map (·, flags.skip rest)
  let (set, rest) ← found
  if flags.unicode then return (.set (← flags.close negated set), rest) else none

def unions (sets : List CharSet) : CharSet := sets.foldl .union .none

def digitRange : CharSet := .range 0x30 0x39
def upperRange : CharSet := .range 0x41 0x5A
def lowerRange : CharSet := .range 0x61 0x7A
def wordAscii : CharSet := unions [digitRange, upperRange, lowerRange, .one '_']
def spaceAscii : CharSet := .union (.range 9 13) (.one ' ')

def letterSet (flags : Flags) (c : Char) : Option CharSet :=
  let set :=
    if c.toLower = 'd' then if flags.unicode then .named .digit else digitRange
    else if c.toLower = 's' then if flags.unicode then .named .space else spaceAscii
    else if flags.unicode then .named .word else wordAscii
  if c.isUpper then if flags.unicode then some (.negation set) else none else some set

def asciiSet? (name : String) : Option CharSet :=
  if name = "alnum" then some (unions [digitRange, upperRange, lowerRange])
  else if name = "alpha" then some (unions [upperRange, lowerRange])
  else if name = "ascii" then some (.range 0 127)
  else if name = "blank" then some (unions [.one '\t', .one ' '])
  else if name = "cntrl" then some (unions [.range 0 31, .range 127 127])
  else if name = "digit" then some digitRange
  else if name = "graph" then some (.range 0x21 0x7E)
  else if name = "lower" then some lowerRange
  else if name = "print" then some (.range 0x20 0x7E)
  else if name = "punct" then
    some (unions [.range 0x21 0x2F, .range 0x3A 0x40, .range 0x5B 0x60, .range 0x7B 0x7E])
  else if name = "space" then some spaceAscii
  else if name = "upper" then some upperRange
  else if name = "word" then some wordAscii
  else if name = "xdigit" then some (unions [digitRange, .range 0x41 0x46, .range 0x61 0x66])
  else none

/-! ### Escapes -/

def isMeta (c : Char) : Bool :=
  ['\\', '.', '+', '*', '?', '(', ')', '|', '[', ']', '\x7b', '\x7d', '^', '$', '#', '&', '-', '~'].contains c

def isEscapable (c : Char) : Bool :=
  isMeta c || (c.toNat < 128 && !c.isAlphanum && c != '<' && c != '>')

def isBoundaryLetter (c : Char) : Bool := c.isAlpha || c == '-'

def takeBoundary (flags : Flags) : Nat → List Char → List Char × List Char
  | 0, cs => ([], cs)
  | fuel + 1, cs =>
    match cs with
    | c :: rest =>
      if isBoundaryLetter c then
        let (name, rest) := takeBoundary flags fuel (flags.skip rest)
        (c :: name, rest)
      else ([], c :: rest)
    | [] => ([], [])

/-- The condition after `b`: a boundary of words, of one kind only if a name in braces follows. A
brace before anything else is left for the counts of a repetition. -/
def readBoundary (flags : Flags) (cs : List Char) : Option (Escape × List Char) :=
  let ascii := !flags.unicode
  match cs with
  | '\x7b' :: rest =>
    match flags.skip rest with
    | [] => none
    | c :: more =>
      if isBoundaryLetter c then
        match takeBoundary flags (more.length + 1) (c :: more) with
        | (name, '\x7d' :: rest) =>
          let text := String.ofList name
          if text = "start" then some (.look (.wordStart ascii), rest)
          else if text = "end" then some (.look (.wordEnd ascii), rest)
          else if text = "start-half" then some (.look (.wordStartHalf ascii), rest)
          else if text = "end-half" then some (.look (.wordEndHalf ascii), rest)
          else none
        | _ => none
      else some (.look (.wordBoundary ascii), cs)
  | _ => some (.look (.wordBoundary ascii), cs)

def readEscape (flags : Flags) : List Char → Option (Escape × List Char)
  | [] => none
  | c :: rest =>
    if c.isDigit then none
    else if c = 'x' then readHex flags 2 rest
    else if c = 'u' then readHex flags 4 rest
    else if c = 'U' then readHex flags 8 rest
    else if c = 'p' then readProperty flags false rest
    else if c = 'P' then readProperty flags true rest
    else if ['d', 's', 'w', 'D', 'S', 'W'].contains c then
      (letterSet flags c).map fun set => (.set set, rest)
    else if isEscapable c then some (.char c, rest)
    else if c = 'a' then some (.char '\x07', rest)
    else if c = 'f' then some (.char '\x0c', rest)
    else if c = 't' then some (.char '\t', rest)
    else if c = 'n' then some (.char '\n', rest)
    else if c = 'r' then some (.char '\r', rest)
    else if c = 'v' then some (.char '\x0b', rest)
    else if c = 'A' then some (.look .textStart, rest)
    else if c = 'z' then some (.look .textEnd, rest)
    else if c = 'b' then readBoundary flags rest
    else if c = 'B' then some (.look (.noWordBoundary !flags.unicode), rest)
    else if c = '<' then some (.look (.wordStart !flags.unicode), rest)
    else if c = '>' then some (.look (.wordEnd !flags.unicode), rest)
    else none

/-! ### Bracketed classes -/

inductive SetOperation where
  | intersection
  | difference
  | symmetric
deriving DecidableEq, Repr

def SetOperation.apply : SetOperation → CharSet → CharSet → CharSet
  | .intersection => .intersection
  | .difference => .difference
  | .symmetric => .symmetric

/-- A class that is being read: an operation with its left side, if there is one, and the members
since then. `height` is the nesting of its parts. -/
structure OpenClass where
  pending : Option (SetOperation × CharSet)
  members : CharSet
  height : Nat
deriving Repr

namespace OpenClass

def add (k : OpenClass) (set : CharSet) (height : Nat) : OpenClass :=
  { k with members := .union k.members set, height := max k.height height }

def value (k : OpenClass) (flags : Flags) : CharSet :=
  match k.pending with
  | none => k.members
  | some (op, left) => op.apply (flags.foldSet left) (flags.foldSet k.members)

def operate (k : OpenClass) (flags : Flags) (op : SetOperation) : OpenClass :=
  ⟨some (op, k.value flags), .none, if k.pending.isSome then k.height + 1 else k.height⟩

def finalHeight (k : OpenClass) : Nat := (if k.pending.isSome then k.height + 1 else k.height) + 1

end OpenClass

def readMember (flags : Flags) : List Char → Option (Escape × List Char)
  | [] => none
  | '\\' :: rest => readEscape flags rest
  | c :: rest => some (.char c, rest)

def memberNumber? (flags : Flags) : Escape → Option Nat
  | .char c => if flags.unicode || c.toNat < 128 then some c.toNat else none
  | _ => none

/-- A member or a range. A minus sign before the closing bracket or before another minus sign
makes no range. -/
def readMemberOrRange (flags : Flags) (cs : List Char) : Option (CharSet × List Char) := do
  let (first, rest) ← readMember flags cs
  let rest := flags.skip rest
  let single : Option (CharSet × List Char) :=
    match first with
    | .set set => some (set, rest)
    | .look _ => none
    | other => (memberNumber? flags other).map fun n => (.range n n, rest)
  match rest with
  | [] => none
  | '-' :: after =>
    match flags.skip after with
    | [] => none
    | ']' :: _ => single
    | '-' :: _ => single
    | after =>
      let (last, rest) ← readMember flags after
      let low ← memberNumber? flags first
      let high ← memberNumber? flags last
      if low ≤ high then some (.range low high, rest) else none
  | _ => single

def readAsciiClass (cs : List Char) : Option (CharSet × List Char) :=
  match cs with
  | ':' :: rest =>
    let (negated, rest) := match rest with
      | '^' :: rest => (true, rest)
      | rest => (false, rest)
    let name := rest.takeWhile (· != ':')
    match rest.dropWhile (· != ':') with
    | ':' :: ']' :: after =>
      (asciiSet? (String.ofList name)).map fun set => (if negated then .negation set else set, after)
    | _ => none
  | _ => none

/-- Minus signs at the start of a class, which stand for themselves. -/
def readLeadingMinus (flags : Flags) : Nat → List Char → Bool × List Char
  | 0, cs => (false, cs)
  | fuel + 1, cs =>
    match cs with
    | '-' :: rest => (true, (readLeadingMinus flags fuel (flags.skip rest)).2)
    | cs => (false, cs)

def openClass (flags : Flags) (cs : List Char) : Bool × OpenClass × List Char :=
  let (negated, cs) := match flags.skip cs with
    | '^' :: rest => (true, flags.skip rest)
    | cs => (false, cs)
  match readLeadingMinus flags (cs.length + 1) cs with
  | (true, rest) => (negated, ⟨none, .one '-', 0⟩, rest)
  | (false, ']' :: rest) => (negated, ⟨none, .one ']', 0⟩, flags.skip rest)
  | (false, rest) => (negated, ⟨none, .none, 0⟩, rest)

def readClass (flags : Flags) :
    Nat → Bool → OpenClass → List Char → Option (CharSet × Nat × List Char)
  | 0, _, _, _ => none
  | fuel + 1, negated, k, cs =>
    match flags.skip cs with
    | [] => none
    | '[' :: rest =>
      match readAsciiClass rest with
      | some (set, rest) => readClass flags fuel negated (k.add set 0) rest
      | none =>
        let (inner, start, rest) := openClass flags rest
        match readClass flags fuel inner start rest with
        | some (set, height, rest) => readClass flags fuel negated (k.add set height) rest
        | none => none
    | ']' :: rest => (flags.close negated (k.value flags)).map fun set => (set, k.finalHeight, rest)
    | '&' :: '&' :: rest => readClass flags fuel negated (k.operate flags .intersection) rest
    | '-' :: '-' :: rest => readClass flags fuel negated (k.operate flags .difference) rest
    | '~' :: '~' :: rest => readClass flags fuel negated (k.operate flags .symmetric) rest
    | cs =>
      match readMemberOrRange flags cs with
      | some (set, rest) => readClass flags fuel negated (k.add set 0) rest
      | none => none

end FlowTally.Pattern
