import FlowTally.Pattern.Class

/-!
# Reading regular expressions

`read?` turns the text of an expression into a `Regex`. A flag holds from where
it is set to the end of the group around it. Groups only group; their names
have to be distinct. An expression may nest at most 250 levels deep, and an
expression whose counted repetitions would unfold into too much is refused.
-/

namespace FlowTally.Pattern

/-- A part of a sequence: an expression, or `none` for a change of flags. -/
structure Part where
  regex : Option Regex
  height : Nat
deriving Repr, Inhabited

def maxHeight : Nat := 250

def sequence : List Part → Regex × Nat
  | [] => (.empty, 0)
  | [part] => (part.regex.getD .empty, part.height)
  | parts =>
    let body := parts.foldl (fun rest part =>
      match part.regex, rest with
      | some r, .empty => r
      | some r, rest => .append r rest
      | none, rest => rest) Regex.empty
    (body, (parts.map (·.height)).foldl max 0 + 1)

def alternatives : List (Regex × Nat) → Regex × Nat
  | [] => (.empty, 0)
  | [branch] => branch
  | last :: rest =>
    (rest.foldl (fun right left => .either left.1 right) last.1,
      (last :: rest).foldl (fun height branch => max height branch.2) 0 + 1)

/-! ### Flags and groups -/

inductive FlagLetter where
  | ignoreCase
  | multiLine
  | dotAll
  | swapGreed
  | unicode
  | anyLineEnd
  | verbose
deriving DecidableEq, Repr

def FlagLetter.ofChar? (c : Char) : Option FlagLetter :=
  if c = 'i' then some .ignoreCase
  else if c = 'm' then some .multiLine
  else if c = 's' then some .dotAll
  else if c = 'U' then some .swapGreed
  else if c = 'u' then some .unicode
  else if c = 'R' then some .anyLineEnd
  else if c = 'x' then some .verbose
  else none

def Flags.set (flags : Flags) (letter : FlagLetter) (value : Bool) : Flags :=
  match letter with
  | .ignoreCase => { flags with ignoreCase := value }
  | .multiLine => { flags with multiLine := value }
  | .dotAll => { flags with dotAll := value }
  | .swapGreed => flags
  | .unicode => { flags with unicode := value }
  | .anyLineEnd => { flags with anyLineEnd := value }
  | .verbose => { flags with verbose := value }

inductive FlagsEnd where
  /-- A colon: the flags hold inside the group. -/
  | group
  /-- A closing parenthesis: the flags hold from here on. -/
  | here
deriving DecidableEq, Repr

/-- Flag letters up to a colon or a closing parenthesis. `negating` is `none` before a minus sign
and tells afterwards whether a letter has followed it. -/
def readFlags (flags : Flags) (seen : List FlagLetter) (negating : Option Bool) :
    List Char → Option (Flags × FlagsEnd × Bool × List Char)
  | [] => none
  | c :: rest =>
    if c = ':' ∨ c = ')' then
      if negating = some false then none
      else some (flags, if c = ':' then .group else .here, seen.isEmpty && negating.isNone, rest)
    else if c = '-' then if negating.isSome then none else readFlags flags seen (some false) rest
    else
      match FlagLetter.ofChar? c with
      | none => none
      | some letter =>
        if letter ∈ seen then none
        else readFlags (flags.set letter negating.isNone) (letter :: seen) (negating.map fun _ => true) rest

def isNameStart (c : Char) : Bool := c == '_' || Unicode.isAlphabetic c

def isNameRest (c : Char) : Bool :=
  c == '_' || c == '.' || c == '[' || c == ']' || Unicode.isAlphabetic c || Unicode.isNumeric c

def readName (cs : List Char) : Option (List Char × List Char) :=
  let name := cs.takeWhile (· != '>')
  match name, cs.dropWhile (· != '>') with
  | first :: others, _ :: rest =>
    if isNameStart first && others.all isNameRest then some (name, rest) else none
  | _, _ => none

inductive Opening where
  | group (flags : Flags) (names : List (List Char)) (rest : List Char)
  | flags (flags : Flags) (rest : List Char)

def readNamed (flags : Flags) (names : List (List Char)) (cs : List Char) : Option Opening :=
  (readName cs).bind fun (name, rest) =>
    if name ∈ names then none else some (.group flags (name :: names) rest)

def readOpening (flags : Flags) (names : List (List Char)) (cs : List Char) : Option Opening :=
  match flags.skip cs with
  | '?' :: 'P' :: '<' :: rest => readNamed flags names rest
  | '?' :: '<' :: c :: rest => if c = '=' ∨ c = '!' then none else readNamed flags names (c :: rest)
  | '?' :: rest =>
    match readFlags flags [] none rest with
    | some (inner, .group, _, rest) => some (.group inner names rest)
    | some (here, .here, isEmpty, rest) => if isEmpty then none else some (.flags here rest)
    | none => none
  | rest => some (.group flags names rest)

/-! ### Repetitions -/

def readDecimal (flags : Flags) (n : Nat) (any : Bool) : Nat → List Char → Option (Nat × List Char)
  | 0, _ => none
  | fuel + 1, cs =>
    match cs with
    | [] => if any then some (n, []) else none
    | c :: rest =>
      match Text.Natural.digit? 10 c with
      | some d =>
        if n * 10 + d < Text.Natural.bound32 then
          readDecimal flags (n * 10 + d) true fuel (flags.skip rest)
        else none
      | none => if any then some (n, flags.skip (cs.dropWhile Text.isBlank)) else none

def readCount (flags : Flags) (cs : List Char) : Option (Nat × List Char) :=
  readDecimal flags 0 false (cs.length + 1) (cs.dropWhile Text.isBlank)

def readBounds (flags : Flags) (cs : List Char) : Option (Nat × Option Nat × List Char) := do
  let (least, rest) ← readCount flags (flags.skip cs)
  match rest with
  | '\x7d' :: rest => return (least, some least, flags.skip rest)
  | ',' :: rest =>
    match flags.skip rest with
    | '\x7d' :: rest => return (least, none, flags.skip rest)
    | rest =>
      let (most, rest) ← readCount flags rest
      match rest with
      | '\x7d' :: rest => if least ≤ most then return (least, some most, flags.skip rest) else none
      | _ => none
  | _ => none

def dropLazy : List Char → List Char
  | '?' :: rest => rest
  | rest => rest

/-- Repeats the last part; a change of flags cannot be repeated. -/
def repeatLast (least : Nat) (most : Option Nat) : List Part → Option (List Part)
  | ⟨some r, height⟩ :: parts => some (⟨some (.times r least most), height + 1⟩ :: parts)
  | _ => none

/-! ### Expressions -/

def literal (flags : Flags) (c : Char) : Regex :=
  if flags.ignoreCase then
    if flags.unicode then .set (.folded (.one c))
    else if c.isAlpha then .set (.foldedAscii (.one c))
    else .set (.one c)
  else .set (.one c)

def dot (flags : Flags) : Option Regex :=
  if !flags.unicode then none
  else if flags.dotAll then some (.set (.named .any))
  else if flags.anyLineEnd then some (.set (.negation (.union (.one '\n') (.one '\r'))))
  else some (.set (.negation (.one '\n')))

def startLook (flags : Flags) : Look :=
  if !flags.multiLine then .textStart else if flags.anyLineEnd then .lineStartAny else .lineStart

def endLook (flags : Flags) : Look :=
  if !flags.multiLine then .textEnd else if flags.anyLineEnd then .lineEndAny else .lineEnd

def ofEscape (flags : Flags) : Escape → Option Regex
  | .char c => some (literal flags c)
  | .byte _ => none
  | .set set => some (.set set)
  | .look condition => some (.look condition)

/-- Alternatives up to the end of the text or a closing parenthesis, which is left. -/
def readExpression : Nat → Flags → List (List Char) → List (Regex × Nat) → List Part → List Char →
    Option ((Regex × Nat) × List (List Char) × List Char)
  | 0, _, _, _, _, _ => none
  | fuel + 1, flags, names, branches, parts, cs =>
    let add (regex : Option Regex) (rest : List Char) :=
      match regex with
      | some r => readExpression fuel flags names branches (⟨some r, 0⟩ :: parts) rest
      | none => none
    let repeated (least : Nat) (most : Option Nat) (rest : List Char) :=
      match repeatLast least most parts with
      | some parts => readExpression fuel flags names branches parts (dropLazy rest)
      | none => none
    match flags.skip cs with
    | [] => some (alternatives (sequence parts :: branches), names, [])
    | ')' :: rest => some (alternatives (sequence parts :: branches), names, ')' :: rest)
    | '|' :: rest => readExpression fuel flags names (sequence parts :: branches) [] rest
    | '(' :: rest =>
      match readOpening flags names rest with
      | some (.flags here rest) => readExpression fuel here names branches (⟨none, 0⟩ :: parts) rest
      | some (.group inner names rest) =>
        match readExpression fuel inner names [] [] rest with
        | some ((body, height), names, ')' :: rest) =>
          readExpression fuel flags names branches (⟨some body, height + 1⟩ :: parts) rest
        | _ => none
      | none => none
    | '[' :: rest =>
      let (negated, start, rest) := openClass flags rest
      match readClass flags fuel negated start rest with
      | some (set, height, rest) =>
        readExpression fuel flags names branches (⟨some (.set set), height⟩ :: parts) rest
      | none => none
    | '?' :: rest => repeated 0 (some 1) rest
    | '*' :: rest => repeated 0 none rest
    | '+' :: rest => repeated 1 none rest
    | '\x7b' :: rest =>
      match readBounds flags rest with
      | some (least, most, rest) => repeated least most rest
      | none => none
    | '\\' :: rest =>
      match readEscape flags rest with
      | some (escape, rest) => add (ofEscape flags escape) rest
      | none => none
    | '.' :: rest => add (dot flags) rest
    | '^' :: rest => add (some (.look (startLook flags))) rest
    | '$' :: rest => add (some (.look (endLook flags))) rest
    | c :: rest => add (some (literal flags c)) rest

def weight : Regex → Nat
  | .empty => 1
  | .set (.range _ _) => 1
  | .set _ => 8
  | .look _ => 1
  | .append first second => weight first + weight second
  | .either left right => weight left + weight right + 1
  | .times body least most => weight body * max (max least (most.getD 0)) 1 + 1

def maxWeight : Nat := 300000

inductive Fault where
  | malformed
  | tooLarge
deriving DecidableEq, Repr

def Fault.message : Fault → String
  | .malformed => "regex parse error"
  | .tooLarge => "Compiled regex exceeds size limit of 10485760 bytes."

def read (cs : List Char) : Except Fault Regex :=
  match readExpression (2 * cs.length + 2) {} [] [] [] cs with
  | some ((r, height), _, []) =>
    if maxHeight < height then .error .malformed
    else if maxWeight < weight r then .error .tooLarge
    else .ok r
  | _ => .error .malformed

end FlowTally.Pattern
