import FlowTally.Yaml.Scalar

/-!
# YAML tokens

A text is cut into tokens from left to right. Block collections have no tokens
of their own in the text: a collection starts where an entry or a key stands
further right than the innermost open one, and ends where the text goes back to
the left. A key can be known only at its colon, so the place of what may be a
key is kept until the colon comes, the line ends, or it is more than 1024
characters away. Anchors, tags and directives are refused.
-/

namespace FlowTally.Yaml

inductive Token where
  | documentStart
  | documentEnd
  | blockSequence
  | blockMapping
  | blockEnd
  | flowSequence
  | flowSequenceEnd
  | flowMapping
  | flowMappingEnd
  | entry
  | separator
  | key
  | value
  | scalar (text : List Char) (isPlain : Bool)
deriving DecidableEq, Repr, Inhabited

/-- A token that may turn out to start a key. -/
structure Candidate where
  /-- It has to be a key, or the block breaks off. -/
  required : Bool
  place : Nat
  mark : Mark
deriving DecidableEq, Repr, Inhabited

structure Scanner where
  mark : Mark := {}
  rest : List Char
  /-- Tokens so far, the last one first. -/
  tokens : List Token := []
  /-- For each open block collection one more than its column, the innermost first. -/
  blocks : List Nat := []
  keyAllowed : Bool := true
  candidate : Option Candidate := none
  /-- Candidates outside of each open flow collection, the innermost first. -/
  outer : List (Option Candidate) := []
deriving Repr, Inhabited

namespace Scanner

def inFlow (s : Scanner) : Bool := !s.outer.isEmpty

/-- One more than the column of the innermost block collection. -/
def floor (s : Scanner) : Nat := s.blocks.headD 0

def push (s : Scanner) (t : Token) : Scanner := { s with tokens := t :: s.tokens }

def skip (s : Scanner) (n : Nat) : Scanner :=
  { s with mark := s.mark.skip n, rest := s.rest.drop n }

/-- Tokens, the last one first, with one put after the first `place`. -/
def insertAt (tokens : List Token) (place : Nat) (t : Token) : List Token :=
  let later := tokens.length - place
  tokens.take later ++ t :: tokens.drop later

/-! ### White space and comments -/

/-- Passes blanks, comments and line breaks. Tabs count as blanks where no key can start. -/
def gapFrom (flow comment allowed : Bool) (m : Mark) : List Char → Bool × Mark × List Char
  | [] => (allowed, m, [])
  | c :: cs =>
    if isBreak c then gapFrom flow false (allowed || !flow) (m.after c) cs
    else if comment || c == ' ' || (c == '\t' && (flow || !allowed)) then
      gapFrom flow comment allowed (m.skip 1) cs
    else if c == '#' then gapFrom flow true allowed (m.skip 1) cs
    else (allowed, m, c :: cs)

def skipGap (s : Scanner) : Scanner :=
  let (allowed, mark, rest) := gapFrom s.inFlow false s.keyAllowed s.mark s.rest
  { s with keyAllowed := allowed, mark := mark, rest := rest }

/-! ### Keys -/

def Candidate.refresh (m : Mark) : Option Candidate → Except Fault (Option Candidate)
  | none => .ok none
  | some k =>
    if k.mark.line < m.line || k.mark.column + 1024 < m.column then
      if k.required then .error .unfinishedKey else .ok none
    else .ok (some k)

def refreshKeys (s : Scanner) : Except Fault Scanner :=
  (Candidate.refresh s.mark s.candidate).bind fun candidate =>
    (s.outer.mapM (Candidate.refresh s.mark)).map fun outer =>
      { s with candidate := candidate, outer := outer }

def dropKey (s : Scanner) : Except Fault Scanner :=
  if s.candidate.any (·.required) then .error .unfinishedKey
  else .ok { s with candidate := none }

/-- The next token may start a key, if one may start here. -/
def saveKey (s : Scanner) : Except Fault Scanner :=
  if s.keyAllowed then
    s.dropKey.map fun s =>
      let required := !s.inFlow && s.floor == s.mark.column + 1
      { s with candidate := some ⟨required, s.tokens.length, s.mark⟩ }
  else .ok s

/-! ### Block collections -/

/-- Closes the block collections that lie further right than a column; `keep` is one more. -/
def unroll (s : Scanner) (keep : Nat) : Scanner :=
  if s.inFlow then s
  else
    let closed := s.blocks.takeWhile fun b => decide (keep < b)
    { s with
      tokens := closed.map (fun _ => Token.blockEnd) ++ s.tokens
      blocks := s.blocks.dropWhile fun b => decide (keep < b) }

/-- Opens a block collection whose start stands at a column, unless it is open already. -/
def roll (s : Scanner) (column place : Nat) (start : Token) : Scanner :=
  if s.inFlow || column < s.floor then s
  else { s with tokens := insertAt s.tokens place start, blocks := (column + 1) :: s.blocks }

def rollHere (s : Scanner) (start : Token) : Except Fault Scanner :=
  if s.inFlow then .ok s
  else if s.keyAllowed then .ok (s.roll s.mark.column s.tokens.length start)
  else .error .misplaced

/-! ### Tokens by their first characters -/

def documentMark (s : Scanner) (t : Token) : Except Fault Scanner :=
  (s.unroll 0).dropKey.map fun s => ({ s with keyAllowed := false }.push t).skip 3

def openFlow (s : Scanner) (t : Token) : Except Fault Scanner :=
  s.saveKey.map fun s =>
    ({ s with outer := s.candidate :: s.outer, candidate := none, keyAllowed := true }.push t).skip 1

def closeFlow (s : Scanner) (t : Token) : Except Fault Scanner :=
  s.dropKey.map fun s =>
    let s := match s.outer with
      | candidate :: outer => { s with candidate := candidate, outer := outer }
      | [] => s
    ({ s with keyAllowed := false }.push t).skip 1

def separator (s : Scanner) : Except Fault Scanner :=
  s.dropKey.map fun s => ({ s with keyAllowed := true }.push .separator).skip 1

def entry (s : Scanner) : Except Fault Scanner :=
  (s.rollHere .blockSequence).bind fun s =>
    s.dropKey.map fun s => ({ s with keyAllowed := true }.push .entry).skip 1

def explicitKey (s : Scanner) : Except Fault Scanner :=
  (s.rollHere .blockMapping).bind fun s =>
    s.dropKey.map fun s => ({ s with keyAllowed := !s.inFlow }.push .key).skip 1

/-- A colon makes the candidate a key. -/
def value (s : Scanner) : Except Fault Scanner :=
  match s.candidate with
  | some k =>
    let s := { s with tokens := insertAt s.tokens k.place .key, candidate := none }
    let s := s.roll k.mark.column k.place .blockMapping
    .ok (({ s with keyAllowed := false }.push .value).skip 1)
  | none =>
    (s.rollHere .blockMapping).map fun s =>
      ({ s with keyAllowed := !s.inFlow }.push .value).skip 1

def accept (s : Scanner) (isPlain : Bool) (found : Scanned) : Scanner :=
  { s with mark := found.mark, rest := found.rest }.push (.scalar found.text isPlain)

def quotedScalar (s : Scanner) (read : Gap → Mark → List Char → Except Fault Scanned) :
    Except Fault Scanner :=
  s.saveKey.bind fun s =>
    (read .none (s.mark.skip 1) (s.rest.drop 1)).map fun found =>
      { s with keyAllowed := false }.accept false found

def plainScalar (s : Scanner) : Except Fault Scanner :=
  s.saveKey.bind fun s =>
    (plain s.inFlow s.floor .none s.mark s.rest).map fun found =>
      { s with keyAllowed := found.broken }.accept true found

def blockScalar (s : Scanner) (folded : Bool) : Except Fault Scanner :=
  s.dropKey.bind fun s =>
    (block folded s.floor (s.mark.skip 1) (s.rest.drop 1)).map fun found =>
      { s with keyAllowed := true }.accept false found

def isIndicator (c : Char) : Bool :=
  isFlowIndicator c || c == '-' || c == '?' || c == ':' || c == '#' || c == '&' || c == '*' ||
    c == '!' || c == '|' || c == '>' || c == '\'' || c == '"' || c == '%' || c == '@' ||
    c == '\x60'

def startsPlain (flow : Bool) (c : Char) (rest : List Char) : Bool :=
  !(isBlank c || isIndicator c) || c == '-' || (!flow && (c == '?' || c == ':') && !endsWord rest)

def token (s : Scanner) (c : Char) (rest : List Char) : Except Fault Scanner :=
  if s.mark.column = 0 ∧ startsMark '-' s.rest = true then s.documentMark .documentStart
  else if s.mark.column = 0 ∧ startsMark '.' s.rest = true then s.documentMark .documentEnd
  else if c = '[' then s.openFlow .flowSequence
  else if c = '\x7b' then s.openFlow .flowMapping
  else if c = ']' then s.closeFlow .flowSequenceEnd
  else if c = '\x7d' then s.closeFlow .flowMappingEnd
  else if c = ',' then s.separator
  else if c = '-' ∧ endsWord rest = true then s.entry
  else if c = '?' ∧ (s.inFlow || endsWord rest) = true then s.explicitKey
  else if c = ':' ∧ (s.inFlow || endsWord rest) = true then s.value
  else if c = '|' ∧ s.inFlow = false then s.blockScalar false
  else if c = '>' ∧ s.inFlow = false then s.blockScalar true
  else if c = '\'' then s.quotedScalar singleQuoted
  else if c = '"' then s.quotedScalar doubleQuoted
  else if startsPlain s.inFlow c rest then s.plainScalar
  else .error (.noToken c)

def run (s : Scanner) : Nat → Except Fault (List Token)
  | 0 => .error .noEnd
  | fuel + 1 =>
    s.skipGap.refreshKeys.bind fun s =>
      let s := s.unroll (s.mark.column + 1)
      match s.rest with
      | [] => (s.unroll 0).dropKey.map (·.tokens.reverse)
      | c :: rest => (s.token c rest).bind fun s => s.run fuel

end Scanner

/-- The scanner at the start of a text; a byte order mark there takes one column. -/
def Scanner.start : List Char → Scanner
  | '\ufeff' :: cs => { rest := cs, mark := ⟨0, 1⟩ }
  | cs => { rest := cs }

def Token.scan (text : List Char) : Except Fault (List Token) :=
  match forbidden? text with
  | some c => .error (.character c)
  | none => (Scanner.start (normal text)).run (text.length + 1)

end FlowTally.Yaml
