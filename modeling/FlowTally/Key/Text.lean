import FlowTally.Key.Basic

/-!
# Text of flow keys

A key is written on one line as `source-[flow]->sink`, the elements of each
list separated by colons:

    IdentifierDeclStatement:Identifier-[FLOWS_TO:REACHES]->CallExpression

The characters of this notation and the backslash are escaped by a backslash,
line breaks are written `\n` and `\r`, and an empty element is written `\0`, so
an empty list and a list of one empty element stay apart. `parse` reads every
text that `render` writes, and some more: any character but `0` may be escaped,
and a raw line break stands for itself.
-/

namespace FlowTally.FlowKey

def isReserved (c : Char) : Bool :=
  c == '\\' || c == ':' || c == '-' || c == '[' || c == ']' || c == '>'

def encodeChar (c : Char) : List Char :=
  if c = '\n' then ['\\', 'n']
  else if c = '\r' then ['\\', 'r']
  else if isReserved c then ['\\', c]
  else [c]

def encodeElement : List Char → List Char
  | [] => ['\\', '0']
  | c :: cs => (c :: cs).flatMap encodeChar

def encodeList : List String → List Char
  | [] => []
  | [item] => encodeElement item.toList
  | item :: next :: rest => encodeElement item.toList ++ ':' :: encodeList (next :: rest)

def encode (key : FlowKey) : List Char :=
  encodeList key.source ++ '-' :: '[' :: encodeList key.flow ++ ']' :: '-' :: '>' :: encodeList key.sink

def render (key : FlowKey) : String := String.ofList key.encode

inductive Fault where
  | emptyElement
  | danglingEscape
  | misplacedEmpty
  | unescaped (c : Char)
  | shape
deriving DecidableEq, Repr

def Fault.message (text : String) : Fault → String
  | .emptyElement => s!"empty element in key '{text}'"
  | .danglingEscape => s!"dangling escape in key '{text}'"
  | .misplacedEmpty => s!"misplaced empty marker in key '{text}'"
  | .unescaped c => s!"unescaped '{c}' in key '{text}'"
  | .shape => s!"key '{text}' is not of the form <source>-[<flow>]-><sink>"

inductive Section where
  | source
  | flow (source : List String)
  | sink (source flow : List String)
deriving DecidableEq, Repr

/-- What has been read of the current list: whole elements, and the characters of the element at
hand. `none` is an element written as empty. -/
structure Partial where
  elements : List String
  current : Option (List Char)
deriving DecidableEq, Repr

namespace Partial

def start : Partial := ⟨[], some []⟩

def push (p : Partial) (c : Char) : Except Fault Partial :=
  match p.current with
  | some cs => .ok { p with current := some (cs ++ [c]) }
  | none => .error .misplacedEmpty

def markEmpty (p : Partial) : Except Fault Partial :=
  match p.current with
  | some [] => .ok { p with current := none }
  | _ => .error .misplacedEmpty

def endElement (p : Partial) : Except Fault Partial :=
  match p.current with
  | none => .ok ⟨p.elements ++ [""], some []⟩
  | some [] => .error .emptyElement
  | some (c :: cs) => .ok ⟨p.elements ++ [String.ofList (c :: cs)], some []⟩

/-- Ends the list; nothing at all is the empty list. -/
def endList (p : Partial) : Except Fault (List String) :=
  if p = start then .ok [] else p.endElement.map (·.elements)

end Partial

/-- Meaning of the character after a backslash, other than `0`. -/
def unescape (c : Char) : Char := if c = 'n' then '\n' else if c = 'r' then '\r' else c

def decodeFrom : Section → Partial → List Char → Except Fault FlowKey
  | .sink source flow, p, [] => p.endList.map fun sink => ⟨source, flow, sink⟩
  | _, _, [] => .error .shape
  | _, _, ['\\'] => .error .danglingEscape
  | at', p, '\\' :: c :: rest =>
    if c = '0' then p.markEmpty.bind (decodeFrom at' · rest)
    else (p.push (unescape c)).bind (decodeFrom at' · rest)
  | .source, p, '-' :: '[' :: rest =>
    p.endList.bind fun source => decodeFrom (.flow source) .start rest
  | .flow source, p, ']' :: '-' :: '>' :: rest =>
    p.endList.bind fun flow => decodeFrom (.sink source flow) .start rest
  | at', p, c :: rest =>
    if c = ':' then p.endElement.bind (decodeFrom at' · rest)
    else if isReserved c then .error (.unescaped c)
    else (p.push c).bind (decodeFrom at' · rest)

def decode (cs : List Char) : Except Fault FlowKey := decodeFrom .source .start cs

def parse (text : String) : Except Fault FlowKey := decode text.toList

end FlowTally.FlowKey
