import FlowTally.Error
import FlowTally.Pattern.Match
import FlowTally.Pattern.Reader

/-!
# Path patterns

A path pattern selects paths by a regular expression. Its text is put into a
group between a text start and a text end, and the whole has to be a regular
expression; a path is selected when some part of it matches the whole.
-/

namespace FlowTally

structure PathPattern where
  text : String
  regex : Pattern.Regex
deriving DecidableEq, Repr, Inhabited

namespace PathPattern

def anchored (text : String) : List Char :=
  "^(?:".toList ++ text.toList ++ ")$".toList

def read (text : String) : Except StoreError PathPattern :=
  match Pattern.read (anchored text) with
  | .ok regex => .ok ⟨text, regex⟩
  | .error fault => .error (.invalidGraph s!"invalid sample pattern '{text}': {fault.message}")

def selects (pattern : PathPattern) (path : String) : Bool := pattern.regex.search path.toList

end PathPattern

end FlowTally
