import FlowTally.Files
import FlowTally.Key.Lines
import FlowTally.Vocabulary.Basic

/-!
# Vocabulary files

A vocabulary file holds the text of one key on each line, by column. A fault in
a line is reported with path and line.
-/

namespace FlowTally.Vocabulary

def Fault.error (fault : Fault) : RunError := .consistency fault.message

def lineError (path : String) (number : Nat) : FlowKey.LineFault → RunError
  | .notText => .io .notText
  | fault => .parse s!"{path}:{number}: {fault.error.message}"

def ofContent (path : String) (frozen : Bool) (content : Content) : Except RunError Vocabulary :=
  match FlowKey.readLines 1 content.lines with
  | .error (number, fault) => .error (lineError path number fault)
  | .ok keys => (ofKeys keys frozen).mapError Fault.error

def load (files : FileTree) (path : String) (frozen : Bool) : Except RunError Vocabulary :=
  match files.read path with
  | .error fault => .error (.io fault)
  | .ok content => ofContent path frozen content

end FlowTally.Vocabulary
