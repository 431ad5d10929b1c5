import FlowTally.Error
import FlowTally.Key.Text
import FlowTally.Text.Content

/-!
# Lists of flow keys

A list of keys is written with the text of one key on each line. The reader
takes every line as a key, so an empty line is a fault.
-/

namespace FlowTally.FlowKey

def writeLines (keys : List FlowKey) : List Char := keys.flatMap fun key => key.encode ++ ['\n']

inductive LineFault where
  | notText
  | key (text : String) (fault : Fault)
deriving DecidableEq, Repr

def LineFault.error : LineFault → RunError
  | .notText => .io .notText
  | .key text fault => .parse (fault.message text)

def readLine (line : Content) : Except LineFault FlowKey :=
  match line.text? with
  | none => .error .notText
  | some text =>
    match parse text with
    | .ok key => .ok key
    | .error fault => .error (.key text fault)

/-- Keys of lines counted from `number`; a fault comes with the number of its line. -/
def readLines (number : Nat) : List Content → Except (Nat × LineFault) (List FlowKey)
  | [] => .ok []
  | line :: rest =>
    match readLine line with
    | .error fault => .error (number, fault)
    | .ok key => (readLines (number + 1) rest).map (key :: ·)

end FlowTally.FlowKey
