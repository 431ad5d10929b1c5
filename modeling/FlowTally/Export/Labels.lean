import FlowTally.Error
import FlowTally.Label
import FlowTally.Text.Content

/-!
# Label files

A label file has a line for each row: the label in one of the two styles, a
comma, and the sample id. The id is everything behind the first comma, so it
may hold commas but no line break.
-/

namespace FlowTally.LabelEntry

def line (style : LabelStyle) (e : LabelEntry) : List Char :=
  (style.format e.label).toList ++ ',' :: e.sampleId.toList ++ ['\n']

def writeLines (style : LabelStyle) (entries : List LabelEntry) : List Char :=
  entries.flatMap (line style)

inductive LineFault where
  | notText
  | noComma (line : String)
  | badLabel (label : String)
deriving DecidableEq, Repr

def LineFault.error : LineFault → RunError
  | .notText => .io .notText
  | .noComma line => .parse s!"bad label line '{line}'"
  | .badLabel label => .parse s!"bad label '{label}'"

def splitComma? (cs : List Char) : Option (List Char × List Char) :=
  match cs.dropWhile (· != ',') with
  | _ :: after => some (cs.takeWhile (· != ','), after)
  | [] => none

def readLine (line : Content) : Except LineFault LabelEntry :=
  match line.chars? with
  | none => .error .notText
  | some cs =>
    match splitComma? cs with
    | none => .error (.noComma (String.ofList cs))
    | some (label, id) =>
      match LabelStyle.readLabel? (String.ofList label) with
      | none => .error (.badLabel (String.ofList label))
      | some value => .ok ⟨value, String.ofList id⟩

def readLines : List Content → Except LineFault (List LabelEntry)
  | [] => .ok []
  | line :: rest => (readLine line).bind fun e => (readLines rest).map (e :: ·)

end FlowTally.LabelEntry
