import FlowTally.Error

/-!
# Phases of a run

A run goes through these phases:

    idle → discovering → processing 0 → accumulating 0 → processing 1 → … → exporting → done

A cancelled run may export after any accumulated sample and ends in
`cancelled`. Every phase but the last ones can fail. `RunState` keeps the phase
and the count of accumulated samples; a transition that the order does not
allow is refused and changes neither.
-/

namespace FlowTally

inductive Phase where
  | idle
  | discovering
  | processing (index total : Nat)
  | accumulating (index total : Nat)
  | exporting (cancelled : Bool)
  | done (samples : Nat)
  | failed (error : String) (severity : Severity)
  | cancelled (samples : Nat)
deriving DecidableEq, Repr, Inhabited

namespace Phase

def name : Phase → String
  | .idle => "idle"
  | .discovering => "discovering_samples"
  | .processing .. => "processing_sample"
  | .accumulating .. => "accumulating"
  | .exporting _ => "exporting"
  | .done _ => "done"
  | .failed .. => "failed"
  | .cancelled _ => "cancelled"

def isTerminal : Phase → Bool
  | .done _ | .failed .. | .cancelled _ => true
  | _ => false

end Phase

structure RunState where
  phase : Phase := .idle
  /-- Samples that reached `accumulating`. -/
  accumulated : Nat := 0
deriving DecidableEq, Repr, Inhabited

namespace RunState

def refuse (s : RunState) (target : String) : Except RunError RunState :=
  .error (.transition s.phase.name target)

def discover (s : RunState) : Except RunError RunState :=
  match s.phase with
  | .idle => .ok { s with phase := .discovering }
  | _ => s.refuse "discovering_samples"

/-- The first sample follows discovery, every other one its predecessor. -/
def begin (s : RunState) (index total : Nat) : Except RunError RunState :=
  let allowed := match s.phase with
    | .discovering => index == 0
    | .accumulating last _ => index == last + 1
    | _ => false
  if allowed && index < total then .ok { s with phase := .processing index total }
  else s.refuse "processing_sample"

def accumulate (s : RunState) : Except RunError RunState :=
  match s.phase with
  | .processing index total => .ok ⟨.accumulating index total, s.accumulated + 1⟩
  | _ => s.refuse "accumulating"

/-- Without cancellation every sample must have been accumulated. -/
def beginExport (s : RunState) (cancelled : Bool) : Except RunError RunState :=
  match s.phase with
  | .discovering => .ok { s with phase := .exporting cancelled }
  | .accumulating index total =>
    if cancelled ∨ index + 1 = total then .ok { s with phase := .exporting cancelled }
    else s.refuse "exporting"
  | _ => s.refuse "exporting"

def finish (s : RunState) : Except RunError RunState :=
  match s.phase with
  | .exporting true => .ok { s with phase := .cancelled s.accumulated }
  | .exporting false => .ok { s with phase := .done s.accumulated }
  | _ => s.refuse "done"

def fail (s : RunState) (error : RunError) : Except RunError RunState :=
  if s.phase.isTerminal then s.refuse "failed"
  else .ok { s with phase := .failed error.message error.severity }

end RunState

end FlowTally
