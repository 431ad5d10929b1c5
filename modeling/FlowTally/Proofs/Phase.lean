import FlowTally.Phase
import FlowTally.Text.Natural
import Mathlib.Data.List.Induction

/-!
# Transitions in any order

Six transitions are asked for in any order and with any arguments. `Transition.Moves` lists
what each of them can do, and `History` keeps the state with the transitions that were made.
`run_transitions` says what every history leads to: index, total and count agree, a final
phase stays, and whoever exports without cancellation has accumulated all samples.

`Transition.inPlace` writes the transitions as steps that change a state one field after the
other and compute in 64 bits. From every state that a history leads to, each of them answers,
so no number overflows, and one that refuses has changed nothing (`perform?_eq`).
-/

namespace FlowTally

open Text.Natural (bound64)

inductive Transition where
  | discover
  | begin (index total : Fin bound64)
  | accumulate
  | beginExport (cancelled : Bool)
  | finish
  | fail (error : RunError)

/-- Steps on a state in place: what was written before a refusal stays written, and a number that
64 bits do not hold ends them without an answer. -/
abbrev InPlace := ExceptT RunError (StateT RunState Option)

namespace InPlace

def successor (n : Nat) : InPlace Nat :=
  if n + 1 < bound64 then pure (n + 1) else liftM (none : Option Nat)

def moveTo (phase : Phase) : InPlace Unit := modify fun s => { s with phase }

def refuse (target : String) : InPlace Unit := do
  throw (.transition (← get).phase.name target)

def runFrom (s : RunState) (steps : InPlace α) : Option (Except RunError α × RunState) :=
  steps.run.run s

end InPlace

def RunState.Counted (s : RunState) : Prop :=
  match s.phase with
  | .idle | .discovering => s.accumulated = 0
  | .processing index total => index < total ∧ total < bound64 ∧ s.accumulated = index
  | .accumulating index total => index < total ∧ total < bound64 ∧ s.accumulated = index + 1
  | .done samples | .cancelled samples => samples = s.accumulated
  | .exporting _ | .failed .. => True

namespace Transition

open InPlace (successor moveTo refuse runFrom)

def apply (s : RunState) : Transition → Except RunError RunState
  | .discover => s.discover
  | .begin index total => s.begin index total
  | .accumulate => s.accumulate
  | .beginExport cancelled => s.beginExport cancelled
  | .finish => s.finish
  | .fail error => s.fail error

def inPlace : Transition → InPlace Unit
  | .discover => do
    match (← get).phase with
    | .idle => moveTo .discovering
    | _ => refuse "discovering_samples"
  | .begin index total => do
    let allowed ← match (← get).phase with
      | .discovering => pure (index.val == 0)
      | .accumulating last _ => pure (index.val == (← successor last))
      | _ => pure false
    if allowed && index.val < total.val then moveTo (.processing index total)
    else refuse "processing_sample"
  | .accumulate => do
    match (← get).phase with
    | .processing index total =>
      moveTo (.accumulating index total)
      let count ← successor (← get).accumulated
      modify fun s => { s with accumulated := count }
    | _ => refuse "accumulating"
  | .beginExport cancelled => do
    let allowed ← match (← get).phase with
      | .discovering => pure true
      | .accumulating index total =>
        if cancelled then pure true else pure ((← successor index) == total)
      | _ => pure false
    if allowed then moveTo (.exporting cancelled) else refuse "exporting"
  | .finish => do
    match (← get).phase with
    | .exporting cancelled =>
      let samples := (← get).accumulated
      moveTo (if cancelled then .cancelled samples else .done samples)
    | _ => refuse "done"
  | .fail error => do
    if (← get).phase.isTerminal then refuse "failed"
    else moveTo (.failed error.message error.severity)

def perform? (s : RunState) (t : Transition) : Option (Except RunError Unit × RunState) :=
  t.inPlace.runFrom s

def isAccumulate : Transition → Bool
  | .accumulate => true
  | _ => false

/-- Every move that is not refused. -/
inductive Moves : RunState → Transition → RunState → Prop
  | discover : Moves ⟨.idle, n⟩ .discover ⟨.discovering, n⟩
  | first : index.val = 0 → index < total →
      Moves ⟨.discovering, n⟩ (.begin index total) ⟨.processing index total, n⟩
  | next : index.val = last + 1 → index < total →
      Moves ⟨.accumulating last before, n⟩ (.begin index total) ⟨.processing index total, n⟩
  | accumulate : Moves ⟨.processing i t, n⟩ .accumulate ⟨.accumulating i t, n + 1⟩
  | exportNone : Moves ⟨.discovering, n⟩ (.beginExport c) ⟨.exporting c, n⟩
  | exportSome : c = true ∨ i + 1 = t →
      Moves ⟨.accumulating i t, n⟩ (.beginExport c) ⟨.exporting c, n⟩
  | finish : Moves ⟨.exporting c, n⟩ .finish ⟨if c then .cancelled n else .done n, n⟩
  | fail : phase.isTerminal = false →
      Moves ⟨phase, n⟩ (.fail e) ⟨.failed e.message e.severity, n⟩

end Transition

/-- A state with the transitions that have been made. -/
structure History where
  state : RunState := {}
  made : List Transition := []

namespace History

def step (h : History) (t : Transition) : History :=
  match t.apply h.state with
  | .ok s => ⟨s, h.made ++ [t]⟩
  | .error _ => h

def run (ts : List Transition) : History := ts.foldl step {}

def Begun (made : List Transition) : Prop := ∃ index total, .begin index total ∈ made

end History

variable {s s' : RunState} {t : Transition} {n : Nat}

-- ---------------------------------------------------------------------------
-- Steps in place
-- ---------------------------------------------------------------------------

namespace InPlace

@[simp] theorem runFrom_pure (a : α) : runFrom s (pure a) = some (.ok a, s) := rfl

@[simp] theorem runFrom_bind (x : InPlace α) (f : α → InPlace β) :
    runFrom s (x >>= f) =
      match runFrom s x with
      | some (.ok a, s') => runFrom s' (f a)
      | some (.error e, s') => some (.error e, s')
      | none => none := by
  simp only [runFrom, ExceptT.run_bind, StateT.run_bind]
  cases x.run.run s with
  | none => rfl
  | some result =>
    obtain ⟨answer, s'⟩ := result
    cases answer <;> rfl

@[simp] theorem runFrom_get : runFrom s get = some (.ok s, s) := rfl

@[simp] theorem runFrom_modify (f : RunState → RunState) :
    runFrom s (modify f) = some (.ok (), f s) := rfl

@[simp] theorem runFrom_moveTo (phase : Phase) :
    runFrom s (moveTo phase) = some (.ok (), { s with phase }) := rfl

@[simp] theorem runFrom_refuse (target : String) :
    runFrom s (refuse target) = some (.error (.transition s.phase.name target), s) := rfl

theorem runFrom_successor (h : n + 1 < bound64) :
    runFrom s (successor n) = some (.ok (n + 1), s) := by
  rw [successor, if_pos h]
  rfl

end InPlace

namespace Transition

open InPlace (runFrom_bind runFrom_get runFrom_pure runFrom_successor)

/-- From a counted state every transition answers in place as it does at once. What is counted on
from lies below a total, so its successor has 64 bits. -/
theorem perform?_eq (h : s.Counted) (t : Transition) :
    match t.apply s with
    | .ok s' => t.perform? s = some (.ok (), s')
    | .error e => t.perform? s = some (.error e, s) := by
  obtain ⟨phase, accumulated⟩ := s
  cases t with
  | discover => cases phase <;> rfl
  | begin index total =>
    cases phase with
    | discovering =>
      simp only [apply, RunState.begin, perform?, inPlace, runFrom_bind, runFrom_get, runFrom_pure]
      cases index.val == 0 <;> by_cases hlt : index.val < total.val <;> simp [hlt, RunState.refuse]
    | accumulating last before =>
      have hfits : last + 1 < bound64 := Nat.lt_of_le_of_lt h.1 h.2.1
      simp only [apply, RunState.begin, perform?, inPlace, runFrom_bind, runFrom_get, runFrom_pure,
        runFrom_successor hfits]
      cases index.val == last + 1 <;> by_cases hlt : index.val < total.val <;>
        simp [hlt, RunState.refuse]
    | _ => rfl
  | accumulate =>
    cases phase with
    | processing index total =>
      have hcount : accumulated = index := h.2.2
      have hfits : accumulated + 1 < bound64 := hcount ▸ Nat.lt_of_le_of_lt h.1 h.2.1
      simp [apply, RunState.accumulate, perform?, inPlace, runFrom_successor hfits]
    | _ => rfl
  | beginExport cancelled =>
    cases phase with
    | accumulating index total =>
      have hfits : index + 1 < bound64 := Nat.lt_of_le_of_lt h.1 h.2.1
      cases cancelled <;> by_cases hlast : index + 1 = total <;>
        simp [apply, RunState.beginExport, RunState.refuse, perform?, inPlace, runFrom_successor hfits, hlast]
    | _ => rfl
  | finish =>
    cases phase with
    | exporting cancelled => cases cancelled <;> rfl
    | _ => rfl
  | fail error => cases phase <;> rfl

-- ---------------------------------------------------------------------------
-- One move
-- ---------------------------------------------------------------------------

theorem moves_of_apply (h : t.apply s = .ok s') : Moves s t s' := by
  obtain ⟨phase, accumulated⟩ := s
  cases t with
  | discover =>
    cases phase with
    | idle =>
      cases h
      exact .discover
    | _ => cases h
  | begin index total =>
    simp only [apply, RunState.begin, RunState.refuse] at h
    cases phase with
    | discovering =>
      split_ifs at h with hallowed
      cases h
      obtain ⟨hindex, hlt⟩ := Bool.and_eq_true_iff.mp hallowed
      exact .first (eq_of_beq hindex) (of_decide_eq_true hlt)
    | accumulating last before =>
      split_ifs at h with hallowed
      cases h
      obtain ⟨hindex, hlt⟩ := Bool.and_eq_true_iff.mp hallowed
      exact .next (eq_of_beq hindex) (of_decide_eq_true hlt)
    | _ => cases h
  | accumulate =>
    cases phase with
    | processing index total =>
      cases h
      exact .accumulate
    | _ => cases h
  | beginExport cancelled =>
    cases phase with
    | discovering =>
      cases h
      exact .exportNone
    | accumulating index total =>
      simp only [apply, RunState.beginExport] at h
      split at h
      · rename_i hlast
        cases h
        exact .exportSome hlast
      · cases h
    | _ => cases h
  | finish =>
    cases phase with
    | exporting cancelled => cases cancelled <;> cases h <;> exact .finish
    | _ => cases h
  | fail error =>
    simp only [apply, RunState.fail] at h
    split at h
    · cases h
    · rename_i hrunning
      cases h
      exact .fail (Bool.eq_false_iff.mpr hrunning)

theorem Moves.counted (h : Moves s t s') (hs : s.Counted) : s'.Counted := by
  cases h with
  | discover => exact hs
  | first hindex hlt => exact ⟨hlt, Fin.isLt _, hs.trans hindex.symm⟩
  | next hindex hlt => exact ⟨hlt, Fin.isLt _, hs.2.2.trans hindex.symm⟩
  | accumulate => exact ⟨hs.1, hs.2.1, congrArg (· + 1) hs.2.2⟩
  | exportNone | exportSome _ | fail _ => exact trivial
  | @finish cancelled => cases cancelled <;> rfl

/-- Nothing moves out of a final phase. -/
theorem Moves.not_terminal (h : Moves s t s') : s.phase.isTerminal = false := by
  cases h with
  | fail hrunning => exact hrunning
  | _ => rfl

/-- The count goes up with each accumulation and with nothing else. -/
theorem Moves.accumulated (h : Moves s t s') :
    s'.accumulated = s.accumulated + if t.isAccumulate then 1 else 0 := by
  cases h <;> rfl

end Transition

-- ---------------------------------------------------------------------------
-- Histories
-- ---------------------------------------------------------------------------

namespace History

open Transition (Moves)

variable {h : History} {ts more : List Transition} {total : Fin bound64}

theorem run_concat (ts : List Transition) (t : Transition) :
    run (ts ++ [t]) = (run ts).step t := by
  rw [run, List.foldl_append]
  rfl

theorem run_induction {P : History → Prop} (hstart : P {})
    (hmove : ∀ h t s', P h → t ∈ ts → Moves h.state t s' → P ⟨s', h.made ++ [t]⟩) : P (run ts) := by
  induction ts using List.reverseRecOn with
  | nil => exact hstart
  | append_singleton ts t ih =>
    have hrun := ih fun h t s' hp hm => hmove h t s' hp (List.mem_append_left _ hm)
    rw [run_concat, step]
    split
    · rename_i s' happly
      exact hmove _ _ _ hrun (List.mem_concat_self ..) (Transition.moves_of_apply happly)
    · exact hrun

theorem run_counted (ts : List Transition) : (run ts).state.Counted :=
  run_induction (P := (·.state.Counted)) rfl fun _ _ _ hcounted _ hmove => hmove.counted hcounted

theorem run_accumulated (ts : List Transition) :
    (run ts).state.accumulated = (run ts).made.countP Transition.isAccumulate := by
  refine run_induction (P := fun h => h.state.accumulated = h.made.countP Transition.isAccumulate)
    rfl fun h t s' hcount _ hmove => ?_
  rw [hmove.accumulated, hcount, List.countP_append, List.countP_singleton]

theorem run_final (hfinal : (run ts).state.phase.isTerminal = true) (more : List Transition) :
    run (ts ++ more) = run ts := by
  induction more using List.reverseRecOn with
  | nil => rw [List.append_nil]
  | append_singleton more t ih =>
    rw [← List.append_assoc, run_concat, ih, step]
    split
    · rename_i s' happly
      rw [(Transition.moves_of_apply happly).not_terminal] at hfinal
      cases hfinal
    · rfl

/-- What is known of the total that all samples were begun with, until the export and after it. -/
structure Whole (total : Fin bound64) (h : History) : Prop where
  counted : h.state.Counted
  running : match h.state.phase with
    | .idle | .discovering => ¬ Begun h.made ∧ .beginExport false ∉ h.made
    | .processing _ begun | .accumulating _ begun => begun = total ∧ .beginExport false ∉ h.made
    | _ => True
  exported : .beginExport false ∈ h.made → ¬ Begun h.made ∨ h.state.accumulated = total

theorem begun_concat {made : List Transition} {t : Transition} :
    Begun (made ++ [t]) ↔ Begun made ∨ ∃ index total, t = .begin index total := by
  simp [Begun, exists_or, eq_comm]

theorem Whole.move {t : Transition} {s : RunState} (hw : h.Whole total) (hmove : Moves h.state t s)
    (ht : ∀ index other, t = .begin index other → other = total) :
    Whole total ⟨s, h.made ++ [t]⟩ := by
  obtain ⟨⟨phase, accumulated⟩, made⟩ := h
  obtain ⟨hcounted, hrunning, hexported⟩ := hw
  refine ⟨hmove.counted hcounted, ?_, fun hexport => ?_⟩
  · cases hmove with
    | discover => exact ⟨by simpa [begun_concat] using hrunning.1, by simpa using hrunning.2⟩
    | first | next => exact ⟨congrArg Fin.val (ht _ _ rfl), by simpa using hrunning.2⟩
    | accumulate => exact ⟨hrunning.1, by simpa using hrunning.2⟩
    | @finish cancelled => cases cancelled <;> exact trivial
    | _ => exact trivial
  · rcases List.mem_append.mp hexport with hbefore | hnow
    · -- The export was begun before, so all that is left is to finish or to fail.
      cases hmove with
      | finish | fail => exact (hexported hbefore).imp_left (by simp [begun_concat])
      | _ => exact absurd hbefore hrunning.2
    · obtain rfl := List.mem_singleton.mp hnow
      cases hmove with
      | exportNone => exact .inl (by simpa [begun_concat] using hrunning.1)
      | exportSome hlast =>
        have hlast := hlast.resolve_left Bool.false_ne_true
        exact .inr (hcounted.2.2.trans (hlast.trans hrunning.1))

theorem run_whole (hts : ∀ index other, .begin index other ∈ ts → other = total) :
    (run ts).Whole total := by
  refine run_induction ⟨rfl, ⟨?_, List.not_mem_nil⟩, fun hm => absurd hm List.not_mem_nil⟩
    fun h t s' hw hm hmove => hw.move hmove fun index other ht => hts index other (ht ▸ hm)
  rintro ⟨index, other, hm⟩
  exact List.not_mem_nil hm

/-- In every history the numbers in a phase agree with the count of accumulated samples, so that
each transition, computed in 64 bits, answers, and changes nothing when it refuses. Final phases
stay. If all samples were begun with one total, a run that exports without cancellation has begun
none or accumulated that many. -/
theorem run_transitions (ts : List Transition) :
    let h := run ts
    h.state.Counted ∧
      h.state.accumulated = h.made.countP Transition.isAccumulate ∧
      (∀ t : Transition, match t.apply h.state with
        | .ok s => t.perform? h.state = some (.ok (), s)
        | .error e => t.perform? h.state = some (.error e, h.state)) ∧
      (h.state.phase.isTerminal = true → ∀ more, (run (ts ++ more)).state = h.state) ∧
      ∀ total : Fin bound64, (∀ index other, .begin index other ∈ ts → other = total) →
        .beginExport false ∈ h.made → ¬ Begun h.made ∨ h.state.accumulated = total :=
  ⟨run_counted ts, run_accumulated ts, fun t => Transition.perform?_eq (run_counted ts) t,
    fun hfinal more => congrArg state (run_final hfinal more),
    fun _ hts => (run_whole hts).exported⟩

def strayTransitions : List Transition :=
  [.accumulate, .discover, .begin 1 2, .begin 0 2, .beginExport false, .accumulate,
    .begin (Fin.last _) 2, .beginExport false, .begin 1 2, .accumulate, .begin 2 2,
    .beginExport false, .begin 0 2, .finish, .fail (.connection "late")]

theorem run_transitions_stray :
    (run strayTransitions).state = ⟨.done 2, 2⟩ ∧
      .beginExport false ∈ (run strayTransitions).made ∧
      (run (strayTransitions ++ strayTransitions)).state = ⟨.done 2, 2⟩ ∧
      (¬ Begun (run strayTransitions).made ∨ (run strayTransitions).state.accumulated = 2) := by
  have hstate : (run strayTransitions).state = ⟨.done 2, 2⟩ := rfl
  have hmade : (run strayTransitions).made = [.discover, .begin 0 2, .accumulate, .begin 1 2,
      .accumulate, .beginExport false, .finish] := rfl
  have hexport : .beginExport false ∈ (run strayTransitions).made := by simp [hmade]
  have htotal : ∀ index other, Transition.begin index other ∈ strayTransitions → other = 2 := by
    intro index other hm
    simp only [strayTransitions, List.mem_cons, Transition.begin.injEq, reduceCtorEq, false_or,
      List.not_mem_nil, or_false] at hm
    tauto
  obtain ⟨-, -, -, hfinal, hwhole⟩ := run_transitions strayTransitions
  refine ⟨hstate, hexport, ?_, hwhole 2 htotal hexport⟩
  rw [hfinal (by rw [hstate]; rfl), hstate]

end History

end FlowTally
