import FlowTally.Proofs.Except
import FlowTally.Proofs.Yaml.Scalar
import FlowTally.Yaml.Token
import Mathlib.Data.List.TakeWhile

/-!
# Scanning from line to line

Before each token the scanner passes white space, drops what can no longer be a
key and closes the blocks further right. `Scans` follows it from one state that
is settled in this way to a later one, and `atText` is the settled state at the
start of a line. A whole text is scanned as its lines are (`scan_eq`).
-/

namespace FlowTally.Yaml

variable {cs rest text : List Char} {c : Char} {m : Mark} {n k column : Nat}
  {tokens : List Token} {blocks : List Nat} {allowed : Bool} {candidate : Option Candidate}

-- ---------------------------------------------------------------------------
-- Lines
-- ---------------------------------------------------------------------------

def indentOf (text : List Char) : Nat := (text.takeWhile (· == ' ')).length

/-- A text behind the spaces at its start. -/
def bodyOf (text : List Char) : List Char := text.dropWhile (· == ' ')

theorem indent_body (text : List Char) :
    List.replicate (indentOf text) ' ' ++ bodyOf text = text := by
  have hspaces : text.takeWhile (· == ' ') = List.replicate (indentOf text) ' ' := by
    refine List.eq_replicate_iff.mpr ⟨rfl, fun c hc => ?_⟩
    simpa using List.mem_takeWhile_imp hc
  rw [← hspaces]
  exact List.takeWhile_append_dropWhile

theorem length_bodyOf_le (text : List Char) : (bodyOf text).length ≤ text.length :=
  (List.dropWhile_sublist _).length_le

theorem indented (h : StartsLine text) (k : Nat) :
    indentOf (List.replicate k ' ' ++ text) = k ∧
      bodyOf (List.replicate k ' ' ++ text) = text := by
  induction k with
  | zero =>
    cases text with
    | nil => exact ⟨rfl, rfl⟩
    | cons c cs =>
      have hspace : (c == ' ') = false := (Bool.or_eq_false_iff.mp (h c rfl).1).1
      simp [indentOf, bodyOf, hspace]
  | succ k ih => exact ⟨congrArg (· + 1) ih.1, ih.2⟩

/-- A text whose first line is no further right than a column and holds more than a comment. -/
structure NextLine (column : Nat) (text : List Char) : Prop where
  indent : indentOf text < column
  body : StartsLine (bodyOf text)

theorem nextLine_indented (h : StartsLine text) (hk : k < column) :
    NextLine column (List.replicate k ' ' ++ text) := by
  obtain ⟨hindent, hbody⟩ := indented h k
  constructor
  · rwa [hindent]
  · rwa [hbody]

namespace Scanner

-- ---------------------------------------------------------------------------
-- Runs
-- ---------------------------------------------------------------------------

/-- White space is passed, keys are known, and blocks further right are closed. -/
def settle (s : Scanner) : Except Fault Scanner :=
  s.skipGap.refreshKeys.map fun s => s.unroll (s.mark.column + 1)

def go (s : Scanner) (fuel : Nat) : Except Fault (List Token) :=
  match s.rest with
  | [] => (s.unroll 0).dropKey.map (·.tokens.reverse)
  | c :: rest => (s.token c rest).bind fun s => s.run fuel

@[simp] theorem unroll_rest (s : Scanner) (keep : Nat) : (s.unroll keep).rest = s.rest := by
  rw [unroll]
  split <;> rfl

theorem length_gapFrom_le (flow comment allowed : Bool) (m : Mark) (cs : List Char) :
    (gapFrom flow comment allowed m cs).2.2.length ≤ cs.length := by
  induction cs generalizing comment allowed m with
  | nil => exact Nat.le_refl _
  | cons c cs ih =>
    rw [gapFrom]
    split_ifs
    · exact Nat.le_succ_of_le (ih ..)
    · exact Nat.le_succ_of_le (ih ..)
    · exact Nat.le_succ_of_le (ih ..)
    · exact Nat.le_refl _

theorem length_settle_le {s t : Scanner} (h : s.settle = .ok t) :
    t.rest.length ≤ s.rest.length := by
  obtain ⟨u, hkeys, rfl⟩ := map_ok.mp h
  obtain ⟨candidate, -, hkeys⟩ := bind_ok.mp hkeys
  obtain ⟨outer, -, rfl⟩ := map_ok.mp hkeys
  rw [unroll_rest]
  exact length_gapFrom_le ..

theorem run_succ (s : Scanner) (fuel : Nat) :
    s.run (fuel + 1) = s.settle.bind fun t => t.go fuel := by
  rw [run, settle]
  cases s.skipGap.refreshKeys <;> rfl

/-- From one settled state to a later one, token by token. -/
inductive Scans : Scanner → Scanner → Prop
  | refl (s : Scanner) : Scans s s
  | step {s s' t u : Scanner} {c : Char} {rest : List Char} (hrest : s.rest = c :: rest)
    (htoken : s.token c rest = .ok s') (hless : s'.rest.length < s.rest.length)
    (hsettle : s'.settle = .ok t) (h : Scans t u) : Scans s u

theorem Scans.trans {s t u : Scanner} (h : Scans s t) (h' : Scans t u) : Scans s u := by
  induction h with
  | refl => exact h'
  | step hrest htoken hless hsettle _ ih => exact .step hrest htoken hless hsettle (ih h')

/-- Each token takes a character, so fuel for each character is enough. -/
theorem Scans.go_eq {s t : Scanner} (h : Scans s t) {fuel : Nat} (hfuel : s.rest.length ≤ fuel) :
    ∃ left, s.go fuel = t.go left := by
  induction h generalizing fuel with
  | refl => exact ⟨fuel, rfl⟩
  | @step s s' t u c rest hrest htoken hless hsettle _ ih =>
    cases fuel with
    | zero => exact absurd (Nat.lt_of_lt_of_le hless hfuel) (Nat.not_lt_zero _)
    | succ fuel =>
      have hshorter := length_settle_le hsettle
      obtain ⟨left, hgo⟩ := ih (show t.rest.length ≤ fuel by omega)
      refine ⟨left, ?_⟩
      rw [Scanner.go, hrest]
      simp only [htoken, Except.bind, run_succ, hsettle]
      exact hgo

-- ---------------------------------------------------------------------------
-- Settling
-- ---------------------------------------------------------------------------

def standing (m : Mark) (rest : List Char) (tokens : List Token) (blocks : List Nat)
    (allowed : Bool) : Scanner :=
  { mark := m, rest, tokens, blocks, keyAllowed := allowed }

def atText (n : Nat) (text : List Char) (tokens : List Token) (blocks : List Nat) : Scanner :=
  (standing ⟨n, indentOf text⟩ (bodyOf text) tokens blocks true).unroll (indentOf text + 1)

/-- A candidate for a key that may be dropped when its line ends. -/
def Droppable (line : Nat) (candidate : Option Candidate) : Prop :=
  ∀ k ∈ candidate, k.required = false ∧ k.mark.line = line

theorem gapFrom_here (hrest : StartsLine cs) (flow : Bool) (m : Mark) :
    gapFrom flow false allowed m cs = (allowed, m, cs) := by
  cases cs with
  | nil => rfl
  | cons c cs =>
    obtain ⟨hblank, hbreak, hsign⟩ := hrest c rfl
    simp only [isBlank, Bool.or_eq_false_iff] at hblank
    simp [gapFrom, hbreak, hblank, hsign]

theorem gapFrom_spaces (hrest : StartsLine cs) (allowed : Bool) (k : Nat) (m : Mark) :
    gapFrom false false allowed m (List.replicate k ' ' ++ cs) = (allowed, m.skip k, cs) := by
  induction k generalizing m with
  | zero => exact gapFrom_here hrest false m
  | succ k ih =>
    rw [List.replicate_succ, List.cons_append, gapFrom]
    have hnext := ih (m.skip 1)
    rwa [Mark.skip_skip, Nat.add_comm] at hnext

theorem gapFrom_text (hbody : StartsLine (bodyOf text)) (allowed : Bool) (m : Mark) :
    gapFrom false false allowed m ('\n' :: text) =
      (true, ⟨m.line + 1, indentOf text⟩, bodyOf text) := by
  have hspaces := gapFrom_spaces hbody true (indentOf text) ⟨m.line + 1, 0⟩
  rw [indent_body] at hspaces
  rw [gapFrom]
  simpa [isBreak, Mark.after, Mark.skip] using hspaces

theorem refresh_droppable (h : Droppable m.line candidate) (k : Nat) :
    Candidate.refresh ⟨m.line + 1, k⟩ candidate = .ok none := by
  cases candidate with
  | none => rfl
  | some key =>
    obtain ⟨hrequired, hline⟩ := h key rfl
    simp [Candidate.refresh, hline, hrequired]

theorem unroll_floor {s : Scanner} {keep : Nat} (h : s.floor ≤ keep) : s.unroll keep = s := by
  obtain ⟨m, rest, tokens, blocks, allowed, candidate, outer⟩ := s
  rw [unroll]
  split
  · rfl
  · cases blocks with
    | nil => rfl
    | cons b blocks =>
      have hb : decide (keep < b) = false := by simpa [floor] using h
      simp [hb]

theorem settle_eq {s : Scanner} {m : Mark} (houter : s.outer = [])
    (hgap : gapFrom false false s.keyAllowed s.mark s.rest = (allowed, m, rest))
    (hcandidate : Candidate.refresh m s.candidate = .ok candidate) :
    s.settle = .ok (({ s with mark := m, rest, keyAllowed := allowed, candidate } :
      Scanner).unroll (m.column + 1)) := by
  have hflow : s.inFlow = false := by simp [inFlow, houter]
  have hskip : s.skipGap = { s with mark := m, rest, keyAllowed := allowed } := by
    rw [skipGap, hflow, hgap]
  have hkeys : refreshKeys { s with mark := m, rest, keyAllowed := allowed } =
      .ok { s with mark := m, rest, keyAllowed := allowed, candidate } := by
    simp only [refreshKeys, hcandidate, houter]
    rfl
  rw [settle, hskip, hkeys]
  rfl

theorem settle_here {s : Scanner} (houter : s.outer = []) (hrest : StartsLine s.rest)
    (hfloor : s.floor ≤ s.mark.column + 1)
    (hcandidate : Candidate.refresh s.mark s.candidate = .ok s.candidate) : s.settle = .ok s := by
  rw [settle_eq houter (gapFrom_here hrest false s.mark) hcandidate]
  exact congrArg _ (unroll_floor hfloor)

theorem settle_newline {s : Scanner} (houter : s.outer = []) (hrest : s.rest = '\n' :: text)
    (hcandidate : Droppable s.mark.line s.candidate) (hbody : StartsLine (bodyOf text)) :
    s.settle = .ok (atText (s.mark.line + 1) text s.tokens s.blocks) := by
  have hgap := gapFrom_text hbody s.keyAllowed s.mark
  rw [← hrest] at hgap
  rw [settle_eq houter hgap (refresh_droppable hcandidate _), houter]
  rfl

/-- A line that closes no block. -/
theorem atText_indented (h : StartsLine text) (hfloor : blocks.headD 0 ≤ k + 1) :
    atText n (List.replicate k ' ' ++ text) tokens blocks =
      standing ⟨n, k⟩ text tokens blocks true := by
  obtain ⟨hindent, hbody⟩ := indented h k
  rw [atText, hindent, hbody]
  exact unroll_floor hfloor

theorem settle_space (hrest : StartsLine rest) (hfloor : blocks.headD 0 ≤ m.column + 2) :
    (standing m (' ' :: rest) tokens blocks allowed).settle =
      .ok (standing (m.skip 1) rest tokens blocks allowed) := by
  have hgap := gapFrom_spaces hrest allowed 1 m
  exact (settle_eq rfl hgap rfl).trans (congrArg _ (unroll_floor hfloor))

-- ---------------------------------------------------------------------------
-- Whole texts
-- ---------------------------------------------------------------------------

theorem normal_printable (h : ∀ c ∈ text, isPrintable c = true) : normal text = text := by
  have hne {c d : Char} (hc : isPrintable c = true) (hd : isPrintable d = false) : c ≠ d := by
    rintro rfl
    cases hc.symm.trans hd
  induction text with
  | nil => rfl
  | cons c cs ih =>
    have hc := h c (.head _)
    have hreturn : c ≠ '\r' := hne hc (by decide)
    have hnext : c ≠ '\u0085' := hne hc (by decide)
    rw [normal, ih fun d hd => h d (.tail _ hd)]
    · simp [hreturn, hnext]
    · rintro _ rfl
      exact absurd rfl hreturn

theorem allowed_of_printable (h : isPrintable c = true) : isAllowed c = true := by
  simp only [isPrintable, isAllowed, Bool.or_eq_true, Bool.and_eq_true, beq_iff_eq, bne_iff_ne,
    decide_eq_true_eq] at h ⊢
  omega

/-- A text without characters of a special meaning is scanned from its first line to its end. -/
theorem scan_eq (hprintable : ∀ c ∈ text, isPrintable c = true) (hstart : StartsLine text)
    (h : Scans (standing ⟨0, 0⟩ text [] [] true) (atText n [] tokens [1])) :
    Token.scan text = .ok (tokens.reverse ++ [.blockEnd]) := by
  have hallowed : forbidden? text = none := by
    rw [forbidden?, List.find?_eq_none]
    exact fun c hc => by simpa using allowed_of_printable (hprintable c hc)
  have hfirst : start text = standing ⟨0, 0⟩ text [] [] true := by
    unfold start
    split
    · exact absurd (hprintable _ (.head _)) (by decide)
    · rfl
  have hsettle : (standing ⟨0, 0⟩ text [] [] true).settle = .ok _ :=
    settle_here rfl hstart (Nat.zero_le _) rfl
  obtain ⟨left, hgo⟩ := h.go_eq (Nat.le_refl _)
  rw [Token.scan, hallowed]
  simp only [normal_printable hprintable, hfirst, run_succ, hsettle, Except.bind]
  have hend : (atText n [] tokens [1]).go left = .ok (.blockEnd :: tokens).reverse := rfl
  rw [hend, List.reverse_cons] at hgo
  exact hgo

end Scanner

end FlowTally.Yaml
