import FlowTally.Text.Natural
import Mathlib.Tactic.IntervalCases

/-!
# Digits and their values

A number is written as the characters of its digit values; a reader goes from
left to right and appends one value after the other. So every fact about a
reader of digits is a fact about lists of values: `fold base` is the number
that values stand for, `valuesOf base n` are those of `n`, and zeros in front
change nothing (`fold_padded`).
-/

namespace FlowTally.Text.Natural

abbrev chars (ds : List Nat) : List Char := ds.map Nat.digitChar

def fold (base : Nat) (n : Nat) (ds : List Nat) : Nat := ds.foldl (fun n d => n * base + d) n

def valuesOf (base n : Nat) : List Nat := (Nat.toDigits base n).map fun c => (digit? base c).getD 0

variable {base bound width n d : Nat} {ds : List Nat}

theorem digit?_digitChar (hb : base ≤ 16) (hd : d < base) : digit? base d.digitChar = some d := by
  have h16 : d < 16 := Nat.lt_of_lt_of_le hd hb
  interval_cases d <;> simp [digit?, Nat.digitChar, hd]

theorem digitChar_ne_plus (hd : d < 16) : d.digitChar ≠ '+' := by
  interval_cases d <;> decide

-- ---------------------------------------------------------------------------
-- Values
-- ---------------------------------------------------------------------------

theorem fold_append (n : Nat) (xs ys : List Nat) :
    fold base n (xs ++ ys) = fold base (fold base n xs) ys := List.foldl_append

theorem le_fold (hb : 0 < base) (n : Nat) (ds : List Nat) : n ≤ fold base n ds := by
  induction ds generalizing n with
  | nil => exact Nat.le_refl n
  | cons d ds ih =>
    have hstep :
        n ≤ n * base + d := Nat.le_trans (Nat.le_mul_of_pos_right n hb) (Nat.le_add_right ..)
    exact Nat.le_trans hstep (ih _)

theorem valuesOf_eq_if (hb : 1 < base) (hb' : base ≤ 16) (n : Nat) :
    valuesOf base n = if n < base then [n] else valuesOf base (n / base) ++ [n % base] := by
  unfold valuesOf
  rw [Nat.toDigits_eq_if hb]
  split
  · rename_i h
    simp [digit?_digitChar hb' h]
  · have hmod : n % base < base := Nat.mod_lt _ (by omega)
    simp [digit?_digitChar hb' hmod]

theorem toDigits_eq_chars (hb : 1 < base) (hb' : base ≤ 16) (n : Nat) :
    Nat.toDigits base n = chars (valuesOf base n) := by
  induction n using Nat.strongRecOn with
  | ind n ih =>
    rw [Nat.toDigits_eq_if hb, valuesOf_eq_if hb hb']
    split
    · rfl
    · rename_i h
      rw [ih (n / base) (Nat.div_lt_self (by omega) hb)]
      simp [chars]

theorem lt_of_mem_valuesOf (hb : 1 < base) (hb' : base ≤ 16) (hd : d ∈ valuesOf base n) :
    d < base := by
  induction n using Nat.strongRecOn with
  | ind n ih =>
    rw [valuesOf_eq_if hb hb'] at hd
    split at hd
    · rename_i h
      cases List.mem_singleton.mp hd
      exact h
    · rename_i h
      rcases List.mem_append.mp hd with hd | hd
      · exact ih (n / base) (Nat.div_lt_self (by omega) hb) hd
      · cases List.mem_singleton.mp hd
        exact Nat.mod_lt _ (by omega)

theorem fold_valuesOf (hb : 1 < base) (hb' : base ≤ 16) (n : Nat) :
    fold base 0 (valuesOf base n) = n := by
  induction n using Nat.strongRecOn with
  | ind n ih =>
    rw [valuesOf_eq_if hb hb']
    split
    · simp [fold]
    · rename_i h
      rw [fold_append, ih (n / base) (Nat.div_lt_self (by omega) hb)]
      exact Nat.div_add_mod' n base

theorem valuesOf_ne_nil (hb : 1 < base) (hb' : base ≤ 16) (n : Nat) : valuesOf base n ≠ [] := by
  rw [valuesOf_eq_if hb hb']
  split <;> simp

theorem valuesOf_head_eq_zero (hb : 1 < base) (hb' : base ≤ 16)
    (h : (valuesOf base n).head? = some 0) : n = 0 := by
  induction n using Nat.strongRecOn with
  | ind n ih =>
    rw [valuesOf_eq_if hb hb'] at h
    split at h
    · simpa using h
    · rename_i hn
      rw [List.head?_append, Option.or_of_isSome (by simp [valuesOf_ne_nil hb hb'])] at h
      have hzero := ih (n / base) (Nat.div_lt_self (by omega) hb) h
      have hlt := (Nat.div_eq_zero_iff_lt (by omega)).mp hzero
      exact absurd hlt hn

def padded (base width n : Nat) : List Nat :=
  List.replicate (width - (valuesOf base n).length) 0 ++ valuesOf base n

theorem chars_padded (hb : 1 < base) (hb' : base ≤ 16) (width n : Nat) :
    List.replicate (width - (Nat.toDigits base n).length) '0' ++ Nat.toDigits base n =
      chars (padded base width n) := by
  have hlength : (Nat.toDigits base n).length = (valuesOf base n).length := by simp [valuesOf]
  rw [hlength, toDigits_eq_chars hb hb']
  simp [padded, chars]

theorem lt_of_mem_padded (hb : 1 < base) (hb' : base ≤ 16) (hd : d ∈ padded base width n) :
    d < base := by
  rcases List.mem_append.mp hd with hd | hd
  · rw [(List.mem_replicate.mp hd).2]
    omega
  · exact lt_of_mem_valuesOf hb hb' hd

theorem fold_padded (hb : 1 < base) (hb' : base ≤ 16) (width n : Nat) :
    fold base 0 (padded base width n) = n := by
  have hzeros : ∀ k, fold base 0 (List.replicate k 0) = 0 := by
    intro k
    induction k with
    | zero => rfl
    | succ k ih => simpa [fold, List.replicate_succ] using ih
  rw [padded, fold_append, hzeros, fold_valuesOf hb hb']

theorem fold_eq (n : Nat) (ds : List Nat) :
    fold base n ds = n * base ^ ds.length + fold base 0 ds := by
  induction ds generalizing n with
  | nil => simp [fold]
  | cons d ds ih =>
    have hhead : fold base n (d :: ds) = fold base (n * base + d) ds := rfl
    have hzero : fold base 0 (d :: ds) = fold base (0 * base + d) ds := rfl
    rw [hhead, hzero, ih, ih (0 * base + d), List.length_cons, Nat.pow_succ]
    grind

theorem length_padded (hb : 1 < base) (hw : 0 < width) (hn : n < base ^ width) :
    (padded base width n).length = width := by
  have hle := (Nat.length_toDigits_le_iff hb hw).mpr hn
  have hlength : (valuesOf base n).length = (Nat.toDigits base n).length := by simp [valuesOf]
  rw [padded, List.length_append, List.length_replicate]
  omega

theorem fold_padded_from (hb : 1 < base) (hb' : base ≤ 16) (hw : 0 < width) (m : Nat)
    (hn : n < base ^ width) : fold base m (padded base width n) = m * base ^ width + n := by
  rw [fold_eq, length_padded hb hw hn, fold_padded hb hb']

-- ---------------------------------------------------------------------------
-- Reading
-- ---------------------------------------------------------------------------

theorem readDigits_chars (hb : 0 < base) (hb' : base ≤ 16) (hds : ∀ d ∈ ds, d < base)
    (h : fold base n ds < bound) : readDigits base bound n (chars ds) = .ok (fold base n ds) := by
  induction ds generalizing n with
  | nil => rfl
  | cons d ds ih =>
    obtain ⟨hd, hds⟩ := List.forall_mem_cons.mp hds
    have hfits : n * base + d < bound := Nat.lt_of_le_of_lt (le_fold hb _ ds) h
    simp only [chars, List.map_cons, readDigits, digit?_digitChar hb' hd, if_pos hfits]
    exact ih hds h

theorem readDigits_lt {cs : List Char} {m : Nat} (h : readDigits base bound n cs = .ok m)
    (hn : n < bound) : m < bound := by
  induction cs generalizing n with
  | nil =>
    cases h
    exact hn
  | cons c cs ih =>
    rw [readDigits] at h
    split at h
    · cases h
    · split at h
      · rename_i hfits
        exact ih h hfits
      · cases h

theorem read_lt {cs : List Char} (hb : 0 < bound) (h : read bound cs = .ok n) : n < bound := by
  unfold read readBase at h
  split at h
  · cases h
  · cases h
  · exact readDigits_lt h hb
  · exact readDigits_lt h hb

theorem read_digits (h : n < bound) : read bound (digits n) = .ok n := by
  have hds : ∀ d ∈ valuesOf 10 n, d < 10 := fun d hd =>
    lt_of_mem_valuesOf (by decide) (by decide) hd
  have hfold : fold 10 0 (valuesOf 10 n) = n := fold_valuesOf (by decide) (by decide) n
  have hread := readDigits_chars (n := 0) (by decide) (by decide) hds (by rwa [hfold])
  rw [hfold] at hread
  rw [digits, toDigits_eq_chars (by decide) (by decide)]
  cases hv : valuesOf 10 n with
  | nil => exact absurd hv (valuesOf_ne_nil (by decide) (by decide) n)
  | cons d ds =>
    rw [hv] at hread hds
    have hplus : d.digitChar ≠ '+' :=
      digitChar_ne_plus (Nat.lt_trans (hds d (List.mem_cons_self ..)) (by decide))
    unfold read readBase
    split
    · rename_i h
      cases h
    · rename_i h
      exact absurd (List.cons.inj h).1 hplus
    · rename_i h
      exact absurd (List.cons.inj h).1 hplus
    · exact hread

end FlowTally.Text.Natural
