import FlowTally.Pattern.Match
import Mathlib.Data.Nat.Bitwise

/-!
# The matcher and the language of an expression

`testBit_advance`: the matcher moves a set of places to exactly the places where a span that
starts in the set ends. Repetitions are runs of steps, and a repetition without a bound needs no
more steps than there are characters, since a step that stays where it is can be left out. So
`search_iff`: a search succeeds exactly if some part of the text is in the language.
-/

namespace FlowTally.Pattern

variable {chars : List Char} {r body : Regex} {places i j k least n : Nat} {most : Option Nat}
  {step : Nat → Nat} {R : Nat → Nat → Prop}

-- ---------------------------------------------------------------------------
-- Sets of places
-- ---------------------------------------------------------------------------

theorem testBit_allPlaces : (allPlaces n).testBit i = true ↔ i ≤ n := by
  change (2 ^ (n + 1) - 1).testBit i = true ↔ _
  rw [Nat.testBit_two_pow_sub_one, decide_eq_true_eq, Nat.lt_succ_iff]

theorem testBit_single (i j : Nat) : (Nat.pow 2 i).testBit j = true ↔ i = j := by
  change (2 ^ i).testBit j = true ↔ _
  rw [Nat.testBit_two_pow, decide_eq_true_eq]

theorem testBit_placesOf (set : CharSet) (start : Nat) (chars : List Char) :
    (placesOf set start chars).testBit i = true ↔
      ∃ k c, i = start + k ∧ chars[k]? = some c ∧ set.contains c = true := by
  induction chars generalizing start with
  | nil => simp [placesOf]
  | cons d ds ih =>
    rw [placesOf, Nat.testBit_or, Bool.or_eq_true, ih]
    constructor
    · rintro (h | ⟨k, c, rfl, hc, hset⟩)
      · split at h
        · rename_i hset
          exact ⟨0, d, ((testBit_single start i).mp h).symm, rfl, hset⟩
        · simp at h
      · exact ⟨k + 1, c, by omega, hc, hset⟩
    · rintro ⟨k, c, rfl, hc, hset⟩
      cases k with
      | zero =>
        obtain rfl : d = c := by simpa using hc
        rw [if_pos hset]
        exact .inl ((testBit_single _ _).mpr rfl)
      | succ k => exact .inr ⟨k, c, by omega, by simpa using hc, hset⟩

theorem testBit_placesWhere (condition : Look) (start : Nat) (before : Option Char)
    (chars : List Char) :
    (placesWhere condition start before chars).testBit i = true ↔
      ∃ k ≤ chars.length, i = start + k ∧
        condition.holds (if k = 0 then before else chars[k - 1]?) chars[k]? = true := by
  induction chars generalizing start before with
  | nil =>
    rw [placesWhere]
    constructor
    · intro h
      split at h
      · rename_i hholds
        exact ⟨0, by simp, ((testBit_single start i).mp h).symm, hholds⟩
      · simp at h
    · rintro ⟨k, hk, rfl, hholds⟩
      obtain rfl : k = 0 := by simpa using hk
      have hhere : condition.holds before none = true := by simpa using hholds
      rw [if_pos hhere]
      exact (testBit_single _ _).mpr rfl
  | cons d ds ih =>
    rw [placesWhere, Nat.testBit_or, Bool.or_eq_true, ih]
    constructor
    · rintro (h | ⟨k, hk, rfl, hholds⟩)
      · split at h
        · rename_i hholds
          exact ⟨0, by simp, ((testBit_single start i).mp h).symm, hholds⟩
        · simp at h
      · refine ⟨k + 1, by simpa using hk, by omega, ?_⟩
        cases k with
        | zero => simpa using hholds
        | succ k => simpa using hholds
    · rintro ⟨k, hk, rfl, hholds⟩
      cases k with
      | zero =>
        have hhere : condition.holds before (some d) = true := by simpa using hholds
        rw [if_pos hhere]
        exact .inl ((testBit_single _ _).mpr rfl)
      | succ k =>
        refine .inr ⟨k, by simpa using hk, by omega, ?_⟩
        cases k with
        | zero => simpa using hholds
        | succ k => simpa using hholds

-- ---------------------------------------------------------------------------
-- Repeated steps
-- ---------------------------------------------------------------------------

/-- From one place to another in a number of steps. -/
def Steps (R : Nat → Nat → Prop) : Nat → Nat → Nat → Prop
  | 0, i, j => i = j
  | n + 1, i, k => ∃ j, R i j ∧ Steps R n j k

theorem Steps.split (m : Nat) (h : Steps R (m + n) i k) : ∃ j, Steps R m i j ∧ Steps R n j k := by
  induction m generalizing i with
  | zero => exact ⟨i, rfl, by simpa using h⟩
  | succ m ih =>
    rw [Nat.succ_add] at h
    obtain ⟨next, hnext, h⟩ := h
    obtain ⟨j, hfirst, hsecond⟩ := ih h
    exact ⟨j, ⟨next, hnext, hfirst⟩, hsecond⟩

theorem Steps.join (m : Nat) (hfirst : Steps R m i j) (hsecond : Steps R n j k) :
    Steps R (m + n) i k := by
  induction m generalizing i with
  | zero =>
    cases hfirst
    simpa using hsecond
  | succ m ih =>
    obtain ⟨next, hnext, hfirst⟩ := hfirst
    rw [Nat.succ_add]
    exact ⟨next, hnext, ih hfirst⟩

theorem Steps.shorten (hR : ∀ i j, R i j → i ≤ j) (h : Steps R n i j) :
    i ≤ j ∧ ∃ m ≤ j - i, Steps R m i j := by
  induction n generalizing i with
  | zero =>
    cases h
    exact ⟨le_rfl, 0, by omega, rfl⟩
  | succ n ih =>
    obtain ⟨next, hnext, h⟩ := h
    obtain ⟨hle, m, hm, hsteps⟩ := ih h
    have hfirst := hR i next hnext
    refine ⟨by omega, ?_⟩
    by_cases hstay : next = i
    · subst hstay
      exact ⟨m, hm, hsteps⟩
    · exact ⟨m + 1, by omega, next, hnext, hsteps⟩

/-- A function on sets of places follows a relation between places. -/
def Follows (step : Nat → Nat) (R : Nat → Nat → Prop) : Prop :=
  ∀ places j, (step places).testBit j = true ↔ ∃ i, places.testBit i = true ∧ R i j

theorem testBit_exactly (h : Follows step R) :
    (exactly step n places).testBit j = true ↔ ∃ i, places.testBit i = true ∧ Steps R n i j := by
  induction n generalizing places with
  | zero => simp [exactly, Steps]
  | succ n ih =>
    rw [exactly]
    split
    · rename_i hzero
      simp [hzero]
    · rw [ih]
      constructor
      · rintro ⟨next, hnext, hsteps⟩
        obtain ⟨i, hi, hR⟩ := (h places next).mp hnext
        exact ⟨i, hi, next, hR, hsteps⟩
      · rintro ⟨i, hi, next, hR, hsteps⟩
        exact ⟨next, (h places next).mpr ⟨i, hi, hR⟩, hsteps⟩

/-- A set that a step does not leave holds everything that steps lead to. -/
theorem testBit_of_steps (h : Follows step R) (hsame : places ||| step places = places)
    (hi : places.testBit i = true) (hsteps : Steps R n i j) : places.testBit j = true := by
  induction n generalizing i with
  | zero =>
    cases hsteps
    exact hi
  | succ n ih =>
    obtain ⟨next, hnext, hsteps⟩ := hsteps
    refine ih ?_ hsteps
    rw [← hsame, Nat.testBit_or, Bool.or_eq_true]
    exact .inr ((h places next).mpr ⟨i, hi, hnext⟩)

theorem testBit_upTo (h : Follows step R) :
    (upTo step n places).testBit j = true ↔
      ∃ i, places.testBit i = true ∧ ∃ m ≤ n, Steps R m i j := by
  induction n generalizing places with
  | zero => simp [upTo, Steps]
  | succ n ih =>
    simp only [upTo]
    split
    · rename_i hsame
      constructor
      · exact fun hj => ⟨j, hj, 0, by omega, rfl⟩
      · rintro ⟨i, hi, m, -, hsteps⟩
        exact testBit_of_steps h hsame hi hsteps
    · rw [ih]
      constructor
      · rintro ⟨next, hnext, m, hm, hsteps⟩
        rw [Nat.testBit_or, Bool.or_eq_true, h] at hnext
        obtain hi | ⟨i, hi, hR⟩ := hnext
        · exact ⟨next, hi, m, by omega, hsteps⟩
        · exact ⟨i, hi, m + 1, by omega, next, hR, hsteps⟩
      · rintro ⟨i, hi, m, hm, hsteps⟩
        cases m with
        | zero => exact ⟨i, by simp [Nat.testBit_or, hi], 0, by omega, hsteps⟩
        | succ m =>
          obtain ⟨next, hnext, hsteps⟩ := hsteps
          refine ⟨next, ?_, m, by omega, hsteps⟩
          rw [Nat.testBit_or, Bool.or_eq_true]
          exact .inr ((h places next).mpr ⟨i, hi, hnext⟩)

theorem testBit_repeat {extra : Nat} (h : Follows step R) :
    (upTo step extra (exactly step least places)).testBit j = true ↔
      ∃ i, places.testBit i = true ∧ ∃ n, least ≤ n ∧ n ≤ least + extra ∧ Steps R n i j := by
  rw [testBit_upTo h]
  constructor
  · rintro ⟨k, hk, m, hm, hsecond⟩
    obtain ⟨i, hi, hfirst⟩ := (testBit_exactly h).mp hk
    exact ⟨i, hi, least + m, by omega, by omega, Steps.join least hfirst hsecond⟩
  · rintro ⟨i, hi, n, hleast, hn, hsteps⟩
    rw [← Nat.add_sub_cancel' hleast] at hsteps
    obtain ⟨k, hfirst, hsecond⟩ := Steps.split least hsteps
    exact ⟨k, (testBit_exactly h).mpr ⟨i, hi, hfirst⟩, n - least, by omega, hsecond⟩

-- ---------------------------------------------------------------------------
-- Spans
-- ---------------------------------------------------------------------------

namespace Regex

/-- No repetition has its bounds the wrong way round. -/
def WellFormed : Regex → Prop
  | .append a b | .either a b => a.WellFormed ∧ b.WellFormed
  | .times body least most => body.WellFormed ∧ ∀ m ∈ most, least ≤ m
  | _ => True

theorem Spans.le (h : Spans chars r i j) : i ≤ j ∧ j ≤ max i chars.length := by
  induction h with
  | set h _ =>
    have hlt := (List.getElem?_eq_some_iff.mp h).1
    omega
  | append _ _ iha ihb => omega
  | more _ _ iha ihb => omega
  | again _ _ iha ihb => omega
  | left _ ih => exact ih
  | right _ ih => exact ih
  | _ => omega

def Within (least : Nat) (most : Option Nat) (n : Nat) : Prop := least ≤ n ∧ ∀ m ∈ most, n ≤ m

theorem steps_of_spans (h : Spans chars (.times body least most) i j) :
    ∃ n, Within least most n ∧ Steps (Spans chars body) n i j := by
  generalize hr : Regex.times body least most = r at h
  induction h generalizing least most with
  | stop =>
    cases hr
    exact ⟨0, ⟨le_rfl, fun m _ => Nat.zero_le m⟩, rfl⟩
  | more hfirst _ _ ih =>
    cases hr
    obtain ⟨n, ⟨hleast, hmost⟩, hsteps⟩ := ih rfl
    refine ⟨n + 1, ⟨by omega, fun m hm => ?_⟩, _, hfirst, hsteps⟩
    obtain ⟨m', hm', rfl⟩ := Option.map_eq_some_iff.mp hm
    exact Nat.succ_le_succ (hmost m' hm')
  | again hfirst _ _ ih =>
    cases hr
    obtain ⟨n, ⟨-, hmost⟩, hsteps⟩ := ih rfl
    refine ⟨n + 1, ⟨Nat.zero_le _, fun m hm => ?_⟩, _, hfirst, hsteps⟩
    obtain ⟨m', hm', rfl⟩ := Option.map_eq_some_iff.mp hm
    exact Nat.succ_le_succ (hmost m' hm')
  | _ => cases hr

theorem spans_of_steps (hn : Within least most n) (h : Steps (Spans chars body) n i j) :
    Spans chars (.times body least most) i j := by
  induction n generalizing least most i with
  | zero =>
    cases h
    obtain rfl : least = 0 := Nat.le_zero.mp hn.1
    exact .stop
  | succ n ih =>
    obtain ⟨next, hfirst, h⟩ := h
    -- One repetition less is left on both sides of the bounds.
    have hmost : most = (most.map (· - 1)).map (· + 1) := by
      cases most with
      | none => rfl
      | some m =>
        have hm := hn.2 m rfl
        simp only [Option.map_some, Option.some.injEq]
        omega
    have hless : ∀ m ∈ most.map (· - 1), n ≤ m := by
      intro m hm
      obtain ⟨m', hm', rfl⟩ := Option.map_eq_some_iff.mp hm
      have := hn.2 m' hm'
      omega
    rw [hmost]
    cases least with
    | zero => exact .again hfirst (ih ⟨Nat.zero_le n, hless⟩ h)
    | succ least => exact .more hfirst (ih ⟨Nat.le_of_succ_le_succ hn.1, hless⟩ h)

theorem spans_times_iff :
    Spans chars (.times body least most) i j ↔
      ∃ n, Within least most n ∧ Steps (Spans chars body) n i j :=
  ⟨steps_of_spans, fun ⟨_, hn, h⟩ => spans_of_steps hn h⟩

-- ---------------------------------------------------------------------------
-- The matcher, one constructor at a time
-- ---------------------------------------------------------------------------

theorem follows_empty : Follows (empty.advance chars) (Spans chars empty) := by
  intro places j
  constructor
  · exact fun hj => ⟨j, hj, .empty⟩
  · rintro ⟨i, hi, ⟨⟩⟩
    exact hi

theorem follows_set (members : CharSet) :
    Follows ((set members).advance chars) (Spans chars (set members)) := by
  intro places j
  rw [advance, Nat.testBit_shiftLeft, Bool.and_eq_true, decide_eq_true_eq, Nat.testBit_and,
    Bool.and_eq_true, testBit_placesOf]
  constructor
  · rintro ⟨hj, hi, k, c, hk, hc, hmember⟩
    obtain rfl : j = k + 1 := by omega
    exact ⟨k, by simpa using hi, .set hc hmember⟩
  · rintro ⟨i, hi, hspan⟩
    cases hspan with
    | set hc hmember => exact ⟨by omega, by simpa using hi, i, _, by omega, hc, hmember⟩

theorem follows_look (condition : Look) :
    Follows ((look condition).advance chars) (Spans chars (look condition)) := by
  intro places j
  rw [advance, Nat.testBit_and, Bool.and_eq_true, testBit_placesWhere]
  constructor
  · rintro ⟨hj, k, hk, rfl, hholds⟩
    rw [Nat.zero_add] at hj ⊢
    exact ⟨k, hj, .look hk hholds⟩
  · rintro ⟨i, hi, hspan⟩
    cases hspan with
    | look hle hholds => exact ⟨hi, j, hle, by omega, hholds⟩

theorem follows_append {a b : Regex} (ha : Follows (a.advance chars) (Spans chars a))
    (hb : Follows (b.advance chars) (Spans chars b)) :
    Follows ((append a b).advance chars) (Spans chars (append a b)) := by
  intro places j
  rw [advance, hb]
  constructor
  · rintro ⟨k, hk, hsecond⟩
    obtain ⟨i, hi, hfirst⟩ := (ha places k).mp hk
    exact ⟨i, hi, .append hfirst hsecond⟩
  · rintro ⟨i, hi, hspan⟩
    cases hspan with
    | append hfirst hsecond => exact ⟨_, (ha places _).mpr ⟨i, hi, hfirst⟩, hsecond⟩

theorem follows_either {a b : Regex} (ha : Follows (a.advance chars) (Spans chars a))
    (hb : Follows (b.advance chars) (Spans chars b)) :
    Follows ((either a b).advance chars) (Spans chars (either a b)) := by
  intro places j
  rw [advance, Nat.testBit_or, Bool.or_eq_true, ha, hb]
  constructor
  · rintro (⟨i, hi, hleft⟩ | ⟨i, hi, hright⟩)
    · exact ⟨i, hi, .left hleft⟩
    · exact ⟨i, hi, .right hright⟩
  · rintro ⟨i, hi, hspan⟩
    cases hspan with
    | left hleft => exact .inl ⟨i, hi, hleft⟩
    | right hright => exact .inr ⟨i, hi, hright⟩

theorem follows_times_bounded {most : Nat} (hbody : Follows (body.advance chars) (Spans chars body))
    (hbounds : least ≤ most) :
    Follows ((times body least (some most)).advance chars)
      (Spans chars (times body least (some most))) := by
  intro places j
  simp only [spans_times_iff, advance, testBit_repeat hbody, Within, Option.mem_some_iff,
    forall_eq']
  refine exists_congr fun i => and_congr_right fun _ => exists_congr fun n => ?_
  rw [Nat.add_sub_cancel' hbounds, and_assoc]

/-- Behind the least number of steps, those that go nowhere can be left out. -/
theorem exists_few_steps (h : Steps (Spans chars body) n i j) (hleast : least ≤ n) :
    ∃ m, least ≤ m ∧ m ≤ least + (chars.length + 1) ∧ Steps (Spans chars body) m i j := by
  rw [← Nat.add_sub_cancel' hleast] at h
  obtain ⟨k, hfirst, hsecond⟩ := Steps.split least h
  obtain ⟨hkj, m, hm, hshort⟩ := hsecond.shorten fun _ _ h => h.le.1
  -- The steps after the least number stay inside the text, or at one place behind it.
  have hspan : Spans chars (times body 0 none) k j :=
    spans_of_steps ⟨Nat.zero_le _, by simp⟩ hshort
  have hinside := hspan.le.2
  exact ⟨least + m, by omega, by omega, Steps.join least hfirst hshort⟩

theorem follows_times_unbounded (hbody : Follows (body.advance chars) (Spans chars body)) :
    Follows ((times body least none).advance chars) (Spans chars (times body least none)) := by
  intro places j
  simp only [spans_times_iff, advance, testBit_repeat hbody, Within]
  constructor
  · rintro ⟨i, hi, n, hleast, -, hsteps⟩
    exact ⟨i, hi, n, ⟨hleast, by simp⟩, hsteps⟩
  · rintro ⟨i, hi, n, ⟨hleast, -⟩, hsteps⟩
    exact ⟨i, hi, exists_few_steps hsteps hleast⟩

/-- The places where spans from a set of places end. -/
theorem testBit_advance (hr : r.WellFormed) : Follows (r.advance chars) (Spans chars r) := by
  induction r with
  | empty => exact follows_empty
  | set members => exact follows_set members
  | look condition => exact follows_look condition
  | append a b iha ihb => exact follows_append (iha hr.1) (ihb hr.2)
  | either a b iha ihb => exact follows_either (iha hr.1) (ihb hr.2)
  | times body least most ih =>
    cases most with
    | none => exact follows_times_unbounded (ih hr.1)
    | some most => exact follows_times_bounded (ih hr.1) (hr.2 most rfl)

/-- A search finds a part of the text that is in the language, if there is one. -/
theorem search_iff (hr : r.WellFormed) :
    r.search chars = true ↔ ∃ i j, i ≤ chars.length ∧ Spans chars r i j := by
  have hplaces : Follows (r.advance chars) (Spans chars r) := testBit_advance hr
  rw [search, bne_iff_ne]
  constructor
  · intro hne
    obtain ⟨j, hj⟩ := Nat.exists_testBit_of_ne_zero hne
    obtain ⟨i, hi, hspan⟩ := (hplaces _ j).mp hj
    exact ⟨i, j, testBit_allPlaces.mp hi, hspan⟩
  · rintro ⟨i, j, hi, hspan⟩ hzero
    have hj := (hplaces _ j).mpr ⟨i, testBit_allPlaces.mpr hi, hspan⟩
    simp [hzero] at hj

end Regex

end FlowTally.Pattern
