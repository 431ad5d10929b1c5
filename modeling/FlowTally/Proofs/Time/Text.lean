import FlowTally.Proofs.Text.Blank
import FlowTally.Proofs.Text.Digits
import FlowTally.Proofs.Time.Calendar
import FlowTally.Time.Text

/-!
# Instants read back from their text

Every part of a written instant ends before a character that is no digit, so
the reader takes each number whole (`readNumber?_padded`). Date and time of day
lead back to the day and the second they were taken from: the calendar by
`toDays_ofDays`, a leap second by the nanoseconds it holds too many.
-/

namespace FlowTally.Instant

open Text.Natural (chars digit? fold)

/-- An instant of a clock. Only the last second of a minute may be a leap second. -/
structure Valid (i : Instant) : Prop where
  second : i.second < 86400
  nano : i.nano < 1000000000 ∨ (i.nano < 2000000000 ∧ i.second % 60 = 59)
  hasYear : i.hasYear = true

instance (i : Instant) : Decidable i.Valid :=
  decidable_of_iff (i.second < 86400 ∧
      (i.nano < 1000000000 ∨ (i.nano < 2000000000 ∧ i.second % 60 = 59)) ∧ i.hasYear = true)
    ⟨fun ⟨hs, hn, hy⟩ => ⟨hs, hn, hy⟩, fun ⟨hs, hn, hy⟩ => ⟨hs, hn, hy⟩⟩

def EndsDigits (cs : List Char) : Prop := ∀ c ∈ cs.head?, isDigit c = false

variable {n width most : Nat} {ds : List Nat} {c : Char} {cs rest : List Char}

-- ---------------------------------------------------------------------------
-- Numbers
-- ---------------------------------------------------------------------------

theorem isDigit_of_mem_chars (hds : ∀ d ∈ ds, d < 10) (h : c ∈ chars ds) : isDigit c = true := by
  obtain ⟨d, hd, rfl⟩ := List.mem_map.mp h
  rw [isDigit, Text.Natural.digit?_digitChar (by decide) (hds d hd), Option.isSome_some]

theorem isBlank_of_isDigit (h : isDigit c = true) : Text.isBlank c = false := by
  have hrange : 48 ≤ c.toNat ∧ c.toNat ≤ 57 := by
    by_contra hk
    simp only [isDigit, digit?, if_neg hk] at h
    repeat' split at h
    all_goals first | omega | simp at h
  refine Text.isBlank_of_isDigit ?_
  simp only [Char.isDigit, Bool.and_eq_true, decide_eq_true_eq]
  exact hrange

theorem skipBlanks_eq_self (h : ∀ c ∈ cs.head?, Text.isBlank c = false) : skipBlanks cs = cs :=
  Text.dropWhile_isBlank h

theorem value_chars (hds : ∀ d ∈ ds, d < 10) : value (chars ds) = fold 10 0 ds := by
  have hfold :
      ∀ n, (chars ds).foldl (fun n c => n * 10 + (digit? 10 c).getD 0) n = fold 10 n ds := by
    induction ds with
    | nil => exact fun n => rfl
    | cons d ds ih =>
      intro n
      obtain ⟨hd, hds⟩ := List.forall_mem_cons.mp hds
      have hdigit : digit? 10 d.digitChar = some d := Text.Natural.digit?_digitChar (by decide) hd
      rw [chars, List.map_cons, List.foldl_cons, hdigit]
      exact ih hds (n * 10 + d)
  exact hfold 0

theorem takeWhile_chars (hds : ∀ d ∈ ds, d < 10) (hrest : EndsDigits rest) :
    (chars ds ++ rest).takeWhile isDigit = chars ds := by
  rw [List.takeWhile_append_of_pos fun c hc => isDigit_of_mem_chars hds hc]
  cases rest with
  | nil => simp
  | cons c rest =>
    rw [List.takeWhile_cons_of_neg (by simp [hrest c rfl]), List.append_nil]

theorem readNumber?_chars (hds : ∀ d ∈ ds, d < 10) (hne : ds ≠ []) (hmost : ds.length ≤ most)
    (hrest : EndsDigits rest) :
    readNumber? most (chars ds ++ rest) = some (fold 10 0 ds, rest) := by
  have hskip : skipBlanks (chars ds ++ rest) = chars ds ++ rest := by
    refine skipBlanks_eq_self fun c hc => isBlank_of_isDigit ?_
    cases ds with
    | nil => exact absurd rfl hne
    | cons d ds => exact isDigit_of_mem_chars hds (by simp_all)
  have htake : (chars ds).take most = chars ds := List.take_of_length_le (by simpa using hmost)
  have hne' : chars ds ≠ [] := by simpa using hne
  simp only [readNumber?, hskip, takeWhile_chars hds hrest, htake, if_neg hne', value_chars hds,
    List.drop_left]

theorem padded_eq (width n : Nat) : padded width n = chars (Text.Natural.padded 10 width n) :=
  Text.Natural.chars_padded (by decide) (by decide) width n

theorem lt_of_mem_padded {d : Nat} (h : d ∈ Text.Natural.padded 10 width n) : d < 10 :=
  Text.Natural.lt_of_mem_padded (by decide) (by decide) h

theorem natural_padded_ne_nil (width n : Nat) : Text.Natural.padded 10 width n ≠ [] := by
  simp [Text.Natural.padded, Text.Natural.valuesOf_ne_nil]

theorem head?_padded (h : c ∈ (padded width n ++ rest).head?) : isDigit c = true := by
  rw [padded_eq] at h
  cases hds : Text.Natural.padded 10 width n with
  | nil => exact absurd hds (natural_padded_ne_nil width n)
  | cons d ds =>
    have hd :
        d < 10 := lt_of_mem_padded (hds ▸ List.mem_cons_self : d ∈ Text.Natural.padded 10 width n)
    obtain rfl : d.digitChar = c := by simpa [hds] using h
    have hds : ∀ e ∈ [d], e < 10 := by simpa using hd
    exact isDigit_of_mem_chars hds (by simp)

theorem length_padded (hw : 0 < width) (hn : n < 10 ^ width) : (padded width n).length = width := by
  rw [padded_eq, List.length_map, Text.Natural.length_padded (by decide) hw hn]

theorem readNumber?_padded (hmost : (padded width n).length ≤ most) (hrest : EndsDigits rest) :
    readNumber? most (padded width n ++ rest) = some (n, rest) := by
  rw [padded_eq, List.length_map] at hmost
  rw [padded_eq, readNumber?_chars (fun d hd => lt_of_mem_padded hd) (natural_padded_ne_nil width n)
    hmost hrest, Text.Natural.fold_padded (by decide) (by decide)]

theorem readNumber?_fixed (hw : 0 < width) (hn : n < 10 ^ width) (hrest : EndsDigits rest) :
    readNumber? width (padded width n ++ rest) = some (n, rest) :=
  readNumber?_padded (Nat.le_of_eq (length_padded hw hn)) hrest

theorem value_padded (width n : Nat) : value (padded width n) = n := by
  rw [padded_eq, value_chars fun d hd => lt_of_mem_padded hd,
    Text.Natural.fold_padded (by decide) (by decide)]

theorem endsDigits_cons (h : isDigit c = false) : EndsDigits (c :: rest) := by
  rintro d hd
  obtain rfl : c = d := by simpa using hd
  exact h

theorem readMark?_cons (h : Text.isBlank c = false) : readMark? c (c :: rest) = some rest := by
  have hskip : skipBlanks (c :: rest) = c :: rest :=
    skipBlanks_eq_self fun d hd => by simp_all
  simp [readMark?, hskip]

-- ---------------------------------------------------------------------------
-- Parts
-- ---------------------------------------------------------------------------

theorem head?_any_padded (width n : Nat) (rest : List Char) :
    (padded width n ++ rest).head?.any isDigit = true := by
  cases hcs : padded width n ++ rest with
  | nil => simp [padded_eq, natural_padded_ne_nil] at hcs
  | cons c cs =>
    have hc : c ∈ (padded width n ++ rest).head? := by simp [hcs]
    exact head?_padded hc

theorem readYear?_padded (hn : n < 10000) (hrest : EndsDigits rest) :
    readYear? (padded 4 n ++ rest) = some ((n : Int), rest) := by
  have hskip : skipBlanks (padded 4 n ++ rest) = padded 4 n ++ rest :=
    skipBlanks_eq_self fun c hc => isBlank_of_isDigit (head?_padded hc)
  have hread : readNumber? 4 (padded 4 n ++ rest) = some (n, rest) :=
    readNumber?_fixed (by decide) hn hrest
  have hsign (c : Char) (hc : isDigit c = false) (cs : List Char) :
      padded 4 n ++ rest ≠ c :: cs := by
    intro hcs
    have hdigit := head?_any_padded 4 n rest
    simp [hcs, hc] at hdigit
  rw [readYear?, hskip]
  split
  · exact absurd ‹_› (hsign '-' (by decide) _)
  · exact absurd ‹_› (hsign '+' (by decide) _)
  · rw [hread, Option.map_some]

theorem readYear?_yearText (year : Int) (hrest : EndsDigits rest) :
    readYear? (yearText year ++ rest) = some (year, rest) := by
  have hskip (c : Char) (h : Text.isBlank c = false) (cs : List Char) :
      skipBlanks (c :: cs) = c :: cs :=
    skipBlanks_eq_self fun d hd => by simp_all
  have hread (n : Nat) :
      readNumber? (padded 4 n ++ rest).length (padded 4 n ++ rest) = some (n, rest) :=
    readNumber?_padded (by simp) hrest
  unfold yearText
  split
  · rename_i h
    rw [readYear?_padded (by omega) hrest, Int.toNat_of_nonneg h.1]
  · rename_i h
    split
    · rename_i hneg
      have hback : -(year.natAbs : Int) = year := by omega
      simp only [readYear?, List.cons_append, hskip '-' (by decide), head?_any_padded, if_true,
        hread, Option.map_some, hback]
    · have hback : (year.natAbs : Int) = year := by omega
      simp only [readYear?, List.cons_append, hskip '+' (by decide), head?_any_padded, if_true,
        hread, Option.map_some, hback]

theorem readFraction?_padded (hw : 0 < width) (hw' : width ≤ 9) (hn : n < 10 ^ width)
    (hrest : EndsDigits rest) :
    readFraction? ('.' :: padded width n ++ rest) = some (n * 10 ^ (9 - width), rest) := by
  have hlength : (padded width n).length = width := length_padded hw hn
  have htake : (padded width n).take 9 = padded width n := List.take_of_length_le (by omega)
  have hdigits : (padded width n ++ rest).takeWhile isDigit = padded width n := by
    rw [padded_eq]
    exact takeWhile_chars (fun d hd => lt_of_mem_padded hd) hrest
  have hne : padded width n ≠ [] := List.ne_nil_of_length_pos (by omega)
  simp only [readFraction?, List.cons_append, hdigits, if_neg hne, htake, value_padded, hlength,
    List.drop_left' hlength]
  rfl

theorem readFraction?_fractionText (hn : n < 1000000000) (hrest : EndsDigits rest)
    (hpoint : rest.head? ≠ some '.') : readFraction? (fractionText n ++ rest) = some (n, rest) := by
  unfold fractionText
  split
  · rename_i hzero
    subst hzero
    rw [List.nil_append]
    unfold readFraction?
    split
    · simp at hpoint
    · rfl
  · split
    · rw [readFraction?_padded (by decide) (by decide) (by omega) hrest]
      simp
      omega
    · split
      · rw [readFraction?_padded (by decide) (by decide) (by omega) hrest]
        simp
        omega
      · rw [readFraction?_padded (by decide) (by decide) (by omega) hrest]
        simp

-- ---------------------------------------------------------------------------
-- Instants
-- ---------------------------------------------------------------------------

theorem ofLocal_parts (i : Instant) (h : i.Valid) :
    let second := i.second % 60 + i.nano / 1000000000
    ofLocal (Date.ofDays i.day)
      (i.second / 3600 * 3600 + i.second / 60 % 60 * 60 + (if second == 60 then 59 else second))
      (i.nano % 1000000000 + (if second == 60 then 1000000000 else 0)) 0 = i := by
  have hsecond := h.second
  have hnano := h.nano
  obtain ⟨day, second, nano⟩ := i
  simp only at hsecond hnano ⊢
  have hclock : second / 3600 * 3600 + second / 60 % 60 * 60 + second % 60 = second := by omega
  have hday : ((second : Int) - 0) / secondsPerDay = 0 := by
    rw [secondsPerDay]
    omega
  have hrest : (((second : Int) - 0) % secondsPerDay).toNat = second := by
    rw [secondsPerDay]
    omega
  by_cases hleap : second % 60 + nano / 1000000000 = 60
  · have hlast : second % 60 = 59 := by omega
    have hback : nano % 1000000000 + 1000000000 = nano := by omega
    rw [hlast] at hclock
    simp only [ofLocal, hleap, beq_self_eq_true, if_true, hclock, hback, hday, hrest,
      Date.toDays_ofDays, Int.add_zero]
  · have hwhole : nano / 1000000000 = 0 := by omega
    have hback : nano % 1000000000 = nano := by omega
    have hleap' : second % 60 ≠ 60 := by omega
    have hbeq : (second % 60 == 60) = false := by simpa using hleap'
    simp only [ofLocal, hwhole, Nat.add_zero, hbeq, Bool.false_eq_true, if_false, hclock, hback, hday,
      hrest, Date.toDays_ofDays, Int.add_zero]

theorem bind_some {α β : Type} {o : Option α} {a : α} (h : o = some a) (f : α → Option β) :
    (o >>= f) = f a := by
  rw [h]
  rfl

theorem read?_parts {year : Int} {month day hour minute second nano : Nat}
    {cs₁ cs₂ cs₃ cs₄ cs₅ cs₆ : List Char} (hyear : readYear? cs = some (year, '-' :: cs₁))
    (hmonth : readNumber? 2 cs₁ = some (month, '-' :: cs₂))
    (hday : readNumber? 2 cs₂ = some (day, 'T' :: cs₃))
    (hhour : readNumber? 2 cs₃ = some (hour, ':' :: cs₄))
    (hminute : readNumber? 2 cs₄ = some (minute, ':' :: cs₅))
    (hsecond : readNumber? 2 cs₅ = some (second, cs₆))
    (hnano : readFraction? cs₆ = some (nano, ['Z'])) :
    read? cs =
      let result := ofLocal ⟨year, month, day⟩
        (hour * 3600 + minute * 60 + (if second == 60 then 59 else second))
        (nano + (if second == 60 then 1000000000 else 0)) 0
      if (Date.mk year month day).isValid ∧ hour < 24 ∧ minute < 60 ∧ second ≤ 60 ∧
          result.hasYear then
        some result
      else none := by
  have hdash (cs : List Char) : readMark? '-' ('-' :: cs) = some cs := readMark?_cons (by decide)
  have hcolon (cs : List Char) : readMark? ':' (':' :: cs) = some cs := readMark?_cons (by decide)
  have hoffset : readOffset? (skipBlanks ['Z']) = some (0, []) := by decide
  have hblank : skipBlanks [] = [] := rfl
  have hzero : (0 : Int).natAbs < 86400 := by decide
  rw [read?]
  refine (bind_some hyear _).trans ((bind_some (hdash cs₁) _).trans ((bind_some hmonth _).trans ?_))
  refine (bind_some (hdash cs₂) _).trans ((bind_some hday _).trans ?_)
  refine (bind_some (rfl : some cs₃ = some cs₃) _).trans ((bind_some hhour _).trans ?_)
  refine (bind_some (hcolon cs₄) _).trans ((bind_some hminute _).trans ?_)
  refine (bind_some (hcolon cs₅) _).trans ((bind_some hsecond _).trans ?_)
  refine (bind_some hnano _).trans ((bind_some hoffset _).trans ?_)
  simp only [hblank, hzero, true_and]

theorem month_day_lt (days : Int) :
    (Date.ofDays days).month < 100 ∧ (Date.ofDays days).day < 100 := by
  have hvalid := Date.isValid_ofDays days
  simp only [Date.isValid, Bool.and_eq_true, decide_eq_true_eq] at hvalid
  have hdays : Date.monthDays (Date.ofDays days).year (Date.ofDays days).month ≤ 31 := by
    unfold Date.monthDays
    repeat' split
    all_goals omega
  omega

theorem read?_text (i : Instant) (h : i.Valid) : read? i.text = some i := by
  have hsecond := h.second
  have hnano := h.nano
  obtain ⟨hmonth, hday⟩ := month_day_lt i.day
  have hpoint : EndsDigits (fractionText (i.nano % 1000000000) ++ ['Z']) := by
    unfold fractionText
    repeat' split
    all_goals exact endsDigits_cons (by decide)
  rw [text]
  simp only [List.append_assoc, List.cons_append]
  rw [read?_parts (readYear?_yearText _ (endsDigits_cons (by decide)))
    (readNumber?_fixed (by decide) hmonth (endsDigits_cons (by decide)))
    (readNumber?_fixed (by decide) hday (endsDigits_cons (by decide)))
    (readNumber?_fixed (by decide) (by omega) (endsDigits_cons (by decide)))
    (readNumber?_fixed (by decide) (by omega) (endsDigits_cons (by decide)))
    (readNumber?_fixed (by decide) (by omega) hpoint)
    (readFraction?_fractionText (by omega) (endsDigits_cons (by decide)) (by decide))]
  rw [ofLocal_parts i h]
  exact if_pos ⟨Date.isValid_ofDays i.day, by omega, by omega, by omega, h.hasYear⟩

end FlowTally.Instant
