import FlowTally.Time.Instant
import Mathlib.Tactic.IntervalCases
import Mathlib.Tactic.Ring

/-!
# Days and dates

`ofDays` gives a valid date for every day, and `toDays` leads back from it. An
era of 400 years is split into centuries, groups of four years, years and days;
a century is a day short of 25 groups, and only the last year of a group may
have a day 365 (`InEra`). Every division in `ofDays` is read off that split.
-/

namespace FlowTally.Date

/-- A day of an era by century, group of years, year of the group and day of the year. -/
structure InEra (dayOfEra century group year day : Int) : Prop where
  eq : dayOfEra = 36524 * century + 1461 * group + 365 * year + day
  inCenturies : 0 ≤ century ∧ century ≤ 3
  inGroups : 0 ≤ group ∧ group ≤ 24
  inYears : 0 ≤ year ∧ year ≤ 3
  inDays : 0 ≤ day ∧ day ≤ 365
  leap : day = 365 → year = 3 ∧ (group = 24 → century = 3)

variable {dayOfEra century group year day : Int}

theorem exists_inEra (h : 0 ≤ dayOfEra) (h' : dayOfEra < 146097) :
    ∃ century group year day, InEra dayOfEra century group year day := by
  obtain ⟨k, r, hk, hr, hd, hlast⟩ : ∃ k r : Int, (0 ≤ k ∧ k ≤ 3) ∧ (0 ≤ r ∧ r ≤ 36524) ∧
      dayOfEra = 36524 * k + r ∧ (r = 36524 → k = 3) := by
    by_cases hend : dayOfEra = 146096
    · exact ⟨3, 36524, by omega, by omega, by omega, by omega⟩
    · exact ⟨dayOfEra / 36524, dayOfEra % 36524, by omega, by omega, by omega, by omega⟩
  obtain ⟨q, t, hq, ht, hr', hfull⟩ : ∃ q t : Int, (0 ≤ q ∧ q ≤ 24) ∧ (0 ≤ t ∧ t ≤ 1460) ∧
      r = 1461 * q + t ∧ (q = 24 ∧ t = 1460 → k = 3) :=
    ⟨r / 1461, r % 1461, by omega, by omega, by omega, by omega⟩
  by_cases hday : t = 1460
  · exact ⟨k, q, 3, 365, by omega, hk, hq, by omega, by omega, fun _ => ⟨rfl, fun h => hfull ⟨h, hday⟩⟩⟩
  · exact ⟨k, q, t / 365, t % 365, by omega, hk, hq, by omega, by omega, by omega⟩

theorem InEra.yearOfEra (h : InEra dayOfEra century group year day) :
    (dayOfEra - dayOfEra / 1460 + dayOfEra / 36524 - dayOfEra / 146096) / 365 =
      100 * century + 4 * group + year := by
  obtain ⟨rfl, ⟨hk, hk'⟩, ⟨hq, hq'⟩, ⟨hs, hs'⟩, ⟨hd, hd'⟩, hleap⟩ := h
  have hgroups : (36524 * century + 1461 * group + 365 * year + day) / 1460 =
      25 * century + group + (24 * century + group + 365 * year + day) / 1460 := by omega
  have hcenturies : (36524 * century + 1461 * group + 365 * year + day) / 36524 =
      century + (1461 * group + 365 * year + day) / 36524 := by omega
  rw [hgroups, hcenturies]
  -- Whatever stands above the groups, the centuries and the era is at most one.
  generalize hu : (24 * century + group + 365 * year + day) / 1460 = u
  generalize hv : (1461 * group + 365 * year + day) / 36524 = v
  generalize hw : (36524 * century + 1461 * group + 365 * year + day) / 146096 = w
  have hu' : 0 ≤ u ∧ u ≤ 1 := by omega
  have hv' : 0 ≤ v ∧ v ≤ 1 := by omega
  have hw' : 0 ≤ w ∧ w ≤ 1 := by omega
  clear hgroups hcenturies
  obtain ⟨hu₀, hu₁⟩ := hu'
  obtain ⟨hv₀, hv₁⟩ := hv'
  obtain ⟨hw₀, hw₁⟩ := hw'
  interval_cases u <;> interval_cases v <;> interval_cases w <;> omega

/-- The date of a day of a year that starts in March. -/
def ofYearDay (year day : Int) : Date :=
  let month := (5 * day + 2) / 153
  let calendarMonth := if month < 10 then month + 3 else month - 9
  ⟨year + (if calendarMonth ≤ 2 then 1 else 0), calendarMonth.toNat,
    (day - (153 * month + 2) / 5 + 1).toNat⟩

theorem yearOfEra_div (century : Int) (hq : 0 ≤ group ∧ group ≤ 24) (hs : 0 ≤ year ∧ year ≤ 3) :
    (100 * century + 4 * group + year) / 4 = 25 * century + group ∧
      (100 * century + 4 * group + year) / 100 = century := by
  constructor <;> omega

theorem ofDays_eq {days : Int} (h : InEra ((days + epochShift) % eraDays) century group year day) :
    ofDays days =
      ofYearDay (100 * century + 4 * group + year + (days + epochShift) / eraDays * 400) day := by
  have hyear := h.yearOfEra
  have hday : (days + epochShift) % eraDays - (365 * (100 * century + 4 * group + year) +
      (100 * century + 4 * group + year) / 4 - (100 * century + 4 * group + year) / 100) = day := by
    obtain ⟨hfour, hhundred⟩ := yearOfEra_div century h.inGroups h.inYears
    rw [hfour, hhundred, h.eq]
    ring
  simp only [ofDays, hyear, hday, ofYearDay]

/-- Months begin where the fifths of 153 days say, and each has its length. -/
theorem isValid_ofYearDay {year day : Int} (h : 0 ≤ day ∧ day ≤ 365)
    (hleap : day = 365 → isLeapYear (year + 1) = true) : (ofYearDay year day).isValid = true := by
  unfold ofYearDay
  generalize hm : (5 * day + 2) / 153 = month
  have hmonth : 0 ≤ month ∧ month ≤ 11 := by omega
  obtain ⟨hlow, hhigh⟩ := hmonth
  by_cases hend : day = 365
  · subst hend
    obtain rfl : month = 11 := by omega
    simp [isValid, monthDays, hleap]
  · have hbound : 153 * month ≤ 5 * day + 2 ∧ 5 * day + 2 < 153 * month + 153 := by omega
    clear hm hleap
    interval_cases month <;> simp only [isValid, monthDays] <;> simp <;> (try split) <;> omega

theorem toDays_ofYearDay {year day : Int} (h : 0 ≤ day ∧ day ≤ 365) :
    (ofYearDay year day).toDays = year / 400 * eraDays + year % 400 * 365 + year % 400 / 4 -
      year % 400 / 100 + day - epochShift := by
  unfold ofYearDay
  generalize hm : (5 * day + 2) / 153 = month
  have hmonth : 0 ≤ month ∧ month ≤ 11 := by omega
  have hbound : 153 * month ≤ 5 * day + 2 ∧ 5 * day + 2 < 153 * month + 153 := by omega
  obtain ⟨hlow, hhigh⟩ := hmonth
  clear hm
  interval_cases month <;> simp [toDays] <;> omega

theorem InEra.isLeapYear (h : InEra dayOfEra century group year day) (hday : day = 365)
    (era : Int) : isLeapYear (100 * century + 4 * group + year + era * 400 + 1) = true := by
  obtain ⟨rfl, hcentury⟩ := h.leap hday
  have hgroup := h.inGroups
  have hk := h.inCenturies
  simp only [Date.isLeapYear, Bool.and_eq_true, Bool.or_eq_true, beq_iff_eq, bne_iff_ne]
  refine ⟨by omega, ?_⟩
  by_cases hlast : group = 24
  · exact .inr (by have := hcentury hlast; omega)
  · exact .inl (by omega)

theorem exists_inEra_days (days : Int) : ∃ century group year day,
    InEra ((days + epochShift) % eraDays) century group year day :=
  exists_inEra (Int.emod_nonneg _ (by decide)) (Int.emod_lt_of_pos _ (by decide))

theorem isValid_ofDays (days : Int) : (ofDays days).isValid = true := by
  obtain ⟨century, group, year, day, h⟩ := exists_inEra_days days
  rw [ofDays_eq h]
  exact isValid_ofYearDay h.inDays fun hday => h.isLeapYear hday _

theorem toDays_ofDays (days : Int) : (ofDays days).toDays = days := by
  obtain ⟨century, group, year, day, h⟩ := exists_inEra_days days
  rw [ofDays_eq h, toDays_ofYearDay h.inDays]
  obtain ⟨hfour, hhundred⟩ := yearOfEra_div century h.inGroups h.inYears
  generalize hera : (days + epochShift) / eraDays = era at *
  have hk := h.inCenturies
  have hq := h.inGroups
  have hs := h.inYears
  have hdiv : (100 * century + 4 * group + year + era * 400) / 400 = era := by omega
  have hmod : (100 * century + 4 * group + year + era * 400) % 400 =
      100 * century + 4 * group + year := by omega
  rw [hdiv, hmod, hfour, hhundred]
  have hsplit : days + epochShift = era * eraDays + (days + epochShift) % eraDays := by
    rw [← hera]
    exact (Int.ediv_mul_add_emod _ _).symm
  rw [h.eq] at hsplit
  generalize era * eraDays = past at *
  omega

end FlowTally.Date
