/-!
# Instants

An instant is a day, counted from the start of 1970, a second of that day and
nanoseconds, all in coordinated universal time. A leap second is the last
second of its minute with a whole second of extra nanoseconds. Dates are those
of the calendar with leap years every four years, except in three of four
centuries; the year before year one is year zero.
-/

namespace FlowTally

structure Instant where
  day : Int
  second : Nat
  /-- Below `2 · 10^9`; from `10^9` on inside a leap second. -/
  nano : Nat
deriving DecidableEq, Repr, Inhabited

structure Date where
  year : Int
  month : Nat
  day : Nat
deriving DecidableEq, Repr, Inhabited

namespace Date

def isLeapYear (year : Int) : Bool := year % 4 == 0 && (year % 100 != 0 || year % 400 == 0)

def monthDays (year : Int) (month : Nat) : Nat :=
  if month = 2 then (if isLeapYear year then 29 else 28)
  else if month = 4 ∨ month = 6 ∨ month = 9 ∨ month = 11 then 30
  else 31

def isValid (d : Date) : Bool :=
  1 ≤ d.month && d.month ≤ 12 && 1 ≤ d.day && d.day ≤ monthDays d.year d.month

def eraDays : Int := 146097

/-- Days from the first of March of year zero to the start of 1970. -/
def epochShift : Int := 719468

/-- Years start in March here, so that a leap day is the last day of a year. -/
def toDays (d : Date) : Int :=
  let year := if d.month ≤ 2 then d.year - 1 else d.year
  let month := (d.month + 9) % 12
  let era := year / 400
  let yearOfEra := year % 400
  let dayOfYear : Int := (153 * month + 2) / 5 + d.day - 1
  era * eraDays + yearOfEra * 365 + yearOfEra / 4 - yearOfEra / 100 + dayOfYear - epochShift

def ofDays (days : Int) : Date :=
  let shifted := days + epochShift
  let era := shifted / eraDays
  let dayOfEra := shifted % eraDays
  let yearOfEra := (dayOfEra - dayOfEra / 1460 + dayOfEra / 36524 - dayOfEra / 146096) / 365
  let dayOfYear := dayOfEra - (365 * yearOfEra + yearOfEra / 4 - yearOfEra / 100)
  let month := (5 * dayOfYear + 2) / 153
  let day := dayOfYear - (153 * month + 2) / 5 + 1
  let calendarMonth := if month < 10 then month + 3 else month - 9
  ⟨yearOfEra + era * 400 + (if calendarMonth ≤ 2 then 1 else 0), calendarMonth.toNat, day.toNat⟩

end Date

namespace Instant

def secondsPerDay : Int := 86400

def hasYear (i : Instant) : Bool :=
  let year := (Date.ofDays i.day).year
  decide (-262143 ≤ year ∧ year ≤ 262142)

/-- The instant of a local time whose clock is `offset` seconds ahead. -/
def ofLocal (date : Date) (second : Nat) (nano : Nat) (offset : Int) : Instant :=
  let total : Int := second - offset
  ⟨date.toDays + total / secondsPerDay, (total % secondsPerDay).toNat, nano⟩

end Instant

end FlowTally
