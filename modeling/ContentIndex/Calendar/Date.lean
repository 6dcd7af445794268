/-
  Dates of the proleptic Gregorian calendar, with years from -262143 to 262142. Days are also
  counted from 1970-01-01 on; `daysBeforeYear_succ` ties that count to the lengths of the years.
  Months are added on a count of months, and a day that the new month does not have becomes its
  last one.
-/

namespace ContentIndex.Calendar

def isLeapYear (year : Int) : Bool :=
  year % 4 = 0 ∧ (year % 100 ≠ 0 ∨ year % 400 = 0)

def yearLength (year : Int) : Nat :=
  if isLeapYear year then 366 else 365

/-- The number of days of a month; there are none in a month outside 1 to 12. -/
def daysInMonth (year : Int) : (month : Nat) → Nat
  | 1 | 3 | 5 | 7 | 8 | 10 | 12 => 31
  | 4 | 6 | 9 | 11 => 30
  | 2 => if isLeapYear year then 29 else 28
  | _ => 0

/-- The number of days from 1970-01-01 to the first of January of a year. -/
def daysBeforeYear (year : Int) : Int :=
  365 * year + (year - 1) / 4 - (year - 1) / 100 + (year - 1) / 400 - 719527

/-- The number of days of a year before a month. -/
def daysBeforeMonth (year : Int) : (month : Nat) → Nat
  | 0 => 0
  | m + 1 => daysBeforeMonth year m + daysInMonth year m

/-- The first and the last year. -/
def firstYear : Int := -262143
def lastYear : Int := 262142

/-- A day of the calendar. -/
structure Date where
  year : Int
  month : Nat
  day : Nat
  year_range : firstYear ≤ year ∧ year ≤ lastYear
  month_range : 1 ≤ month ∧ month ≤ 12
  day_range : 1 ≤ day ∧ day ≤ daysInMonth year month
deriving DecidableEq, Repr

namespace Date

def ofParts? (year : Int) (month day : Nat) : Option Date :=
  if h : (firstYear ≤ year ∧ year ≤ lastYear) ∧ (1 ≤ month ∧ month ≤ 12) ∧
      (1 ≤ day ∧ day ≤ daysInMonth year month) then
    some ⟨year, month, day, h.1, h.2.1, h.2.2⟩
  else none

/-- The day of the year, from 1 on. -/
def ordinal (d : Date) : Nat :=
  daysBeforeMonth d.year d.month + d.day

/-- The number of days from 1970-01-01. -/
def dayNumber (d : Date) : Int :=
  daysBeforeYear d.year + d.ordinal - 1

end Date

/-- The year of a day. The guess from the mean length of a year is off by one at most. -/
def yearOfDay (n : Int) : Int :=
  let guess := 1970 + 400 * n / 146097
  if n < daysBeforeYear guess then guess - 1
  else if daysBeforeYear (guess + 1) ≤ n then guess + 1
  else guess

/-- The month of the day that has `before` days of its year in front of it. -/
def monthOfDay (year : Int) (before : Nat) : Nat :=
  ([12, 11, 10, 9, 8, 7, 6, 5, 4, 3, 2].find? fun m => daysBeforeMonth year m ≤ before).getD 1

/-- The day of the week, Sunday being 0. -/
def weekdayOf (n : Int) : Nat :=
  ((n + 4) % 7).toNat

/-- The day of the week, Monday being 1 and Sunday 7. -/
def isoWeekdayOf (n : Int) : Nat :=
  ((n + 3) % 7).toNat + 1

/-- The number of the week, counted in the year to which its Thursday belongs. -/
def isoWeekOf (n : Int) : Nat :=
  let thursday := n + 4 - isoWeekdayOf n
  ((thursday - daysBeforeYear (yearOfDay thursday)) / 7).toNat + 1

namespace Date

/-- The date of a day, if it is within the calendar. -/
def ofDayNumber? (n : Int) : Option Date :=
  let year := yearOfDay n
  let before := (n - daysBeforeYear year).toNat
  let month := monthOfDay year before
  ofParts? year month (before - daysBeforeMonth year month + 1)

def addDays? (d : Date) (n : Int) : Option Date :=
  ofDayNumber? (d.dayNumber + n)

/-- Adds months. The day stays, or becomes the last one of a shorter month. -/
def addMonths? (d : Date) (n : Int) : Option Date :=
  let count := 12 * d.year + (d.month - 1 : Nat) + n
  let year := count / 12
  let month := (count % 12).toNat + 1
  ofParts? year month (min d.day (daysInMonth year month))

end Date

/-! ## Laws -/

theorem Date.ext {a b : Date} (hy : a.year = b.year) (hm : a.month = b.month)
    (hd : a.day = b.day) : a = b := by
  cases a
  cases b
  simp_all

theorem isLeapYear_iff (y : Int) :
    isLeapYear y = true ↔ y % 4 = 0 ∧ (y % 100 ≠ 0 ∨ y % 400 = 0) := by
  simp [isLeapYear]

/-- A year follows the one before it after that year's length. -/
theorem daysBeforeYear_succ (y : Int) :
    daysBeforeYear (y + 1) = daysBeforeYear y + yearLength y := by
  by_cases h : isLeapYear y = true
  · have h' := (isLeapYear_iff y).mp h
    simp only [daysBeforeYear, yearLength, h, if_true]
    omega
  · have h' := mt (isLeapYear_iff y).mpr h
    simp only [daysBeforeYear, yearLength, h, Bool.false_eq_true, if_false]
    omega

theorem daysBeforeMonth_thirteen (y : Int) : daysBeforeMonth y 13 = yearLength y := by
  simp only [daysBeforeMonth, daysInMonth, yearLength]
  split <;> rfl

theorem daysBeforeYear_mono {x y : Int} (h : x ≤ y) : daysBeforeYear x ≤ daysBeforeYear y := by
  simp only [daysBeforeYear]
  omega

/-- A day lies in its year. -/
theorem yearOfDay_bounds (n : Int) :
    daysBeforeYear (yearOfDay n) ≤ n ∧ n < daysBeforeYear (yearOfDay n + 1) := by
  have h0 : daysBeforeYear (1970 + 400 * n / 146097 - 1) ≤ n := by
    simp only [daysBeforeYear]
    omega
  have h2 : n < daysBeforeYear (1970 + 400 * n / 146097 + 1 + 1) := by
    simp only [daysBeforeYear]
    omega
  simp only [yearOfDay]
  split
  · rename_i h
    refine ⟨h0, ?_⟩
    rw [Int.sub_add_cancel]
    exact h
  · split
    · rename_i h
      exact ⟨h, h2⟩
    · omega

/-- No other year has the day. -/
theorem yearOfDay_eq {n y : Int} (h0 : daysBeforeYear y ≤ n) (h1 : n < daysBeforeYear (y + 1)) :
    yearOfDay n = y := by
  obtain ⟨a, b⟩ := yearOfDay_bounds n
  have lo : ¬ yearOfDay n + 1 ≤ y := by
    intro h
    have := daysBeforeYear_mono h
    omega
  have hi : ¬ y + 1 ≤ yearOfDay n := by
    intro h
    have := daysBeforeYear_mono h
    omega
  omega

theorem Date.ofParts?_self (d : Date) : ofParts? d.year d.month d.day = some d := by
  simp [ofParts?, d.year_range, d.month_range, d.day_range]

theorem Date.ofParts?_eq_some {y : Int} {m k : Nat} {d : Date} (h : ofParts? y m k = some d) :
    d.year = y ∧ d.month = m ∧ d.day = k := by
  simp only [ofParts?] at h
  split at h
  · simp only [Option.some.injEq] at h
    subst h
    exact ⟨rfl, rfl, rfl⟩
  · exact absurd h (by simp)

end ContentIndex.Calendar
